import Booru.Failure
import Booru.World

/-! Logs of runs: one JSON object a line. The context of a download stands at the top level of a
record, so that a log can be searched for it; the other fields stand under `data`. What a line is
made of always has a UTF-8 form, so an event is refused only for a name or an integer in it. -/

namespace Booru

inductive Level
  | debug
  | info
  | warning
  | error
  deriving DecidableEq, Repr

def Level.name : Level → String
  | .debug => "DEBUG"
  | .info => "INFO"
  | .warning => "WARN"
  | .error => "ERROR"

namespace RunLog

def contextFields : List String := ["collection", "tags", "page", "post_id"]

def messageLimit : Nat := 2000

def clip (limit : Nat) (s : String) : String :=
  if s.length ≤ limit then s else String.ofList (s.toList.take (limit - 1) ++ ['…'])

/-- The members at the top level of a record. A context field that is null is left out. -/
def topLevel (fields : Json.Members) : Json.Members :=
  fields.filter fun m => m.1 == "error" || (contextFields.contains m.1 && !m.2.isNull)

def underData (fields : Json.Members) : Json.Members :=
  fields.filter fun m => !(m.1 == "error" || contextFields.contains m.1)

def record (now : Time.Instant) (session : String) (level event : String) (fields : Json.Members) :
    Json :=
  let data := underData fields
  .object ([("ts", .string now.text), ("level", .string level), ("event", .string event),
    ("session_id", .string session)] ++ topLevel fields
    ++ (if data.isEmpty then [] else [("data", .object data)]))

def failureRecord (f : Failure) : Json :=
  .object [("type", .string f.kind.name), ("message", .string (clip messageLimit f.message)),
    ("traceback", .string (f.kind.name ++ ": " ++ clip messageLimit f.message))]

end RunLog

/-- A writer of records. Only the logger that opened the file closes it. -/
structure Logger where
  handle : Nat
  path : Path
  session : String
  context : Json.Members := []
  owner : Bool := true

namespace Logger

def openFile (p : Path) (append : Bool) (session : Option String) : Run World Logger := do
  World.onTree (FileTree.makeDirectories p.parent)
  let handle ← World.onFiles (FileSystem.openFile p append)
  let given := Text.strip (session.getD "")
  let w ← get
  pure { handle, path := p, session := if given.isEmpty then w.freshId else given }

def checkNames (operation : String) (taken : List String) (fields : Json.Members) :
    Run World Unit :=
  match (fields.map (·.1)).find? taken.contains with
  | none => pure ()
  | some name => throw (.takenName operation name)

/-- A logger of the same file with more context. What is null adds nothing. -/
def bind (l : Logger) (context : Json.Members) : Run World Logger := do
  checkNames "bind" ["self"] context
  pure { l with
    context := Json.Members.overlay l.context (context.filter (!·.2.isNull))
    owner := false }

def close (l : Logger) : Run World Unit :=
  if l.owner then modify fun w => { w with files := w.files.close l.handle } else pure ()

def isOpen (l : Logger) (w : World) : Bool := match w.files.handles[l.handle]? with
  | some h => h.isOpen
  | none => false

def event (l : Logger) (level event : String) (fields : Json.Members) : Run World Unit := do
  checkNames "event" ["self", "level", "event"] fields
  let w ← get
  let record := RunLog.record w.now l.session level event (Json.Members.overlay l.context fields)
  let line ← Run.lift (record.write (Json.render .line))
  if l.owner && !l.isOpen w then throw (.argument .closedLogger)
  World.onFiles (FileSystem.write l.handle (line ++ "\n").toUTF8)

def log (l : Logger) (level : Level) (event : String) (fields : Json.Members) : Run World Unit :=
  l.event level.name event fields

def exception (l : Logger) (event : String) (f : Failure) (fields : Json.Members) :
    Run World Unit := do
  checkNames "exception" ["self", "event", "exc"] fields
  l.log .error event (Json.Members.put fields "error" (RunLog.failureRecord f))

end Logger

/-! ### What searches and downloads tell, whoever listens -/

abbrev Journal (σ : Type) := Option (Level → String → Json.Members → Run σ Unit)

namespace Journal

variable {σ τ : Type}

def silent : Journal σ := none

def tell (j : Journal σ) (level : Level) (event : String) (fields : Json.Members) : Run σ Unit :=
  match j with
  | none => pure ()
  | some write => write level event fields

def within (j : Journal σ) (context : Json.Members) : Journal σ :=
  j.map fun write level event fields => write level event (Json.Members.overlay context fields)

def tellFailure (j : Journal σ) (event : String) (f : Failure) (fields : Json.Members) :
    Run σ Unit :=
  j.tell .error event (Json.Members.put fields "error" (RunLog.failureRecord f))

def ofLogger (l : Logger) : Journal World := some l.log

end Journal
end Booru
