import Booru.Failure
import Booru.Http
import Booru.Files
import Booru.Retry

/-! Sessions with a server, and the worlds that runs act in: a session, files, a clock, and what was
slept, told and printed.

Two kinds of writing can fail in a world: `screen` says which printed lines do, and `shortage` how
much is stored of a text that replaces a file. Logs and fetched files do not run out of room.
A printed line is out at once, so nothing is left to be flushed when a run is over. -/

namespace Booru

structure Session where
  script : Script
  requests : List Request := []
  released : List Bool := []
  closed : Bool := false

namespace Session

def get (r : Request) : Run Session Response := fun s =>
  let (exchange, script) := s.script.next r.key
  let s := { s with script, requests := s.requests ++ [r] }
  match exchange with
  | .error fault => (.error (.raised fault), s)
  | .ok a =>
    (.ok ⟨s.released.length, r.url, a.status, a.reason, a.headers, a.body⟩,
      { s with released := s.released ++ [false] })

def release (r : Response) (s : Session) : Session :=
  { s with released := s.released.set r.index true }

def close (s : Session) : Session := { s with closed := true }

end Session

structure World where
  session : Session
  files : FileSystem := {}
  now : Time.Instant
  draw : Float
  freshId : String := ""
  sleeps : List Float := []
  retries : List (Retry.Event Float) := []
  printed : List String := []
  /-- What keeps a line from being printed, by the number of lines before it. -/
  screen : Nat → Option OutputError := fun _ => none
  /-- How many bytes of a document are stored before writing it fails. -/
  shortage : Option (Nat × OutputError) := none

namespace World

variable {α : Type}

def within {σ τ : Type} (part : τ → σ) (put : σ → τ → τ) (x : Run σ α) : Run τ α := fun w =>
  let (r, s) := x (part w)
  (r, put s w)

def onSession (x : Run Session α) : Run World α :=
  within (·.session) (fun s w => { w with session := s }) x

def onFiles (x : Run FileSystem α) : Run World α :=
  within (·.files) (fun s w => { w with files := s }) x

def onTree (x : Run FileTree α) : Run World α :=
  onFiles (within (·.tree) (fun t s => { s with tree := t }) x)

def change (f : FileTree → Except Failure FileTree) : Run World Unit := onTree (FileTree.change f)

def inspect (f : FileTree → Except Failure α) : Run World α := fun w => (f w.files.tree, w)

def sleep (seconds : Float) (w : World) : World := { w with sleeps := w.sleeps ++ [seconds] }

def noteRetry (e : Retry.Event Float) : Run World Unit :=
  modify fun w => { w with retries := w.retries ++ [e] }

def printLine (line : String) : Run World Unit := fun w =>
  match w.screen w.printed.length with
  | none => (.ok (), { w with printed := w.printed ++ [line] })
  | some e => (.error (.raised e.fault), w)

/-- A text put in place of a file. What was there is lost before the first byte is stored. -/
def writeText (p : Path) (text : String) : Run World Unit := do
  match (← get).shortage with
  | none => change (·.writeBytes p text.toUTF8)
  | some (stored, e) => do
    change (·.writeBytes p (text.toUTF8.extract 0 stored))
    throw (.raised e.fault)

def surroundings (r : Request) (onRetry : Retry.Event Float → Run World Unit) :
    Retry.Surroundings World Float where
  ask := onSession (Session.get r)
  release := fun r w => { w with session := w.session.release r }
  readHint := fun value w => (Retry.readHint w.now value).mapError .range
  draw := fun w => (w.draw, w)
  sleep := sleep
  onRetry := onRetry

end World
end Booru
