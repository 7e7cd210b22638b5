import Booru.Blacklist.Resolution
import Booru.Collection
import Booru.Command.Flag

/-! The commands of the program, and the command lines that ask for them. -/

namespace Booru

structure FilterTask where
  blacklist : String
  posts : String
  users : List (String × Int) := []
  keepInvalid : Bool := false
  out : Option String := none
  deriving DecidableEq, Repr

structure SearchTask where
  config : String
  tags : String
  out : String
  deriving DecidableEq, Repr

namespace SearchTask

def directory (t : SearchTask) : Path := .ofString t.out

def logPath (t : SearchTask) : Path := t.directory.child "run.log"

def postsPath (t : SearchTask) : Path := t.directory.child "posts.json"

end SearchTask

structure DownloadTask where
  config : String
  out : Option String := none
  log : Option String := none
  dryRun : Bool := false
  deriving DecidableEq, Repr

def DownloadTask.logPath (t : DownloadTask) : Path := .ofString (t.log.getD "e6dl-run.log")

inductive Command
  | lex (blacklist : String)
  | filter (task : FilterTask)
  | search (task : SearchTask)
  | download (task : DownloadTask)
  deriving DecidableEq, Repr

namespace Command

def programName : String := "e6dl"

def readUser (text : String) : Except String (String × Int) :=
  let (name, number) := splitAtEquals text.toList
  let name := Text.lower (Text.strip (String.ofList name))
  match number with
  | none => .error ("expected NAME=ID, got " ++ Text.quoted text)
  | some digits =>
    if name.isEmpty then .error ("expected NAME=ID, got " ++ Text.quoted text)
    else match Text.readInteger (Text.strip (String.ofList digits)) with
      | .ok n => .ok (name, n)
      | .error _ => .error ("user id must be an integer: " ++ Text.quoted text)

def userComplaint (text : String) : Option String := match readUser text with
  | .ok _ => none
  | .error message => some message

def needed (name : String) : Flag := { names := [name], required := true }

def optional (name : String) : Flag := { names := [name] }

def switch (name : String) : Flag := { names := [name], takesValue := false }

structure Form where
  name : String
  flags : List Flag
  build : Given → Command

def text (g : Given) (name : String) : String := (g.last? name).getD ""

def forms : List Form :=
  [⟨"lex", [needed "--blacklist"], fun g => .lex (text g "--blacklist")⟩,
   ⟨"filter",
    [needed "--blacklist", needed "--posts", { optional "--user" with complaint := userComplaint },
      switch "--keep-invalid", optional "--out"],
    fun g => .filter
      { blacklist := text g "--blacklist", posts := text g "--posts"
        users := (g.all "--user").filterMap fun s => (readUser s).toOption
        keepInvalid := g.has "--keep-invalid", out := nonEmpty? (g.last? "--out") }⟩,
   ⟨"search", [needed "--config", needed "--tags", needed "--out"],
    fun g => .search ⟨text g "--config", text g "--tags", text g "--out"⟩⟩,
   ⟨"download", [needed "--config", optional "--out", optional "--log", switch "--dry-run"],
    fun g => .download
      { config := text g "--config", out := nonEmpty? (g.last? "--out"),
        log := nonEmpty? (g.last? "--log")
        dryRun := g.has "--dry-run" }⟩]

structure UsageStop where
  program : String
  stop : Stop
  deriving DecidableEq, Repr

def unknownChoice (name : String) : Stop :=
  .wrong ("argument command: invalid choice: " ++ Text.quoted name ++ " (choose from "
    ++ ", ".intercalate (forms.map fun f => Text.quoted f.name) ++ ")")

def top (stop : Stop) : UsageStop := ⟨programName, stop⟩

/-- The words in front of the name of a command are followed; the rest is left to the command. -/
def leading (extras : List String) : List Word → List String →
    Except Stop (List String × List String)
  | .unknown text :: words, _ :: args => leading (extras ++ [text]) words args
  | .flag f value glued :: words, _ :: args => do
    discard (Given.addSwitch {} f value glued)
    leading extras words args
  | [.separator], args => .ok (extras ++ args, [])
  | _, args => .ok (extras, args)

def readForm (extras : List String) (name : String) (args : List String) :
    Except UsageStop Command :=
  match forms.find? (·.name == name) with
  | none => .error (top (unknownChoice name))
  | some form => do
    let given ← (readFlags form.flags args).mapError (UsageStop.mk (programName ++ " " ++ name))
    match extras ++ given.extras with
    | [] => pure (form.build given)
    | extras => throw (top (.wrong ("unrecognized arguments: " ++ " ".intercalate extras)))

def ofArguments (args : List String) : Except UsageStop Command := do
  let words ← (readWords [helpFlag] args).mapError top
  let (extras, rest) ← (leading [] words args).mapError top
  match rest with
  | [] => throw (top (.wrong (requiredMessage ["command"])))
  | name :: args => readForm extras name args

end Command
end Booru
