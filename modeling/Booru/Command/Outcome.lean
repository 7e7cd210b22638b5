import Booru.Command.Handlers
import Booru.Command.Basic
import Booru.Settings.Validation

/-! What a command line comes to: the exit status, and what is said about a failure; and what a
command reaches for outside of itself. -/

namespace Booru

inductive Outcome
  | done
  | stopped (u : Command.UsageStop)
  | failed (f : Failure)

namespace Outcome

/-- Failures of what the user set up, failures of the work itself, an
interruption, and all others. -/
def statusOf (f : Failure) : Nat :=
  match f.kind with
  | .config => 2
  | .lex | .resolver | .precondition | .api => 3
  | .interrupt => 130
  | _ => 1

def errorText (f : Failure) : String :=
  match statusOf f with
  | 130 => "Interrupted"
  | 1 => "Unexpected error: " ++ f.message
  | _ => f.message

def usage (program : String) : String := "usage: " ++ program ++ " [-h] ..."

def status : Outcome → Nat
  | .done => 0
  | .stopped ⟨_, .help⟩ => 0
  | .stopped ⟨_, .wrong _⟩ => 2
  | .failed f => statusOf f

def errors : Outcome → String
  | .done => ""
  | .stopped ⟨_, .help⟩ => ""
  | .stopped ⟨program, .wrong message⟩ =>
    usage program ++ "\n" ++ program ++ ": error: " ++ message ++ "\n"
  | .failed f => errorText f ++ "\n"

def help : Outcome → List String
  | .stopped ⟨program, .help⟩ => [usage program]
  | _ => []

end Outcome

namespace Command

def run (environment : List (String × String)) : Command → Run World Unit
  | .lex path => runLex path
  | .filter task => runFilter task
  | .search task => runSearch environment task
  | .download task => runDownload environment task

def carryOut (environment : List (String × String)) (args : List String) (w : World) :
    Outcome × World :=
  match ofArguments args with
  | .error u => (.stopped u, { w with printed := w.printed ++ Outcome.help (.stopped u) })
  | .ok command =>
    match run environment command w with
    | (.ok (), w) => (.done, w)
    | (.error f, w) => (.failed f, w)

end Command
end Booru

/-! ### What a command reaches for -/

namespace Booru.Command

def paths : Command → List Path
  | .lex blacklist => [.ofString blacklist]
  | .filter task => .ofString task.blacklist :: .ofString task.posts ::
    task.out.toList.map .ofString
  | .search task => [.ofString task.config, task.logPath, task.postsPath]
  | .download task => .ofString task.config :: task.logPath :: task.out.toList.map .ofString

def settingsPath? : Command → Option Path
  | .search task => some (.ofString task.config)
  | .download task => some (.ofString task.config)
  | _ => none

def keyVariable? (t : FileTree) (c : Command) : Option String := do
  let path ← c.settingsPath?
  let settings ← (Settings.load t path).toOption
  pure settings.login.apiKeyEnv

end Booru.Command
