
/-! What can be wrong with a configuration, and values that were checked: every part is looked at,
and all that is wrong is reported together. -/

namespace Booru

inductive Rule
  | environmentName
  | httpUrl
  | nonEmptyText
  | singleLine
  | nonEmptyPath
  deriving DecidableEq, Repr

def Rule.message : Rule → String
  | .environmentName => "must be a valid environment variable name"
  | .httpUrl => "must be an http(s) URL"
  | .nonEmptyText => "must be a non-empty string"
  | .singleLine => "each entry must be a single blacklist line"
  | .nonEmptyPath => "must be a non-empty path"

inductive Reason
  | unknownField
  | nameNotText
  | notText
  | undecodableText
  | notList
  | notInteger
  | notNumber
  | notTruthValue
  | notSection (name : String)
  | textNotInteger
  | fractionalInteger
  | oversizedInteger
  | textNotNumber
  | noTruthValue
  | below (least : Nat)
  | above (most : Nat)
  | notPositive
  | notFinite
  | notNaming
  | breaks (rule : Rule)
  deriving DecidableEq, Repr

def Reason.message : Reason → String
  | .unknownField => "Extra inputs are not permitted"
  | .nameNotText => "Keys should be strings"
  | .notText => "Input should be a valid string"
  | .undecodableText =>
    "Input should be a valid string, unable to parse raw data as a unicode string"
  | .notList => "Input should be a valid list"
  | .notInteger => "Input should be a valid integer"
  | .notNumber => "Input should be a valid number"
  | .notTruthValue => "Input should be a valid boolean"
  | .notSection name => "Input should be a valid dictionary or instance of " ++ name
  | .textNotInteger => "Input should be a valid integer, unable to parse string as an integer"
  | .fractionalInteger => "Input should be a valid integer, got a number with a fractional part"
  | .oversizedInteger => "Unable to parse input string as an integer, exceeded maximum size"
  | .textNotNumber => "Input should be a valid number, unable to parse string as a number"
  | .noTruthValue => "Input should be a valid boolean, unable to interpret input"
  | .below least => "Input should be greater than or equal to " ++ toString least
  | .above most => "Input should be less than or equal to " ++ toString most
  | .notPositive => "Input should be greater than 0"
  | .notFinite => "Input should be a finite number"
  | .notNaming => "Input should be 'md5' or 'id'"
  | .breaks rule => "Value error, " ++ rule.message

structure Issue where
  path : List String
  reason : Reason
  deriving DecidableEq, Repr

def Issue.message (i : Issue) : String :=
  (if i.path.isEmpty then "<root>" else ".".intercalate i.path) ++ ": " ++ i.reason.message

def Issue.within (name : String) (i : Issue) : Issue := { i with path := name :: i.path }

inductive ConfigError
  | missingFile (what path : String)
  | unreadableFile (what path : String)
  | badYaml (path : String)
  | badJson (path : String)
  | notMapping (path : String)
  | invalid (path : String) (issues : List Issue)
  | missingKey (name username : String)
  | nothingToDownload
  deriving DecidableEq, Repr

/-! ### Checked values -/

inductive Checked (α : Type)
  | valid (a : α)
  | invalid (issues : List Issue)

namespace Checked

variable {α β : Type}

def refuse (r : Reason) : Checked α := .invalid [⟨[], r⟩]

def map (f : α → β) : Checked α → Checked β
  | .valid a => .valid (f a)
  | .invalid issues => .invalid issues

/-- Both parts; what is wrong with the first comes first. -/
def both (f : Checked (α → β)) (x : Checked α) : Checked β :=
  match f, x with
  | .valid f, .valid a => .valid (f a)
  | .valid _, .invalid issues => .invalid issues
  | .invalid issues, .valid _ => .invalid issues
  | .invalid issues, .invalid more => .invalid (issues ++ more)

instance : Functor Checked := ⟨fun f => map f, fun a => map fun _ => a⟩

instance : Applicative Checked where
  pure := valid
  seq f x := both f (x ())

def andThen (x : Checked α) (f : α → Checked β) : Checked β :=
  match x with
  | .valid a => f a
  | .invalid issues => .invalid issues

def within (name : String) : Checked α → Checked α
  | .valid a => .valid a
  | .invalid issues => .invalid (issues.map (·.within name))

def besides (issues : List Issue) (x : Checked α) : Checked α :=
  match x with
  | .valid a => if issues.isEmpty then .valid a else .invalid issues
  | .invalid first => .invalid (first ++ issues)

def items (f : α → Checked β) : Nat → List α → Checked (List β)
  | _, [] => .valid []
  | n, a :: rest => both (map List.cons ((f a).within (toString n))) (items f (n + 1) rest)

end Checked
end Booru
