import Booru.Text.Character
import Booru.Text.Quoted

/-! Words of a command line: named flags with and without values, and all other words. A
flag may be cut short as long as it is clear which one is meant, and a value may be joined
to it by an equals sign. -/

namespace Booru.Command

structure Flag where
  names : List String
  takesValue : Bool := true
  required : Bool := false
  complaint : String → Option String := fun _ => none

def Flag.title (f : Flag) : String := "/".intercalate f.names

def Flag.named (f : Flag) (name : String) : Bool := f.names.contains name

inductive Word
  | separator
  | plain (text : String)
  | unknown (text : String)
  /-- A flag with the value joined to it. `glued` values follow a short name without any mark. -/
  | flag (f : Flag) (value : Option String) (glued : Bool)

inductive Stop
  | help
  | wrong (message : String)
  deriving DecidableEq, Repr

def Flag.wrong (f : Flag) (message : String) : Stop :=
  .wrong ("argument " ++ f.title ++ ": " ++ message)

def helpFlag : Flag := { names := ["-h", "--help"], takesValue := false }

def splitAtEquals (cs : List Char) : List Char × Option (List Char) :=
  (cs.takeWhile (· != '='), match cs.dropWhile (· != '=') with
    | [] => none
    | _ :: rest => some rest)

/-- A minus sign before digits, with a point in front of the last of them at most. One line feed may
follow. -/
def isNegativeNumber (cs : List Char) : Bool :=
  let isDigit (c : Char) : Bool := (Text.digitValue? c).isSome
  match cs with
  | '-' :: body =>
    let body := if body.getLast? == some '\n' then body.dropLast else body
    let whole := body.takeWhile isDigit
    match body.drop whole.length with
    | [] => !whole.isEmpty
    | '.' :: fraction => !fraction.isEmpty && fraction.all isDigit
    | _ => false
  | _ => false

abbrev Reading := Flag × String × Option String × Bool

def longReadings (flags : List Flag) (cs : List Char) : List Reading :=
  let (start, value) := splitAtEquals cs
  flags.flatMap fun f => (f.names.filter fun name => start.isPrefixOf name.toList).map fun name =>
    (f, name, value.map String.ofList, false)

def shortReadings (flags : List Flag) (cs : List Char) : List Reading :=
  flags.flatMap fun f => f.names.filterMap fun name =>
    if name.toList == cs.take 2 then some (f, name, some (String.ofList (cs.drop 2)), true)
    else if cs.isPrefixOf name.toList then some (f, name, none, false)
    else none

def readLoosely (flags : List Flag) (cs : List Char) : Except Stop Word :=
  let text := String.ofList cs
  let readings := if cs.take 2 == ['-', '-'] then longReadings flags cs else shortReadings flags cs
  match readings with
  | [(f, _, value, glued)] => .ok (.flag f value glued)
  | [] =>
    if isNegativeNumber cs || cs.contains ' ' then .ok (.plain text) else .ok (.unknown text)
  | several =>
    .error (.wrong ("ambiguous option: " ++ text ++ " could match "
      ++ ", ".intercalate (several.map fun r => r.2.1)))

def readWord (flags : List Flag) (text : String) : Except Stop Word :=
  let cs := text.toList
  if cs.head? != some '-' then .ok (.plain text)
  else match flags.find? (·.named text) with
    | some f => .ok (.flag f none false)
    | none =>
      if cs.length == 1 then .ok (.plain text)
      else
        let (name, value) := splitAtEquals cs
        match value, flags.find? (·.named (String.ofList name)) with
        | some v, some f => .ok (.flag f (some (String.ofList v)) false)
        | _, _ => readLoosely flags cs

/-- All words. Behind two dashes by themselves there are no flags any more. -/
def readWords (flags : List Flag) : List String → Except Stop (List Word)
  | [] => .ok []
  | text :: rest =>
    if text == "--" then .ok (.separator :: rest.map .plain)
    else do
      let word ← readWord flags text
      let words ← readWords flags rest
      pure (word :: words)

structure Given where
  values : List (Flag × String) := []
  extras : List String := []

namespace Given

def addValue (g : Given) (f : Flag) (value : String) : Except Stop Given :=
  match f.complaint value with
  | some message => .error (f.wrong message)
  | none => .ok { g with values := g.values ++ [(f, value)] }

def addExtra (g : Given) (text : String) : Given := { g with extras := g.extras ++ [text] }

/-- A flag that takes no value. What is glued to a short name is read as more short names. -/
def addSwitch (g : Given) (f : Flag) (value : Option String) (glued : Bool) : Except Stop Given :=
  let refused (v : String) : Except Stop Given :=
    .error (f.wrong ("ignored explicit argument " ++ Text.quoted v))
  match value with
  | some v => if glued && !v.isEmpty && v.toList.head? != some '-' then switchOn else refused v
  | none => switchOn
where
  switchOn : Except Stop Given :=
    if f.title == helpFlag.title then .error .help else g.addValue f ""

def has (g : Given) (name : String) : Bool := g.values.any fun v => v.1.named name

def all (g : Given) (name : String) : List String :=
  (g.values.filter fun v => v.1.named name).map (·.2)

def last? (g : Given) (name : String) : Option String := (g.all name).getLast?

def missing (g : Given) (flags : List Flag) : List String :=
  (flags.filter fun f => f.required && !g.values.any (·.1.title == f.title)).map Flag.title

end Given

def requiredMessage (names : List String) : String :=
  "the following arguments are required: " ++ ", ".intercalate names

def follow : List Word → Given → Except Stop Given
  | [], g => .ok g
  | .separator :: rest, g => follow rest (g.addExtra "--")
  | .plain text :: rest, g => follow rest (g.addExtra text)
  | .unknown text :: rest, g => follow rest (g.addExtra text)
  | .flag f value glued :: rest, g =>
    if f.takesValue then
      match value, rest with
      | some v, rest => do follow rest (← g.addValue f v)
      | none, .plain v :: rest => do follow rest (← g.addValue f v)
      | none, _ => .error (f.wrong "expected one argument")
    else do follow rest (← g.addSwitch f value glued)

def readFlags (flags : List Flag) (args : List String) : Except Stop Given := do
  let flags := helpFlag :: flags
  let given ← follow (← readWords flags args) {}
  match given.missing flags with
  | [] => pure given
  | names => throw (.wrong (requiredMessage names))

end Booru.Command
