import Booru.Text.Character
import Booru.Text.Integer
import Booru.Time.Stamp

/-! The tree of a document before its scalars are read: every node with a tag
that says what it is. -/

namespace Booru.Yaml

inductive Tag
  | null
  | bool
  | int
  | float
  | binary
  | timestamp
  | text
  | list
  | pairs
  | mapping
  | set
  /-- The key under which other mappings are merged in. -/
  | merge
  /-- The key of the value that a mapping stands for as a scalar. -/
  | value
  | unknown
  deriving DecidableEq, Repr

inductive Node
  | scalar (tag : Tag) (text : String)
  | sequence (tag : Tag) (items : List Node)
  | mapping (tag : Tag) (entries : List (Node × Node))
  /-- A collection inside of itself, by its anchor. -/
  | enclosing (anchor : String)
  deriving Inhabited

def Node.tag : Node → Tag
  | .scalar tag _ | .sequence tag _ | .mapping tag _ => tag
  | .enclosing _ => .unknown

namespace Tag

def coreStart : String := "tag:yaml.org,2002:"

def coreNames : List (String × Tag) :=
  [("null", .null), ("bool", .bool), ("int", .int), ("float", .float), ("binary", .binary),
    ("timestamp", .timestamp), ("str", .text), ("seq", .list), ("omap", .pairs), ("pairs", .pairs),
    ("map", .mapping), ("set", .set), ("merge", .merge), ("value", .value)]

def ofName (name : String) : Tag :=
  ((coreNames.find? fun t => coreStart ++ t.1 == name).map (·.2)).getD .unknown

def isDigitOrMark (c : Char) : Bool := c.isDigit || c == '_'

def withoutSign : List Char → List Char
  | '+' :: rest | '-' :: rest => rest
  | cs => cs

def truthWords : List String :=
  ["yes", "Yes", "YES", "no", "No", "NO", "true", "True", "TRUE", "false", "False", "FALSE",
    "on", "On", "ON", "off", "Off", "OFF"]

def infinityWords : List String := [".inf", ".Inf", ".INF"]

def noNumberWords : List String := [".nan", ".NaN", ".NAN"]

def isBool (s : String) : Bool := truthWords.contains s

def isExponent : List Char → Bool
  | [] => true
  | e :: sign :: rest =>
    (e == 'e' || e == 'E') && (sign == '+' || sign == '-') && !rest.isEmpty && rest.all Char.isDigit
  | [_] => false

def isSexagesimal (cs : List Char) : Bool :=
  match Text.splitWhen (· == ':') cs with
  | [] :: part :: parts => (part :: parts).all fun
    | [d] => d.isDigit
    | [d, e] => '0' ≤ d && d ≤ '5' && e.isDigit
    | _ => false
  | _ => false

def isPositional (cs : List Char) : Bool :=
  match cs with
  | '.' :: d :: rest => d.isDigit && isExponent (rest.dropWhile isDigitOrMark)
  | _ => false

def isFloat (cs : List Char) : Bool :=
  let body := withoutSign cs
  let isWhole := body.head?.any Char.isDigit
  let behind := body.dropWhile isDigitOrMark
  let fraction := match behind with
    | '.' :: rest => isExponent (rest.dropWhile isDigitOrMark)
    | _ => false
  let sexagesimal := isSexagesimal (behind.takeWhile (· != '.')) &&
    match behind.dropWhile (· != '.') with
    | '.' :: rest => rest.all isDigitOrMark
    | _ => false
  (isWhole && (fraction || sexagesimal)) || isPositional cs
    || infinityWords.contains (String.ofList body) || noNumberWords.contains (String.ofList cs)

def allAnd (p : Char → Bool) (cs : List Char) : Bool := !cs.isEmpty && cs.all p

def isInt (cs : List Char) : Bool :=
  let isIn (p : Char → Bool) (c : Char) : Bool := p c || c == '_'
  match withoutSign cs with
  | '0' :: 'b' :: rest => allAnd (isIn fun c => c == '0' || c == '1') rest
  | '0' :: 'x' :: rest => allAnd (isIn fun c => c.toNat < 128 && (Text.digitIn? 16 c).isSome) rest
  | '0' :: rest => rest.all (isIn fun c => '0' ≤ c && c ≤ '7')
  | c :: rest =>
    let behind := rest.dropWhile isDigitOrMark
    c.isDigit && (behind.isEmpty || isSexagesimal behind)
  | [] => false

def isTimestamp (cs : List Char) : Bool :=
  match Time.Stamp.read? cs with
  | some ⟨_, _, _, none⟩ => cs.length == 10
  | some _ => true
  | none => false

def withoutLineFeed (cs : List Char) : List Char :=
  if cs.getLast? == some '\n' then cs.dropLast else cs

/-- What a plain text is taken for. One line feed at its end does not matter. -/
def ofPlain (text : String) : Tag :=
  let cs := withoutLineFeed text.toList
  let s := String.ofList cs
  if isBool s then .bool
  else if isFloat cs then .float
  else if isInt cs then .int
  else if s == "<<" then .merge
  else if ["~", "null", "Null", "NULL", ""].contains s then .null
  else if isTimestamp cs then .timestamp
  else if s == "=" then .value
  else if ["!", "&", "*"].contains s then .unknown
  else .text

end Tag
end Booru.Yaml
