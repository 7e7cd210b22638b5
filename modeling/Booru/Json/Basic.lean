import Booru.Decimal
import Booru.Text.Integer

/-! JSON values. Integers and decimal numbers are told apart, as in their text, and an object keeps
its members in the order they were written. Texts are made of Unicode scalar values, so each of
them has a UTF-8 form, and values may be nested to any depth. An integer with more than
`Text.maxDigits` digits is a value, but one that `write` refuses. -/

namespace Booru

inductive Json
  | null
  | bool (b : Bool)
  | int (n : Int)
  | float (x : Float)
  | string (s : String)
  | array (items : List Json)
  | object (members : List (String × Json))
  deriving Inhabited, Repr

namespace Json

abbrev Members := List (String × Json)

/-- The member of a name. Where a name stands twice, the last one counts. -/
def Members.get? (ms : Members) (name : String) : Option Json :=
  (ms.reverse.find? (·.1 == name)).map (·.2)

def Members.put (ms : Members) (name : String) (v : Json) : Members :=
  if ms.any (·.1 == name) then ms.map fun m => if m.1 == name then (name, v) else m
  else ms ++ [(name, v)]

def Members.overlay (ms more : Members) : Members :=
  more.foldl (fun acc m => Members.put acc m.1 m.2) ms

def Members.names (ms : Members) : List String := ms.map (·.1)

def Members.ofList (ms : List (String × Json)) : Members := Members.overlay [] ms

def get? : Json → String → Option Json
  | .object ms, name => Members.get? ms name
  | _, _ => none

def member (v : Json) (name : String) : Json := (v.get? name).getD .null

def string? : Json → Option String
  | .string s => some s
  | _ => none

def int? : Json → Option Int
  | .int n => some n
  | _ => none

def array? : Json → Option (List Json)
  | .array items => some items
  | _ => none

def members? : Json → Option Members
  | .object ms => some ms
  | _ => none

def isNull : Json → Bool
  | .null => true
  | _ => false

def ofStrings (xs : List String) : Json := .array (xs.map .string)

def ofOption (o : Option Json) : Json := o.getD .null

end Json
end Booru

/-! ### The texts of a value -/

namespace Booru.Json

/-- Numbers keep a fraction and go over to an exponent from `1e16` up and below `0.0001`. -/
def numberLayout : Decimal.Layout := ⟨-4, 16, "NaN", "Infinity"⟩

def shownLayout : Decimal.Layout := { numberLayout with nan := "nan", infinity := "inf" }

/-- A text in double quotes. Only quotes, backslashes and the ASCII controls are escaped. -/
def escape (c : Char) : List Char :=
  match c with
  | '"' => ['\\', '"']
  | '\\' => ['\\', '\\']
  | '\n' => ['\\', 'n']
  | '\r' => ['\\', 'r']
  | '\t' => ['\\', 't']
  | '\x0c' => ['\\', 'f']
  | '\x08' => ['\\', 'b']
  | c => if c.toNat < 32 then '\\' :: 'u' :: Text.hexDigits 4 c.toNat else [c]

def quote (s : String) : String := String.ofList ('"' :: s.toList.flatMap escape ++ ['"'])

structure Style where
  itemMark : String
  nameMark : String
  sortNames : Bool

def Style.compact : Style := ⟨",", ":", true⟩

def Style.line : Style := ⟨", ", ": ", true⟩

def sortMembers {α : Type} (ms : List (String × α)) : List (String × α) :=
  ms.mergeSort fun a b => !decide (b.1 < a.1)

mutual
def render (style : Style) : Json → String
  | .null => "null"
  | .bool b => if b then "true" else "false"
  | .int n => toString n
  | .float x => numberLayout.text x
  | .string s => quote s
  | .array items => "[" ++ style.itemMark.intercalate (renderItems style items) ++ "]"
  | .object ms =>
    let parts := renderMembers style ms
    let parts := if style.sortNames then sortMembers parts else parts
    "\x7b" ++ style.itemMark.intercalate (parts.map fun p => quote p.1 ++ style.nameMark ++ p.2) ++
      "\x7d"

def renderItems (style : Style) : List Json → List String
  | [] => []
  | v :: rest => render style v :: renderItems style rest

def renderMembers (style : Style) : List (String × Json) → List (String × String)
  | [] => []
  | (name, v) :: rest => (name, render style v) :: renderMembers style rest
end

def newline (depth : Nat) : String := "\n" ++ String.ofList (List.replicate (2 * depth) ' ')

mutual
def pretty (depth : Nat) : Json → String
  | .array [] => "[]"
  | .object [] => "\x7b\x7d"
  | .array items =>
    "[" ++ newline (depth + 1) ++ ("," ++ newline (depth + 1)).intercalate
      (prettyItems (depth + 1) items)
      ++ newline depth ++ "]"
  | .object ms =>
    "\x7b" ++ newline (depth + 1) ++ ("," ++ newline (depth + 1)).intercalate
      (prettyMembers (depth + 1) ms)
      ++ newline depth ++ "\x7d"
  | .null => "null"
  | .bool b => if b then "true" else "false"
  | .int n => toString n
  | .float x => numberLayout.text x
  | .string s => quote s

def prettyItems (depth : Nat) : List Json → List String
  | [] => []
  | v :: rest => pretty depth v :: prettyItems depth rest

def prettyMembers (depth : Nat) : List (String × Json) → List String
  | [] => []
  | (name, v) :: rest => (quote name ++ ": " ++ pretty depth v) :: prettyMembers depth rest
end

mutual
def shown : Json → String
  | .null => "None"
  | .bool b => if b then "True" else "False"
  | .int n => toString n
  | .float x => shownLayout.text x
  | .string s => Text.quoted s
  | .array items => "[" ++ ", ".intercalate (shownItems items) ++ "]"
  | .object ms => "\x7b" ++ ", ".intercalate (shownMembers ms) ++ "\x7d"

def shownItems : List Json → List String
  | [] => []
  | v :: rest => shown v :: shownItems rest

def shownMembers : List (String × Json) → List String
  | [] => []
  | (name, v) :: rest => (Text.quoted name ++ ": " ++ shown v) :: shownMembers rest
end

mutual
def hasLongInteger : Json → Bool
  | .int n => Text.isLong n
  | .array items => hasLongItem items
  | .object ms => hasLongMember ms
  | _ => false

def hasLongItem : List Json → Bool
  | [] => false
  | v :: rest => hasLongInteger v || hasLongItem rest

def hasLongMember : List (String × Json) → Bool
  | [] => false
  | (_, v) :: rest => hasLongInteger v || hasLongMember rest
end

def plain : Json → String
  | .string s => s
  | v => shown v

end Booru.Json
