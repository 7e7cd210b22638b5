import Booru.Json.Basic
import Booru.Time.Stamp

/-! Values of YAML documents. Sets and lists of pairs count as lists. -/

namespace Booru

inductive Yaml
  | null
  | bool (b : Bool)
  | int (n : Int)
  | float (x : Float)
  | text (s : String)
  | bytes (b : List UInt8)
  | stamp (t : Time.Stamp)
  | list (items : List Yaml)
  | mapping (entries : List (Yaml × Yaml))
  deriving Inhabited

namespace Yaml

abbrev Entries := List (Yaml × Yaml)

mutual
def ofJson : Json → Yaml
  | .null => .null
  | .bool b => .bool b
  | .int n => .int n
  | .float x => .float x
  | .string s => .text s
  | .array items => .list (ofItems items)
  | .object ms => .mapping (ofMembers ms)

def ofItems : List Json → List Yaml
  | [] => []
  | v :: rest => ofJson v :: ofItems rest

def ofMembers : List (String × Json) → Entries
  | [] => []
  | (name, v) :: rest => (.text name, ofJson v) :: ofMembers rest
end

def Entries.get? (es : Entries) (name : String) : Option Yaml :=
  (es.find? fun e => match e.1 with
    | .text s => s == name
    | _ => false).map (·.2)

def shownByte (quote : Char) (b : UInt8) : List Char :=
  let c := Char.ofNat b.toNat
  if c == '\\' || c == quote then ['\\', c]
  else if c == '\n' then ['\\', 'n']
  else if c == '\r' then ['\\', 'r']
  else if c == '\t' then ['\\', 't']
  else if 32 ≤ b.toNat && b.toNat < 127 then [c]
  else '\\' :: 'x' :: Text.hexDigits 2 b.toNat

def shownBytes (bs : List UInt8) : String :=
  let quote := if bs.contains 39 && !bs.contains 34 then '"' else '\''
  String.ofList ('b' :: quote :: bs.flatMap (shownByte quote) ++ [quote])

def keyName : Yaml → String
  | .null => "None"
  | .bool b => if b then "1" else "0"
  | .int n => toString n
  | .float x => Json.shownLayout.text x
  | .text s => s
  | .bytes bs => shownBytes bs
  | .stamp t => t.shown
  | .list _ | .mapping _ => ""

end Yaml
end Booru
