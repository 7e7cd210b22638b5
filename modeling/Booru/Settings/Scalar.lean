import Booru.Failure
import Booru.Settings.Checked
import Booru.Text.Integer
import Booru.Yaml.Basic

/-! Single values of a configuration, read generously: texts may stand for
numbers and truth values. -/

namespace Booru.Settings

def spelled? : Yaml → Option String
  | .text s => some s
  | .bytes b => match Text.decode ⟨b.toArray⟩ with
    | .ok s => some s
    | .error _ => none
  | _ => none

/-- The spelling of a value; for bytes that spell nothing the given reason is reported. -/
def spelling (v : Yaml) (undecodable : Reason) : Checked (Option String) :=
  match v, spelled? v with
  | .bytes _, none => .refuse undecodable
  | _, s => .valid s

def readText (v : Yaml) : Checked String :=
  (spelling v .undecodableText).andThen fun
    | some s => .valid s
    | none => .refuse .notText

def isWord (x : Float) : Bool :=
  !x.isNaN && !x.isInf && -9223372036854775808 < x && x < 9223372036854775808

def isWhole (x : Float) : Bool := x == x.floor

def truthOfInteger (n : Int) : Checked Bool :=
  if n == 1 then .valid true else if n == 0 then .valid false else .refuse .noTruthValue

def truthOfText (s : String) : Checked Bool :=
  let s := s.toLower
  if ["1", "on", "t", "true", "y", "yes"].contains s then .valid true
  else if ["0", "off", "f", "false", "n", "no"].contains s then .valid false
  else .refuse .noTruthValue

def readTruth (v : Yaml) : Checked Bool :=
  (spelling v .noTruthValue).andThen fun
    | some s => truthOfText s
    | none => match v with
      | .bool b => .valid b
      | .int n => if fitsWord n then truthOfInteger n else .refuse .notTruthValue
      | .float x =>
        if isWord x && isWhole x then truthOfInteger (Json.wholePart x) else .refuse .notTruthValue
      | _ => .refuse .notTruthValue

/-- White space around numbers. The separators 1C to 1F are none. -/
def isSpace (c : Char) : Bool := Text.isBlank c && !(0x1C ≤ c.toNat && c.toNat ≤ 0x1F)

def trimSpace (cs : List Char) : List Char := Text.dropEndWhile isSpace (cs.dropWhile isSpace)

def isAsciiDigit (c : Char) : Bool := '0' ≤ c && c ≤ '9'

def underscoresFit (cs : List Char) : Bool :=
  cs.head? != some '_' && cs.getLast? != some '_' && !(cs.zip cs.tail).contains ('_', '_')

def withoutUnderscores (cs : List Char) : List Char := cs.filter (· != '_')

def naturalOf? (cs : List Char) : Option Nat :=
  let digits := withoutUnderscores cs
  if underscoresFit cs && !digits.isEmpty && digits.all isAsciiDigit then
    some (digits.foldl (fun n c => 10 * n + (c.toNat - '0'.toNat)) 0)
  else none

def integerOfText? (s : String) : Option Int :=
  let (negative, body) := match trimSpace s.toList with
    | '-' :: rest => (true, rest)
    | '+' :: rest => (false, rest)
    | cs => (false, cs)
  let whole := body.takeWhile (· != '.')
  if (body.drop (whole.length + 1)).all (· == '0') then
    (naturalOf? whole).map fun n => if negative then -(n : Int) else n
  else none

def maxIntegerText : Nat := 4300

def readInteger (v : Yaml) : Checked Int :=
  (spelling v .textNotInteger).andThen fun
    | some s => match integerOfText? s with
      | some n =>
        if maxIntegerText < (trimSpace s.toList).length then .refuse .oversizedInteger
        else .valid n
      | none => .refuse .textNotInteger
    | none => match v with
      | .bool b => .valid (if b then 1 else 0)
      | .int n => .valid n
      | .float x =>
        if x.isNaN || x.isInf then .refuse .notFinite
        else if !isWhole x then .refuse .fractionalInteger
        else if !isWord x then .refuse .oversizedInteger
        else .valid (Json.wholePart x)
      | _ => .refuse .notInteger

def numberOfText? (s : String) : Option Float :=
  let plain (cs : List Char) : Option Float :=
    if cs.all (fun c => c.toNat < 128 && c != '_') then Decimal.read? (String.ofList cs) else none
  match plain (trimSpace s.toList) with
  | some x => some x
  | none =>
    if underscoresFit s.toList && !s.toList.any isSpace then plain (withoutUnderscores s.toList)
    else none

def numberOfInteger (n : Int) : Checked Float :=
  let x := Decimal.nearest n.natAbs 0
  if x.isInf then .refuse .notNumber else .valid (if n < 0 then -x else x)

def readNumber (v : Yaml) : Checked Float :=
  (spelling v .textNotNumber).andThen fun
    | some s => match numberOfText? s with
      | some x => .valid x
      | none => .refuse .textNotNumber
    | none => match v with
      | .bool b => .valid (if b then 1 else 0)
      | .int n => numberOfInteger n
      | .float x => .valid x
      | _ => .refuse .notNumber

end Booru.Settings
