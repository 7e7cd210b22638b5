import Booru.Decimal
import Booru.Failure
import Booru.Text.Encoding
import Booru.Yaml.Basic
import Booru.Yaml.Cursor
import Booru.Yaml.Node

/-! The values of scalars. A text may be taken for something that it does not spell. -/

namespace Booru.Yaml

inductive Obstacle
  | noCharacter
  | wideCharacter
  | emptyNumber
  | integer (e : Text.IntegerError)
  | noDecimal (text : String)
  | sixties
  | noTruthValue (word : String)
  | noStamp
  | stamp (e : Time.StampError)
  deriving DecidableEq

def Obstacle.failure : Obstacle → Failure
  | .noCharacter => .argument .noCharacter
  | .wideCharacter => .range .wideInt
  | .emptyNumber => .raised ⟨.index, "string index out of range"⟩
  | .integer e => .integer e
  | .noDecimal s => .argument (.noDecimal s)
  | .sixties => .range .sixties
  | .noTruthValue word => .raised ⟨.key, word⟩
  | .noStamp => .raised ⟨.attribute, "'NoneType' object has no attribute 'groupdict'"⟩
  | .stamp e => .stamp e

inductive Fault
  | malformed
  | unbuildable (o : Obstacle)

def TextFault.fault : TextFault → Fault
  | .malformed => .malformed
  | .noCharacter => .unbuildable .noCharacter
  | .wideCharacter => .unbuildable .wideCharacter

def unbuildable {α : Type} (o : Obstacle) : Except Fault α := .error (.unbuildable o)

def withoutMarks (s : String) : List Char := s.toList.filter (· != '_')

def signed (cs : List Char) : Except Fault (Bool × List Char) :=
  match cs with
  | [] => unbuildable .emptyNumber
  | '-' :: rest => .ok (true, rest)
  | '+' :: rest => .ok (false, rest)
  | cs => .ok (false, cs)

def sixties {α : Type} [Add α] [Mul α] (zero : α) (sixty : α) (digits : List α) : α :=
  digits.foldl (fun n d => n * sixty + d) zero

def colonParts (cs : List Char) : List String := (Text.splitWhen (· == ':') cs).map String.ofList

def readMagnitude (cs : List Char) : Except Text.IntegerError Int :=
  match cs with
  | ['0'] => .ok 0
  | '0' :: 'b' :: rest => Text.readIntegerIn 2 (String.ofList rest)
  | '0' :: 'x' :: rest => Text.readIntegerIn 16 (String.ofList rest)
  | '0' :: _ => Text.readIntegerIn 8 (String.ofList cs)
  | cs =>
    if cs.contains ':' then ((colonParts cs).mapM Text.readInteger).map (sixties 0 60)
    else Text.readInteger (String.ofList cs)

def readInt (s : String) : Except Fault Yaml := do
  let (negative, cs) ← signed (withoutMarks s)
  if cs.isEmpty then discard (signed cs)
  match readMagnitude cs with
  | .ok n => pure (.int (if negative then -n else n))
  | .error e => unbuildable (.integer e)

def readDecimal (s : String) : Except Fault Float := match Decimal.read? s with
  | some x => .ok x
  | none => unbuildable (.noDecimal s)

/-- The sum of digits to the base of sixty, the last one first. A power of sixty counts as the
double nearest to it, as long as there is one. -/
def sumOfSixties : Float → Nat → List Float → Except Fault Float
  | sum, _, [] => .ok sum
  | sum, power, d :: rest =>
    let base := Decimal.nearest power 0
    if base.isInf then unbuildable .sixties else sumOfSixties (sum + d * base) (power * 60) rest

def readFloat (s : String) : Except Fault Yaml := do
  let (negative, cs) ← signed (Text.lower (String.ofList (withoutMarks s))).toList
  let x ←
    if cs == ".inf".toList then pure Decimal.infinity
    else if cs == ".nan".toList then pure Decimal.notANumber
    else if cs.contains ':' then
      do sumOfSixties 0 1 (← (colonParts cs).mapM readDecimal).reverse
    else readDecimal (String.ofList cs)
  pure (.float (if negative then -x else x))

def readBool (s : String) : Except Fault Yaml :=
  let word := Text.lower s
  if ["yes", "true", "on"].contains word then .ok (.bool true)
  else if ["no", "false", "off"].contains word then .ok (.bool false)
  else unbuildable (.noTruthValue word)

def readBinary (s : String) : Except Fault Yaml :=
  if s.toList.all (·.toNat < 128) then
    match Text.base64Decode s.toList with
    | some bs => .ok (.bytes bs)
    | none => .error .malformed
  else .error .malformed

def readStamp (s : String) : Except Fault Yaml :=
  match Time.Stamp.read? (Tag.withoutLineFeed s.toList) with
  | none => unbuildable .noStamp
  | some t => match t.check with
    | .ok () => .ok (.stamp t)
    | .error e => unbuildable (.stamp e)

def readScalar (tag : Tag) (s : String) : Except Fault Yaml :=
  match tag with
  | .null => .ok .null
  | .bool => readBool s
  | .int => readInt s
  | .float => readFloat s
  | .binary => readBinary s
  | .timestamp => readStamp s
  | .text => .ok (.text s)
  | .list | .pairs | .mapping | .set | .merge | .value | .unknown => .error .malformed

end Booru.Yaml
