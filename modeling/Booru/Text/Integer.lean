import Booru.Text.Character
import Booru.Text.Quoted

/-! Integers written in decimal: an optional sign and digits of any script, with single underscores
between digits. -/

namespace Booru.Text

inductive IntegerError
  | malformed (text : String) (base : Nat := 10)
  | tooLong (digits : Nat)
  deriving DecidableEq, Repr

/-- No more digits than this are read, leading zeros included, and no more are written. -/
def maxDigits : Nat := 4300

def limitText : String :=
  "Exceeds the limit (" ++ toString maxDigits ++ " digits) for integer string conversion"

def limitAdvice : String := "; use sys.set_int_max_str_digits() to increase the limit"

def IntegerError.message : IntegerError → String
  | .malformed text base =>
    "invalid literal for int() with base " ++ toString base ++ ": "
      ++ String.ofList ((quoted text).toList.take 200)
  | .tooLong digits => limitText ++ ": value has " ++ toString digits ++ " digits" ++ limitAdvice

def isLong (n : Int) : Bool := maxDigits < (Nat.toDigits 10 n.natAbs).length

/-- White space around an integer. Unlike `isBlank` it leaves out the four ASCII separators. -/
def isPadding (c : Char) : Bool := isBlank c && !(28 ≤ c.toNat && c.toNat ≤ 31)

/-- The digits a text starts with, single underscores between them dropped, and what follows. An
underscore without a digit on both sides is `none`. -/
def leadingDigits (afterDigit : Bool) : List Char → Option (List Nat × List Char)
  | [] => some ([], [])
  | c :: rest =>
    match digitValue? c with
    | some d => (leadingDigits true rest).map fun r => (d :: r.1, r.2)
    | none =>
      if c = '_' then
        if afterDigit && (rest.head?.bind digitValue?).isSome
          then leadingDigits false rest else none
      else some ([], c :: rest)

def valueOf (digits : List Nat) : Nat := digits.foldl (fun n d => 10 * n + d) 0

def signAndRest : List Char → Bool × List Char
  | '-' :: rest => (true, rest)
  | '+' :: rest => (false, rest)
  | cs => (false, cs)

def readInteger (s : String) : Except IntegerError Int :=
  let body := dropEndWhile isPadding (s.toList.dropWhile isPadding)
  let (negative, magnitude) := signAndRest body
  match leadingDigits false magnitude with
  | none => .error (.malformed s)
  | some (digits, rest) =>
    if maxDigits < digits.length then .error (.tooLong digits.length)
    else if digits.isEmpty || !rest.isEmpty then .error (.malformed s)
    else .ok (if negative then -(valueOf digits : Int) else valueOf digits)

def digitIn? (base : Nat) (c : Char) : Option Nat :=
  let d? := match digitValue? c with
    | some d => some d
    | none =>
      if 'a' ≤ c && c ≤ 'f' then some (c.toNat - 87)
      else if 'A' ≤ c && c ≤ 'F' then some (c.toNat - 55)
      else none
  d?.filter (· < base)

def baseMark (base : Nat) : Char := if base = 2 then 'b' else if base = 8 then 'o' else 'x'

def readIntegerIn (base : Nat) (s : String) : Except IntegerError Int :=
  let (negative, magnitude) := signAndRest (dropEndWhile isPadding (s.toList.dropWhile isPadding))
  let digits := match magnitude with
    | '0' :: c :: rest => if c.toLower == baseMark base then rest else magnitude
    | cs => cs
  match digits.mapM (digitIn? base) with
  | some (d :: ds) =>
    let n := (d :: ds).foldl (fun n d => base * n + d) 0
    .ok (if negative then -(n : Int) else n)
  | _ => .error (.malformed s base)

end Booru.Text

/-! ### Integers of 64 bits -/

namespace Booru

def fitsWord (n : Int) : Bool := -0x8000000000000000 ≤ n && n < 0x8000000000000000

end Booru
