
/-! Texts as bytes: UTF-8, which is decoded strictly, with the place and kind of the first fault,
or with a replacement character for each fault; percent escapes, which make a text a single part of
an address; and Base64. -/

/-! ### UTF-8 -/

namespace Booru.Text

inductive Utf8Problem
  | startByte
  | continuationByte
  | endOfData
  deriving DecidableEq, Repr

structure Utf8Error where
  problem : Utf8Problem
  position : Nat
  bytes : List UInt8
  deriving DecidableEq, Repr

def Utf8Problem.message : Utf8Problem → String
  | .startByte => "invalid start byte"
  | .continuationByte => "invalid continuation byte"
  | .endOfData => "unexpected end of data"

def hexByte (b : UInt8) : String :=
  String.ofList ['0', 'x', Nat.digitChar (b.toNat / 16), Nat.digitChar (b.toNat % 16)]

def Utf8Error.message (e : Utf8Error) : String :=
  let place := match e.bytes with
    | [b] => "byte " ++ hexByte b ++ " in position " ++ toString e.position
    | bytes => "bytes in position " ++ toString e.position ++ "-"
        ++ toString (e.position + bytes.length - 1)
  "'utf-8' codec can't decode " ++ place ++ ": " ++ e.problem.message

def tailLength? (b : UInt8) : Option Nat :=
  if b < 0x80 then some 0
  else if b < 0xC2 then none
  else if b < 0xE0 then some 1
  else if b < 0xF0 then some 2
  else if b < 0xF5 then some 3
  else none

/-- Whether a byte may stand first behind a start byte. The narrower ranges keep out overlong forms,
surrogates and numbers beyond the last code point. -/
def mayFollow (start b : UInt8) : Bool :=
  let low : UInt8 := if start = 0xE0 then 0xA0 else if start = 0xF0 then 0x90 else 0x80
  let high : UInt8 := if start = 0xED then 0x9F else if start = 0xF4 then 0x8F else 0xBF
  low ≤ b && b ≤ high

def tailOf (start : UInt8) : Nat → List UInt8 → List UInt8
  | 0, _ => []
  | _, [] => []
  | n + 1, b :: rest => if mayFollow start b then b :: tailOf 0x80 n rest else []

def codePoint (start : UInt8) (tail : List UInt8) : Nat :=
  let lead := match tail.length with
    | 0 => start.toNat
    | 1 => start.toNat % 32
    | 2 => start.toNat % 16
    | _ => start.toNat % 8
  tail.foldl (fun n b => n * 64 + b.toNat % 64) lead

/-- The first character, or the fault that stands in its place, with the
number of bytes it takes. -/
def firstChar (start : UInt8) (rest : List UInt8) : Except Utf8Problem Char × Nat :=
  match tailLength? start with
  | none => (.error .startByte, 1)
  | some n =>
    let tail := tailOf start n rest
    if tail.length = n then (.ok (Char.ofNat (codePoint start tail)), n + 1)
    else if tail.length = rest.length then (.error .endOfData, tail.length + 1)
    else (.error .continuationByte, tail.length + 1)

def decodeFrom (position : Nat) (bytes : List UInt8) (done : List Char) :
    Except Utf8Error (List Char) :=
  match bytes with
  | [] => .ok done.reverse
  | b :: rest =>
    match firstChar b rest with
    | (.error p, n) => .error ⟨p, position, bytes.take n⟩
    | (.ok c, n) => decodeFrom (position + n) (rest.drop (n - 1)) (c :: done)
termination_by bytes.length
decreasing_by simp only [List.length_drop, List.length_cons]; omega

def decode (bytes : ByteArray) : Except Utf8Error String :=
  (decodeFrom 0 bytes.toList []).map String.ofList

def decodeLossyFrom (bytes : List UInt8) (done : List Char) : List Char :=
  match bytes with
  | [] => done.reverse
  | b :: rest =>
    match firstChar b rest with
    | (.error _, n) => decodeLossyFrom (rest.drop (n - 1)) ('\uFFFD' :: done)
    | (.ok c, n) => decodeLossyFrom (rest.drop (n - 1)) (c :: done)
termination_by bytes.length
decreasing_by all_goals (simp only [List.length_drop, List.length_cons]; omega)

def decodeLossy (bytes : ByteArray) : String := String.ofList (decodeLossyFrom bytes.toList [])

/-! ### Percent escapes -/

def isUnreserved (b : UInt8) : Bool :=
  (97 ≤ b && b ≤ 122) || (65 ≤ b && b ≤ 90) || (48 ≤ b && b ≤ 57)
    || b == 95 || b == 46 || b == 45 || b == 126

def upperHexDigit (n : Nat) : Char := (Nat.digitChar n).toUpper

def percentByte (b : UInt8) : List Char :=
  if isUnreserved b then [Char.ofNat b.toNat]
  else ['%', upperHexDigit (b.toNat / 16), upperHexDigit (b.toNat % 16)]

def percentEncode (s : String) : String := String.ofList (s.toUTF8.toList.flatMap percentByte)

def hexValue? (c : Char) : Option Nat :=
  if c.isDigit then some (c.toNat - 48)
  else if 'A' ≤ c && c ≤ 'F' then some (c.toNat - 55)
  else if 'a' ≤ c && c ≤ 'f' then some (c.toNat - 87)
  else none

def percentDecode : List Char → Option (List UInt8)
  | [] => some []
  | '%' :: hi :: lo :: rest =>
    match hexValue? hi, hexValue? lo with
    | some h, some l => (percentDecode rest).map (UInt8.ofNat (16 * h + l) :: ·)
    | _, _ => none
  | c :: rest => if c == '%' then none else (percentDecode rest).map (UInt8.ofNat c.toNat :: ·)

/-! ### Base64 -/

def sextet? (c : Char) : Option Nat :=
  if c.isUpper then some (c.toNat - 65)
  else if c.isLower then some (c.toNat - 71)
  else if c.isDigit then some (c.toNat + 4)
  else if c == '+' then some 62
  else if c == '/' then some 63
  else none

/-- The bytes of the characters from a place in a group of four on. `held` are the bits that wait
for more. Characters outside of the alphabet are skipped. The text ends with padding that fills a
group, or with a full group. -/
def base64From (place pads held : Nat) : List Char → Option (List UInt8)
  | [] => if place = 0 then some [] else none
  | c :: rest =>
    if c == '=' then
      if 2 ≤ place && 4 ≤ place + pads + 1 then some [] else base64From place (pads + 1) held rest
    else match sextet? c with
      | none => base64From place pads held rest
      | some v =>
        match place with
        | 0 => base64From 1 0 v rest
        | 1 => (base64From 2 0 (v % 16) rest).map (UInt8.ofNat (held * 4 + v / 16) :: ·)
        | 2 => (base64From 3 0 (v % 4) rest).map (UInt8.ofNat (held * 16 + v / 4) :: ·)
        | _ => (base64From 0 0 0 rest).map (UInt8.ofNat (held * 64 + v) :: ·)

def base64Decode (cs : List Char) : Option (List UInt8) := base64From 0 0 0 cs

end Booru.Text
