import Booru.Decimal
import Booru.Json.Basic
import Booru.Text.Integer

/-! Reading a JSON document. An error says what was expected where; the place is counted in
characters that are left, which the caller turns into an offset, a line and a column.

Two kinds of documents are read otherwise than by a reader that keeps lone surrogates and has a
limit of depth: an escape for half of a surrogate pair stands for U+FFFD here, and no nesting is too
deep. -/

namespace Booru.Json

inductive Expected
  | value
  | name
  | colon
  | comma
  | endOfText
  | endOfString
  | printableCharacter
  | escape
  | unicodeEscape
  | noByteOrderMark
  deriving DecidableEq, Repr

def Expected.message : Expected → String
  | .value => "Expecting value"
  | .name => "Expecting property name enclosed in double quotes"
  | .colon => "Expecting ':' delimiter"
  | .comma => "Expecting ',' delimiter"
  | .endOfText => "Extra data"
  | .endOfString => "Unterminated string starting at"
  | .printableCharacter => "Invalid control character at"
  | .escape => "Invalid \\escape"
  | .unicodeEscape => "Invalid \\uXXXX escape"
  | .noByteOrderMark => "Unexpected UTF-8 BOM (decode using utf-8-sig)"

/-- Why a text is no document: a fault with the number of characters from it to the end, or an
integer that is too long to be read. -/
inductive Fault
  | syntactic (expected : Expected) (left : Nat)
  | integer (e : Text.IntegerError)
  deriving DecidableEq, Repr

/-- A document with more nested values than characters does not exist, so a reader that is handed
the length of its text never runs out. -/
abbrev Parse (α : Type) := Except Fault (α × List Char)

def fault {α : Type} (e : Expected) (rest : List Char) : Except Fault α :=
  .error (.syntactic e rest.length)

def isSpace (c : Char) : Bool := c = ' ' || c = '\t' || c = '\n' || c = '\r'

def skipSpace (cs : List Char) : List Char := cs.dropWhile isSpace

def hexValue? (c : Char) : Option Nat :=
  if c.isDigit then some (c.toNat - '0'.toNat)
  else if 'a' ≤ c && c ≤ 'f' then some (c.toNat - 'a'.toNat + 10)
  else if 'A' ≤ c && c ≤ 'F' then some (c.toNat - 'A'.toNat + 10)
  else none

def hexFour? : List Char → Option (Nat × List Char)
  | a :: b :: c :: d :: e :: rest => do
    let a ← hexValue? a
    let b ← hexValue? b
    let c ← hexValue? c
    let d ← hexValue? d
    pure (((a * 16 + b) * 16 + c) * 16 + d, e :: rest)
  | _ => none

def isHighSurrogate (n : Nat) : Bool := 0xD800 ≤ n && n < 0xDC00

def isLowSurrogate (n : Nat) : Bool := 0xDC00 ≤ n && n < 0xE000

/-- A code unit by itself. Half of a pair is no character, and is read as U+FFFD. -/
def unitChar (n : Nat) : Char :=
  if isHighSurrogate n || isLowSurrogate n then '\uFFFD' else Char.ofNat n

/-- The character of an escape `\u`, given from behind the `u`: one code unit, or two that form a
pair. A second escape right behind a first half has to be well formed, and counts for itself if
it is no second half. -/
def unicodeEscape (cs : List Char) : Parse Char :=
  match hexFour? cs with
  | none => .error (.syntactic .unicodeEscape (cs.length + 1))
  | some (high, rest) =>
    if isHighSurrogate high && 6 < rest.length then
      match rest with
      | '\\' :: 'u' :: more =>
        match hexFour? more with
        | none => .error (.syntactic .unicodeEscape (more.length + 1))
        | some (low, after) =>
          if isLowSurrogate low then
            .ok (Char.ofNat (0x10000 + (high - 0xD800) * 0x400 + (low - 0xDC00)), after)
          else .ok (unitChar high, rest)
      | _ => .ok (unitChar high, rest)
    else .ok (unitChar high, rest)

def simpleEscape? : Char → Option Char
  | '"' => some '"'
  | '\\' => some '\\'
  | '/' => some '/'
  | 'b' => some '\x08'
  | 'f' => some '\x0c'
  | 'n' => some '\n'
  | 'r' => some '\r'
  | 't' => some '\t'
  | _ => none

/-- The characters of a string up to its closing quote; `start` counts from the opening quote to the
end of the text. -/
def stringBody (start : Nat) : Nat → List Char → List Char → Parse String
  | 0, _, _ => .error (.syntactic .endOfString start)
  | fuel + 1, done, cs =>
    match cs with
    | [] => .error (.syntactic .endOfString start)
    | '"' :: rest => .ok (String.ofList done.reverse, rest)
    | '\\' :: rest =>
      match rest with
      | [] => .error (.syntactic .endOfString start)
      | 'u' :: more =>
        match unicodeEscape more with
        | .error e => .error e
        | .ok (c, after) => stringBody start fuel (c :: done) after
      | e :: more =>
        match simpleEscape? e with
        | some c => stringBody start fuel (c :: done) more
        | none => fault .escape cs
    | c :: rest =>
      if c.toNat < 32 then fault .printableCharacter cs
      else stringBody start fuel (c :: done) rest

def readString (cs : List Char) : Parse String := stringBody (cs.length + 1) (cs.length + 1) [] cs

def digitsOf (cs : List Char) : List Char × List Char :=
  (cs.takeWhile Char.isDigit, cs.dropWhile Char.isDigit)

def minusOf : List Char → List Char × List Char
  | '-' :: rest => (['-'], rest)
  | cs => ([], cs)

def wholeOf : List Char → List Char × List Char
  | '0' :: rest => (['0'], rest)
  | cs => digitsOf cs

def fractionOf : List Char → List Char × List Char
  | '.' :: rest =>
    if (digitsOf rest).1.isEmpty then ([], '.' :: rest)
      else ('.' :: (digitsOf rest).1, (digitsOf rest).2)
  | cs => ([], cs)

def exponentSign : List Char → List Char × List Char
  | '+' :: rest => (['+'], rest)
  | '-' :: rest => (['-'], rest)
  | cs => ([], cs)

def exponentOf : List Char → List Char × List Char
  | [] => ([], [])
  | c :: rest =>
    if c = 'e' || c = 'E' then
      let (sign, body) := exponentSign rest
      if (digitsOf body).1.isEmpty then ([], c :: rest)
        else ('e' :: (sign ++ (digitsOf body).1), (digitsOf body).2)
    else ([], c :: rest)

def readNumber (cs : List Char) : Parse Json :=
  let (sign, body) := minusOf cs
  let (whole, afterWhole) := wholeOf body
  if whole.isEmpty then fault .value cs
  else
    let (fraction, afterFraction) := fractionOf afterWhole
    let (exponent, rest) := exponentOf afterFraction
    if fraction.isEmpty && exponent.isEmpty then
      match Text.readInteger (String.ofList (sign ++ whole)) with
      | .ok n => .ok (.int n, rest)
      | .error e => .error (.integer e)
    else
      .ok (.float ((Decimal.read? (String.ofList
        (sign ++ whole ++ fraction ++ exponent))).getD 0.0), rest)

def constants : List (String × Json) :=
  [("null", .null), ("true", .bool true), ("false", .bool false),
    ("NaN", .float Decimal.notANumber), ("Infinity", .float Decimal.infinity),
    ("-Infinity", .float (-Decimal.infinity))]

def afterWord? (word : String) (cs : List Char) : Option (List Char) :=
  if word.toList.isPrefixOf cs then some (cs.drop word.length) else none

def constant? (cs : List Char) : Option (Json × List Char) :=
  constants.findSome? fun (word, v) => (afterWord? word cs).map fun rest => (v, rest)

mutual
def readValue : Nat → List Char → Parse Json
  | 0, cs => fault .value cs
  | fuel + 1, cs =>
    match cs with
    | '"' :: rest => (readString rest).map fun r => (.string r.1, r.2)
    | '\x7b' :: rest =>
      match skipSpace rest with
      | '\x7d' :: after => .ok (.object [], after)
      | body => (readMembers fuel body).map fun r => (.object (Members.ofList r.1), r.2)
    | '[' :: rest =>
      match skipSpace rest with
      | ']' :: after => .ok (.array [], after)
      | body => (readItems fuel body).map fun r => (.array r.1, r.2)
    | _ =>
      match constant? cs with
      | some r => .ok r
      | none => readNumber cs

def readItems : Nat → List Char → Parse (List Json)
  | 0, cs => fault .value cs
  | fuel + 1, cs =>
    match readValue fuel cs with
    | .error e => .error e
    | .ok (v, rest) =>
      match skipSpace rest with
      | ']' :: after => .ok ([v], after)
      | ',' :: more => (readItems fuel (skipSpace more)).map fun r => (v :: r.1, r.2)
      | other => fault .comma other

def readMembers : Nat → List Char → Parse (List (String × Json))
  | 0, cs => fault .name cs
  | fuel + 1, cs =>
    match cs with
    | '"' :: rest =>
      match readString rest with
      | .error e => .error e
      | .ok (name, afterName) =>
        match skipSpace afterName with
        | ':' :: body =>
          match readValue fuel (skipSpace body) with
          | .error e => .error e
          | .ok (v, afterValue) =>
            match skipSpace afterValue with
            | '\x7d' :: after => .ok ([(name, v)], after)
            | ',' :: more =>
              (readMembers fuel (skipSpace more)).map fun r => ((name, v) :: r.1, r.2)
            | other => fault .comma other
        | other => fault .colon other
    | _ => fault .name cs
end

def document (cs : List Char) : Except Fault Json :=
  match cs with
  | '\uFEFF' :: _ => fault .noByteOrderMark cs
  | _ =>
    match readValue (2 * cs.length + 2) (skipSpace cs) with
    | .error e => .error e
    | .ok (v, rest) => if (skipSpace rest).isEmpty then .ok v else fault .endOfText (skipSpace rest)

def read (s : String) : Except Fault Json := document s.toList

def place (cs : List Char) (left : Nat) : Nat × Nat × Nat :=
  let before := cs.take (cs.length - left)
  (before.count '\n' + 1, (before.reverse.takeWhile (· != '\n')).length + 1, before.length)

def Fault.message (text : String) : Fault → String
  | .integer e => e.message
  | .syntactic expected left =>
    let (line, column, offset) := place text.toList left
    expected.message ++ ": line " ++ toString line ++ " column " ++ toString column ++ " (char "
      ++ toString offset ++ ")"

end Booru.Json
