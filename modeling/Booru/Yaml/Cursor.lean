/-! Places in the text of a YAML document, and the primitive steps of reading it. -/

namespace Booru.Yaml

/-- Why a text is no document: it is not well formed, or has an escape that
stands for no character. -/
inductive TextFault
  | malformed
  | noCharacter
  | wideCharacter

structure Cursor where
  rest : List Char
  index : Nat := 0
  line : Nat := 0
  column : Nat := 0

def isBreak (c : Char) : Bool :=
  c == '\n' || c == '\r' || c == '\x85' || c == '\u2028' || c == '\u2029'

def isSpaceOrTab (c : Char) : Bool := c == ' ' || c == '\t'

def endsWord : Option Char → Bool
  | none => true
  | some c => isSpaceOrTab c || isBreak c

def endsLine : Option Char → Bool
  | none => true
  | some c => isBreak c

def byteOrderMark : Char := '\ufeff'

namespace Cursor

def peek (s : Cursor) (n : Nat := 0) : Option Char := s.rest[n]?

/-- The cursor behind one character. A carriage return in front of a line
feed does not end a line. -/
def next (s : Cursor) : Cursor :=
  match s.rest with
  | [] => s
  | c :: rest =>
    if isBreak c && !(c == '\r' && rest.head? == some '\n') then ⟨rest, s.index + 1, s.line + 1, 0⟩
    else ⟨rest, s.index + 1, s.line, if c == byteOrderMark then s.column else s.column + 1⟩

def skip : Nat → Cursor → Cursor
  | 0, s => s
  | n + 1, s => skip n s.next

def atMarks (c : Char) (s : Cursor) : Bool :=
  s.rest.take 3 == [c, c, c] && endsWord (s.peek 3)

def atDocumentMark (s : Cursor) : Bool := s.atMarks '-' || s.atMarks '.'

end Cursor

abbrev Scan (α : Type) := StateT Cursor (Except TextFault) α

namespace Scan

def malformed {α : Type} : Scan α := throw .malformed

def peek (n : Nat := 0) : Scan (Option Char) := do pure ((← get).peek n)

def skip (n : Nat) : Scan Unit := modify (Cursor.skip n)

def run (p : Char → Bool) : Scan (List Char) := fun s =>
  let taken := s.rest.takeWhile p
  .ok (taken, s.skip taken.length)

def demand (holds : Bool) : Scan Unit := if holds then pure () else malformed

def skipSpaces : Scan Unit := discard (run (· == ' '))

def skipComment : Scan Unit := do
  if (← peek) == some '#' then discard (run fun c => !isBreak c)

/-- One line end, if the cursor is at one. Only the separators of Unicode stand for themselves. -/
def lineBreak : Scan (List Char) := do
  match ← peek with
  | some '\r' =>
    skip (if (← peek 1) == some '\n' then 2 else 1)
    pure ['\n']
  | some c =>
    if isBreak c then
      skip 1
      pure [if c == '\x85' then '\n' else c]
    else pure []
  | none => pure []

def endOfLine : Scan Unit := do
  skipSpaces
  skipComment
  demand (endsLine (← peek))
  discard lineBreak

end Scan
end Booru.Yaml
