import Booru.Yaml.Token.Text

/-! Cutting a document into tokens. Indentation opens and closes block collections. Where a
key may stand, a candidate is kept; when a colon follows on the same line, the token of the
key is put in front of it. -/

namespace Booru.Yaml

structure Candidate where
  number : Nat
  /-- Nothing but a key can stand here. -/
  required : Bool
  index : Nat
  line : Nat
  column : Nat

structure Lexing where
  cursor : Cursor
  flowLevel : Nat := 0
  indents : List Nat := []
  keyAllowed : Bool := true
  /-- At most one candidate for each level of flow collections. -/
  candidates : List (Nat × Candidate) := []
  tokens : List Token := []
  count : Nat := 0

abbrev Lex (α : Type) := StateT Lexing (Except TextFault) α

namespace Lex

def maxKeyLength : Nat := 1024

def inFlow (s : Lexing) : Bool := s.flowLevel != 0

def leastColumn (s : Lexing) : Nat := match s.indents with
  | [] => 0
  | n :: _ => n + 1

def malformed {α : Type} : Lex α := throw .malformed

def demand (holds : Bool) : Lex Unit := if holds then pure () else malformed

def scan {α : Type} (x : Scan α) : Lex α := fun s =>
  match x s.cursor with
  | .ok (a, cursor) => .ok (a, { s with cursor })
  | .error f => .error f

def push (t : Token) : Lex Unit := modify fun s =>
    { s with tokens := t :: s.tokens, count := s.count + 1 }

/-- Tokens put in behind the first `number` tokens. -/
def insert (number : Nat) (ts : List Token) : Lex Unit := modify fun s =>
  let later := s.count - number
  { s with
    tokens := s.tokens.take later ++ ts.reverse ++ s.tokens.drop later
    count := s.count + ts.length }

def allowKey (allowed : Bool) : Lex Unit := modify fun s => { s with keyAllowed := allowed }

def dropCandidate : Lex Unit := do
  let s ← get
  match s.candidates.lookup s.flowLevel with
  | none => pure ()
  | some k => do
    demand !k.required
    set { s with candidates := s.candidates.filter (·.1 != s.flowLevel) }

def isStale (s : Lexing) (k : Candidate) : Bool :=
  k.line != s.cursor.line || maxKeyLength < s.cursor.index - k.index

def dropStale : Lex Unit := do
  let s ← get
  demand !(s.candidates.any fun c => isStale s c.2 && c.2.required)
  set { s with candidates := s.candidates.filter fun c => !isStale s c.2 }

def saveCandidate : Lex Unit := do
  if (← get).keyAllowed then
    dropCandidate
    modify fun s =>
      let required := !inFlow s && s.indents.head? == some s.cursor.column
      let k : Candidate := ⟨s.count, required, s.cursor.index, s.cursor.line, s.cursor.column⟩
      { s with candidates := (s.flowLevel, k) :: s.candidates }

def unwind (least : Nat) : Lex Unit := modify fun s =>
  if inFlow s then s
  else
    let closed := s.indents.takeWhile (least < · + 1)
    { s with indents := s.indents.drop closed.length
             tokens := closed.map (fun _ => Token.blockEnd) ++ s.tokens
             count := s.count + closed.length }

def indentAt (column : Nat) : Lex Bool := do
  let s ← get
  if leastColumn s ≤ column then
    set { s with indents := column :: s.indents }
    pure true
  else pure false

def nextTokenFrom : Nat → Lex Unit
  | 0 => pure ()
  | fuel + 1 => do
    scan Scan.skipSpaces
    scan Scan.skipComment
    let lineEnd ← scan Scan.lineBreak
    if !lineEnd.isEmpty then
      if !inFlow (← get) then allowKey true
      nextTokenFrom fuel

/-- Blanks, comments and line ends are skipped. Behind a line end a block
collection may have a key. -/
def nextToken : Lex Unit := do
  let s ← get
  if s.cursor.index == 0 && s.cursor.peek == some byteOrderMark then scan (Scan.skip 1)
  nextTokenFrom (s.cursor.rest.length + 1)

def streamEnd : Lex Unit := do
  unwind 0
  dropCandidate
  push .streamEnd

def atTop (x : Lex Unit) : Lex Unit := do
  unwind 0
  dropCandidate
  allowKey false
  x

def flowStart (t : Token) : Lex Unit := do
  saveCandidate
  modify fun s => { s with flowLevel := s.flowLevel + 1 }
  allowKey true
  scan (Scan.skip 1)
  push t

def flowEnd (t : Token) : Lex Unit := do
  dropCandidate
  modify fun s => { s with flowLevel := s.flowLevel - 1 }
  allowKey false
  scan (Scan.skip 1)
  push t

def flowEntry : Lex Unit := do
  allowKey true
  dropCandidate
  scan (Scan.skip 1)
  push .flowEntry

def blockStart (t : Token) : Lex Unit := do
  let s ← get
  if !inFlow s then
    demand s.keyAllowed
    if ← indentAt s.cursor.column then push t

def blockEntry : Lex Unit := do
  blockStart .blockSequenceStart
  allowKey true
  dropCandidate
  scan (Scan.skip 1)
  push .blockEntry

def key : Lex Unit := do
  blockStart .blockMappingStart
  allowKey !(inFlow (← get))
  dropCandidate
  scan (Scan.skip 1)
  push .key

/-- A colon. If there is a candidate for its key, the key begins there, and with it a block mapping
if the column opens one. -/
def value : Lex Unit := do
  let s ← get
  match s.candidates.lookup s.flowLevel with
  | some k => do
    set { s with candidates := s.candidates.filter (·.1 != s.flowLevel) }
    let opens ← if inFlow s then pure false else indentAt k.column
    insert k.number (if opens then [.blockMappingStart, .key] else [.key])
    allowKey false
  | none => do
    blockStart .blockMappingStart
    allowKey !(inFlow s)
    dropCandidate
  scan (Scan.skip 1)
  push .value

def keyLike (x : Scan Token) : Lex Unit := do
  saveCandidate
  allowKey false
  push (← scan x)

def blockScalar (folded : Bool) : Lex Unit := do
  allowKey true
  dropCandidate
  let least := max 1 (leastColumn (← get))
  push (← scan (Scan.blockScalar folded least))

def plain : Lex Unit := do
  saveCandidate
  let s ← get
  let (t, lineEnded) ← scan (Scan.plainScalar (inFlow s) (leastColumn s))
  allowKey lineEnded
  push t

def startsPlain (inFlow : Bool) (c : Char) (second : Option Char) : Bool :=
  !(endsWord (some c) || "-?:,[]\x7b\x7d#&*!|>'\"%@`".toList.contains c)
    || (!endsWord second && (c == '-' || (!inFlow && (c == '?' || c == ':'))))

def step : Lex Bool := do
  nextToken
  dropStale
  unwind ((← get).cursor.column + 1)
  let s ← get
  let flow := inFlow s
  let alone := endsWord (s.cursor.peek 1)
  match s.cursor.peek with
  | none => do
    streamEnd
    pure true
  | some c => do
    if c == '%' && s.cursor.column == 0 then atTop do push (← scan Scan.directive)
    else if s.cursor.column == 0 && s.cursor.atMarks '-' then
      atTop do
        scan (Scan.skip 3)
        push .documentStart
    else if s.cursor.column == 0 && s.cursor.atMarks '.' then
      atTop do
        scan (Scan.skip 3)
        push .documentEnd
    else if c == '[' then flowStart .flowSequenceStart
    else if c == '\x7b' then flowStart .flowMappingStart
    else if c == ']' then flowEnd .flowSequenceEnd
    else if c == '\x7d' then flowEnd .flowMappingEnd
    else if c == ',' then flowEntry
    else if c == '-' && alone then blockEntry
    else if c == '?' && (flow || alone) then key
    else if c == ':' && (flow || alone) then value
    else if c == '*' then keyLike do pure (.alias (← Scan.anchorName))
    else if c == '&' then keyLike do pure (.anchor (← Scan.anchorName))
    else if c == '!' then keyLike Scan.tag
    else if c == '|' && !flow then blockScalar false
    else if c == '>' && !flow then blockScalar true
    else if c == '\'' then keyLike (Scan.quotedScalar false)
    else if c == '"' then keyLike (Scan.quotedScalar true)
    else if startsPlain flow c (s.cursor.peek 1) then plain
    else malformed
    pure false

def tokensFrom : Nat → Lexing → List Token
  | 0, s => (Token.broken .malformed :: s.tokens).reverse
  | fuel + 1, s =>
    match step s with
    | .error f => (Token.broken f :: s.tokens).reverse
    | .ok (true, s) => s.tokens.reverse
    | .ok (false, s) => tokensFrom fuel s

end Lex

def isAllowed (c : Char) : Bool :=
  let n := c.toNat
  n == 9 || n == 10 || n == 13 || (32 ≤ n && n ≤ 126) || n == 0x85 || (0xA0 ≤ n && n ≤ 0xD7FF)
    || (0xE000 ≤ n && n ≤ 0xFFFD) || 0x10000 ≤ n

def tokens (text : String) : List Token :=
  let cs := text.toList
  if cs.all isAllowed then Lex.tokensFrom (2 * cs.length + 2) { cursor := { rest := cs } }
  else [.broken .malformed]

end Booru.Yaml
