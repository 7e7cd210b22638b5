import Booru.Yaml.Token

/-! The texts of scalars: quoted in two ways, plain, and as indented blocks of lines. -/

namespace Booru.Yaml.Scan

def joined (lineEnd breaks : List Char) : List Char :=
  (if lineEnd != ['\n'] then lineEnd else if breaks.isEmpty then [' '] else []) ++ breaks

/-- The empty lines inside of a quoted text. A mark between documents must not stand there. -/
def quotedBreaks : Nat → Scan (List Char)
  | 0 => pure []
  | fuel + 1 => do
    demand !(← get).atDocumentMark
    discard (run isSpaceOrTab)
    match ← lineBreak with
    | [] => pure []
    | cs => pure (cs ++ (← quotedBreaks fuel))

def quotedBlanks : Scan (List Char) := do
  let blanks ← run isSpaceOrTab
  demand (← peek).isSome
  match ← lineBreak with
  | [] => pure blanks
  | lineEnd => pure (joined lineEnd (← quotedBreaks ((← get).rest.length + 1)))

def shortEscape? (c : Char) : Option Char :=
  [('0', '\x00'), ('a', '\x07'), ('b', '\x08'), ('t', '\t'), ('\t', '\t'),
    ('n', '\n'), ('v', '\x0b'), ('f', '\x0c'), ('r', '\r'), ('e', '\x1b'), (' ', ' '), ('"', '"'),
    ('\\', '\\'), ('/', '/'), ('N', '\x85'), ('_', '\xa0'), ('L', '\u2028'),
    ('P', '\u2029')].lookup c

def escapeDigits? (c : Char) : Option Nat := [('x', 2), ('u', 4), ('U', 8)].lookup c

def character (n : Nat) : Scan Char :=
  if n < 0x110000 then pure (Char.ofNat n)
  else if n < 0x80000000 then throw .noCharacter
  else throw .wideCharacter

def escape : Scan (List Char) := do
  match ← peek with
  | none => malformed
  | some c =>
    match shortEscape? c, escapeDigits? c with
    | some d, _ => do
      skip 1
      pure [d]
    | none, some count => do
      skip 1
      pure [← character (← hexNumber count)]
    | none, none => do
      demand (isBreak c)
      discard lineBreak
      quotedBreaks ((← get).rest.length + 1)

/-- A quoted text behind its first quote. In single quotes, a quote is written twice; in double
quotes there are escapes. -/
def quotedFrom (double : Bool) : Nat → Scan (List Char)
  | 0 => malformed
  | fuel + 1 => do
    match ← peek with
    | none => malformed
    | some c =>
      if !double && c == '\'' then
        skip 1
        if (← peek) == some '\'' then
          skip 1
          pure ('\'' :: (← quotedFrom double fuel))
        else pure []
      else if double && c == '"' then
        skip 1
        pure []
      else if double && c == '\\' then
        skip 1
        let cs ← escape
        pure (cs ++ (← quotedFrom double fuel))
      else if isSpaceOrTab c || isBreak c then
        let cs ← quotedBlanks
        pure (cs ++ (← quotedFrom double fuel))
      else
        skip 1
        pure (c :: (← quotedFrom double fuel))

def quotedScalar (double : Bool) : Scan Token := do
  skip 1
  let cs ← quotedFrom double ((← get).rest.length + 1)
  pure (.scalar (String.ofList cs) false)

def isFlowMark (c : Char) : Bool := c == ',' || c == '[' || c == ']' || c == '\x7b' || c == '\x7d'

def endsPlain (inFlow : Bool) (s : Cursor) : Bool :=
  match s.peek with
  | none => true
  | some c =>
    isSpaceOrTab c || isBreak c
      || (c == ':' && (endsWord (s.peek 1) || (inFlow && (s.peek 1).any isFlowMark)))
      || (inFlow && (c == '?' || isFlowMark c))

def plainPiece (inFlow : Bool) : Nat → Scan (List Char)
  | 0 => pure []
  | fuel + 1 => do
    let s ← get
    match s.rest with
    | [] => pure []
    | c :: _ =>
      if endsPlain inFlow s then pure []
      else
        skip 1
        pure (c :: (← plainPiece inFlow fuel))

def plainBreaks : Nat → Scan (Option (List Char))
  | 0 => pure (some [])
  | fuel + 1 => do
    if (← peek) == some ' ' then
      skip 1
      plainBreaks fuel
    else
      match ← lineBreak with
      | [] => pure (some [])
      | cs =>
        if (← get).atDocumentMark then pure none
        else pure ((← plainBreaks fuel).map (cs ++ ·))

def plainBlanks : Scan (List Char × Bool) := do
  let blanks ← run (· == ' ')
  match ← lineBreak with
  | [] => pure (blanks, false)
  | lineEnd =>
    if (← get).atDocumentMark then pure ([], true)
    else
      match ← plainBreaks ((← get).rest.length + 1) with
      | none => pure ([], true)
      | some breaks => pure (joined lineEnd breaks, true)

/-- A plain text, and whether a line ended behind its last piece. Outside of flow collections it
goes on only on lines that are indented by `indent` columns or more. -/
def plainFrom (inFlow : Bool) (indent : Nat) (before : List Char) (lineEnded : Bool) :
    Nat → Scan (List Char × Bool)
  | 0 => pure ([], lineEnded)
  | fuel + 1 => do
    let piece ← if (← peek) == some '#' then pure []
      else plainPiece inFlow ((← get).rest.length + 1)
    if piece.isEmpty then pure ([], lineEnded)
    else
      let (blanks, ended) ← plainBlanks
      let s ← get
      if blanks.isEmpty || s.peek == some '#' || (!inFlow && s.column < indent) then
        pure (before ++ piece, ended)
      else
        let (cs, ended) ← plainFrom inFlow indent blanks ended fuel
        pure (before ++ piece ++ cs, ended)

def plainScalar (inFlow : Bool) (indent : Nat) : Scan (Token × Bool) := do
  let (cs, ended) ← plainFrom inFlow indent [] false ((← get).rest.length + 1)
  pure (.scalar (String.ofList cs) true, ended)

inductive Chomping
  | strip
  | clip
  | keep
  deriving DecidableEq, Repr

def chomping? : Option Char → Option Chomping
  | some '+' => some .keep
  | some '-' => some .strip
  | _ => none

def increment? (c : Option Char) : Option Nat :=
  (c.filter Char.isDigit).map fun c => c.toNat - 48

def blockHeader : Scan (Chomping × Option Nat) := do
  let first ← peek
  let second ← peek 1
  let (chomping, increment, count) := match chomping? first, increment? first with
    | some k, _ => match increment? second with
      | some n => (k, some n, 2)
      | none => (k, none, 1)
    | none, some n => match chomping? second with
      | some k => (k, some n, 2)
      | none => (.clip, some n, 1)
    | none, none => (.clip, none, 0)
  demand (increment != some 0)
  skip count
  demand (endsTag (← peek))
  endOfLine
  pure (chomping, increment)

/-- The empty lines in front of a block, and the deepest indentation on them and in
front of the first text. -/
def blockStart : Nat → Scan (List Char × Nat)
  | 0 => pure ([], 0)
  | fuel + 1 => do
    if (← peek) == some ' ' then
      skip 1
      let column := (← get).column
      let (breaks, deepest) ← blockStart fuel
      pure (breaks, max column deepest)
    else
      match ← lineBreak with
      | [] => pure ([], 0)
      | cs =>
        let (breaks, deepest) ← blockStart fuel
        pure (cs ++ breaks, deepest)

def indentTo (column : Nat) : Scan Unit := do
  let s ← get
  skip ((s.rest.takeWhile (· == ' ')).length.min (column - s.column))

def blockBreaks (indent : Nat) : Nat → Scan (List Char)
  | 0 => pure []
  | fuel + 1 => do
    indentTo indent
    match ← lineBreak with
    | [] => pure []
    | cs => pure (cs ++ (← blockBreaks indent fuel))

/-- The lines of a block from the first text on, `before` being the line ends in front of it. In
folded blocks a line end between two lines of text becomes a blank. -/
def blockLines (folded : Bool) (chomping : Chomping) (indent : Nat) (before : List Char) :
    Nat → Scan (List Char)
  | 0 => pure []
  | fuel + 1 => do
    let isText := !(← peek).any isSpaceOrTab
    let line ← run fun c => !isBreak c
    let lineEnd ← lineBreak
    let breaks ← blockBreaks indent ((← get).rest.length + 1)
    let s ← get
    if s.column == indent && s.peek.isSome then
      let fold := folded && lineEnd == ['\n'] && isText && !s.peek.any isSpaceOrTab
      let between := if fold then (if breaks.isEmpty then [' '] else []) else lineEnd
      let rest ← blockLines folded chomping indent breaks fuel
      pure (before ++ line ++ between ++ rest)
    else
      pure (before ++ line ++ (if chomping == .strip then [] else lineEnd)
        ++ (if chomping == .keep then breaks else []))

def blockScalar (folded : Bool) (least : Nat) : Scan Token := do
  skip 1
  let (chomping, increment) ← blockHeader
  let fuel := (← get).rest.length + 1
  let (breaks, indent) ← match increment with
    | none => do
      let (breaks, deepest) ← blockStart fuel
      pure (breaks, max least deepest)
    | some n => do
      let indent := least + n - 1
      pure (← blockBreaks indent fuel, indent)
  let s ← get
  let text ←
    if s.column == indent && s.peek.isSome then blockLines folded chomping indent breaks fuel
    else pure (if chomping == .keep then breaks else [])
  pure (.scalar (String.ofList text) false)

end Booru.Yaml.Scan
