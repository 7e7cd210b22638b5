import Booru.Yaml.Cursor
import Booru.Text.Integer
import Booru.Text.Encoding

/-! The tokens of a YAML document. The layout is told by tokens of its own. Directives, anchors
and tags are read here. -/

namespace Booru.Yaml

inductive Directive
  | version (major : Nat)
  | tagPrefix (handle : String) (start : String)
  | other
  deriving DecidableEq, Repr

inductive Token
  | directive (d : Directive)
  | documentStart
  | documentEnd
  | blockSequenceStart
  | blockMappingStart
  | blockEnd
  | flowSequenceStart
  | flowSequenceEnd
  | flowMappingStart
  | flowMappingEnd
  | blockEntry
  | flowEntry
  | key
  | value
  | alias (name : String)
  | anchor (name : String)
  | tag (handle : Option String) (suffix : String)
  | scalar (text : String) (isPlain : Bool)
  | streamEnd
  /-- The place where the text cannot be cut into tokens any more. -/
  | broken (fault : TextFault)

end Booru.Yaml

/-! ### Directives, anchors and tags -/

namespace Booru.Yaml.Scan

def isWordChar (c : Char) : Bool := c.isAlphanum || c == '-' || c == '_'

def isUriChar (c : Char) : Bool := c.isAlphanum || "-;/?:@&=+$,_.!~*'()[]".toList.contains c

def name : Scan (List Char) := do
  let cs ← run isWordChar
  demand (!cs.isEmpty)
  pure cs

def anchorName : Scan String := do
  skip 1
  let cs ← name
  let after ← peek
  demand (endsWord after || after.any "?:,]\x7d%@`".toList.contains)
  pure (String.ofList cs)

def hexOf (cs : List Char) : Option Nat :=
  cs.foldlM (fun n c => (Text.digitIn? 16 c).map (16 * n + ·)) 0

def isHexDigit (c : Char) : Bool := c.toNat < 128 && (Text.digitIn? 16 c).isSome

def hexNumber (count : Nat) : Scan Nat := do
  let digits := (← get).rest.take count
  demand (digits.length == count && digits.all isHexDigit)
  skip count
  pure ((hexOf digits).getD 0)

def escapedBytes : Nat → Scan (List UInt8)
  | 0 => pure []
  | fuel + 1 => do
    if (← peek) == some '%' then
      skip 1
      let byte ← hexNumber 2
      pure (UInt8.ofNat byte :: (← escapedBytes fuel))
    else pure []

def uriParts : Nat → Scan (List Char)
  | 0 => pure []
  | fuel + 1 => do
    let cs ← run isUriChar
    if (← peek) == some '%' then
      let bytes ← escapedBytes (← get).rest.length
      match Text.decode ⟨bytes.toArray⟩ with
      | .ok s => pure (cs ++ s.toList ++ (← uriParts fuel))
      | .error _ => malformed
    else pure cs

def uri : Scan String := do
  let start := (← get).index
  let cs ← uriParts ((← get).rest.length + 1)
  demand (start != (← get).index)
  pure (String.ofList cs)

def tagHandle : Scan String := do
  demand ((← peek) == some '!')
  skip 1
  if (← peek) == some ' ' then pure "!"
  else
    let cs ← run isWordChar
    demand ((← peek) == some '!')
    skip 1
    pure (String.ofList ('!' :: cs ++ ['!']))

def endsTag : Option Char → Bool
  | some '\t' => false
  | c => endsWord c

def hasHandle (cs : List Char) : Bool :=
  ((cs.drop 1).takeWhile fun c => c == '\t' || !endsWord (some c)).contains '!'

def tag : Scan Token := do
  let s ← get
  let (handle, suffix) ←
    if s.peek 1 == some '<' then do
      skip 2
      let suffix ← uri
      demand ((← peek) == some '>')
      skip 1
      pure (none, suffix)
    else if endsWord (s.peek 1) then do
      skip 1
      pure (none, "!")
    else if hasHandle s.rest then do
      let handle ← tagHandle
      pure (some handle, ← uri)
    else do
      skip 1
      pure (some "!", ← uri)
  demand (endsTag (← peek))
  pure (.tag handle suffix)

def decimal : Scan Nat := do
  let cs ← run Char.isDigit
  demand (!cs.isEmpty)
  pure (cs.foldl (fun n c => 10 * n + (c.toNat - 48)) 0)

def versionDirective : Scan Directive := do
  skipSpaces
  let major ← decimal
  demand ((← peek) == some '.')
  skip 1
  discard decimal
  demand (endsTag (← peek))
  pure (.version major)

def tagDirective : Scan Directive := do
  skipSpaces
  let handle ← tagHandle
  demand ((← peek) == some ' ')
  skipSpaces
  let start ← uri
  demand (endsTag (← peek))
  pure (.tagPrefix handle start)

def directive : Scan Token := do
  skip 1
  let cs ← name
  demand (endsTag (← peek))
  let d ←
    if cs == "YAML".toList then versionDirective
    else if cs == "TAG".toList then tagDirective
    else do
      discard (run fun c => !isBreak c)
      pure .other
  endOfLine
  pure (.directive d)

end Booru.Yaml.Scan
