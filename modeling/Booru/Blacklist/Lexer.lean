import Booru.Blacklist.Token
import Booru.Text.Integer

/-! Reading the text of a blacklist. A line feed ends a line, any other white space parts the terms,
and the first malformed term is reported with the place where it goes wrong. -/

namespace Booru.Blacklist

inductive Problem
  | unexpectedAfter (c : Char)
  | bareNegation
  | unexpected (text : String)
  | missingId
  | idOutOfRange (digits : String)
  | missingUser
  | unknownComparator (text : String)
  | missingScore
  | scoreOutOfRange (text : String)
  | unknownSpecial (name : String)
  deriving DecidableEq, Repr

def Problem.kind : Problem → String
  | .unexpectedAfter _ | .bareNegation | .unexpected _ | .missingUser => "bad_token"
  | .missingId | .idOutOfRange _ => "bad_id"
  | .unknownComparator _ | .missingScore | .scoreOutOfRange _ => "bad_score"
  | .unknownSpecial _ => "unknown_special"

def Problem.message : Problem → String
  | .unexpectedAfter c => "Unexpected character " ++
    Text.quoted (String.ofList [c]) ++ " after token"
  | .bareNegation => "Negation marker without a tag"
  | .unexpected text => "Unexpected character " ++ Text.quoted text
  | .missingId => "Expected digits after 'id:'"
  | .idOutOfRange digits => "Post id out of range: " ++ digits
  | .missingUser => "Expected a username after 'user:'"
  | .unknownComparator text => "Unknown score comparator: " ++ text
  | .missingScore => "Expected digits after 'score:'"
  | .scoreOutOfRange text => "Score out of range: " ++ text
  | .unknownSpecial name => "Unknown special tag identifier: " ++ name

structure LexError where
  problem : Problem
  offset : Nat
  line : Nat
  deriving DecidableEq, Repr

def LexError.message (e : LexError) : String :=
  e.problem.message ++ " (line " ++ toString e.line ++ ", offset " ++ toString e.offset ++ ")"

/-- Why a text is no blacklist. A number with too many digits is refused
before its range is known. -/
inductive LexFailure
  | malformed (e : LexError)
  | integer (e : Text.IntegerError)
  deriving DecidableEq, Repr

/-- Where a scan stops: a problem with the number of characters from it to the end of the text. -/
inductive Stop
  | problem (p : Problem) (left : Nat)
  | integer (e : Text.IntegerError)
  deriving DecidableEq, Repr

def stop {α : Type} (p : Problem) (rest : List Char) : Except Stop α :=
  .error (.problem p rest.length)

def isComparatorChar (c : Char) : Bool := c = '<' || c = '>' || c = '='

def number (digits : List Char) : Except Stop Int :=
  (Text.readInteger (String.ofList digits)).mapError .integer

def lexId (negated : Bool) (cs : List Char) : Except Stop (Token × List Char) := do
  let digits := cs.takeWhile Char.isDigit
  if digits.isEmpty then stop .missingId cs
  else
    let n ← number digits
    if fitsWord n then pure (.ofId n negated, cs.dropWhile Char.isDigit)
    else stop (.idOutOfRange (String.ofList digits)) cs

def lexUser (negated : Bool) (cs : List Char) : Except Stop (Token × List Char) :=
  let name := cs.takeWhile isTagChar
  if name.isEmpty then stop .missingUser cs
  else .ok (.ofUser (foldName (String.ofList name)) negated, cs.dropWhile isTagChar)

def signOf : List Char → List Char × List Char
  | '-' :: rest => (['-'], rest)
  | cs => ([], cs)

def lexThreshold (negated : Bool) (comparator : String) (cs : List Char) :
    Except Stop (Token × List Char) := do
  let (sign, rest) := signOf cs
  let digits := rest.takeWhile Char.isDigit
  if digits.isEmpty then stop .missingScore cs
  else
    let n ← number (sign ++ digits)
    if fitsWord n then pure (.scoreOf comparator n negated, rest.dropWhile Char.isDigit)
    else stop (.scoreOutOfRange (String.ofList (sign ++ digits))) cs

/-- The comparator a score starts with. None at all means equality. -/
def comparatorOf (cs : List Char) : String :=
  let written := cs.takeWhile isComparatorChar
  if written.isEmpty then "=" else String.ofList written

def lexScore (negated : Bool) (cs : List Char) : Except Stop (Token × List Char) :=
  if comparators.contains (comparatorOf cs) then
    lexThreshold negated (comparatorOf cs) (cs.dropWhile isComparatorChar)
  else stop (.unknownComparator (comparatorOf cs)) cs

/-- The value of a special term, given from behind the colon; `start` is the text from the term's
first character on. -/
def lexSpecial (name : String) (negated : Bool) (start cs : List Char) :
    Except Stop (Token × List Char) :=
  match name with
  | "rating" => .ok (.ofRating (String.ofList (cs.takeWhile Char.isAlpha)) negated,
    cs.dropWhile Char.isAlpha)
  | "id" => lexId negated cs
  | "user" => lexUser negated cs
  | "score" => lexScore negated cs
  | _ => stop (.unknownSpecial name) start

def lexUnsigned (negated : Bool) (start cs : List Char) : Except Stop (Token × List Char) :=
  let name := cs.takeWhile isTagChar
  let rest := cs.dropWhile isTagChar
  if name.isEmpty then stop (.unexpected (String.ofList (cs.take 1))) cs
  else
    let folded := foldName (String.ofList name)
    match rest with
    | ':' :: value => lexSpecial folded negated start value
    | _ => .ok (.ofTag folded negated, rest)

def lexToken (cs : List Char) : Except Stop (Token × List Char) :=
  match cs with
  | '-' :: rest =>
    if rest.head?.any isTagChar then lexUnsigned true cs rest else stop .bareNegation cs
  | _ => lexUnsigned false cs cs

theorem dropWhile_length_lt (p : Char → Bool) (cs : List Char)
    (h : (cs.takeWhile p).isEmpty = false) :
    (cs.dropWhile p).length < cs.length := by
  have hsum := congrArg List.length (List.takeWhile_append_dropWhile (p := p) (l := cs))
  rw [List.length_append] at hsum
  have : (cs.takeWhile p).length ≠ 0 := by
    intro h0
    rw [List.length_eq_zero_iff] at h0
    simp [h0] at h
  omega

theorem dropWhile_length_le (p : Char → Bool) (cs : List Char) :
    (cs.dropWhile p).length ≤ cs.length := (List.dropWhile_sublist p).length_le

theorem lexId_length {negated : Bool} {cs rest : List Char} {t : Token}
    (h : lexId negated cs = .ok (t, rest)) : rest.length ≤ cs.length := by
  unfold lexId at h
  simp only [bind, Except.bind, pure, Except.pure, stop] at h
  split at h
  · simp at h
  · split at h
    · simp at h
    · split at h
      · simp only [Except.ok.injEq, Prod.mk.injEq] at h
        rw [← h.2]; exact dropWhile_length_le _ _
      · simp at h

theorem signOf_length (cs : List Char) : (signOf cs).2.length ≤ cs.length := by
  unfold signOf; split <;> simp

theorem lexThreshold_length {negated : Bool} {comparator : String} {cs rest : List Char} {t : Token}
    (h : lexThreshold negated comparator cs = .ok (t, rest)) : rest.length ≤ cs.length := by
  unfold lexThreshold at h
  simp only [bind, Except.bind, pure, Except.pure, stop] at h
  split at h
  · simp at h
  · split at h
    · simp at h
    · split at h
      · simp only [Except.ok.injEq, Prod.mk.injEq] at h
        rw [← h.2]
        exact Nat.le_trans (dropWhile_length_le _ _) (signOf_length _)
      · simp at h

theorem lexScore_length {negated : Bool} {cs rest : List Char} {t : Token}
    (h : lexScore negated cs = .ok (t, rest)) : rest.length ≤ cs.length := by
  unfold lexScore at h
  split at h
  · exact Nat.le_trans (lexThreshold_length h) (dropWhile_length_le _ _)
  · simp [stop] at h

theorem lexSpecial_length {name : String} {negated : Bool} {start cs rest : List Char} {t : Token}
    (h : lexSpecial name negated start cs = .ok (t, rest)) : rest.length ≤ cs.length := by
  unfold lexSpecial at h
  split at h
  · simp only [Except.ok.injEq, Prod.mk.injEq] at h
    rw [← h.2]; exact dropWhile_length_le _ _
  · exact lexId_length h
  · unfold lexUser at h
    simp only [stop] at h
    split at h
    · simp at h
    · simp only [Except.ok.injEq, Prod.mk.injEq] at h
      rw [← h.2]; exact dropWhile_length_le _ _
  · exact lexScore_length h
  · simp [stop] at h

theorem lexUnsigned_length {negated : Bool} {start cs rest : List Char} {t : Token}
    (h : lexUnsigned negated start cs = .ok (t, rest)) : rest.length < cs.length := by
  unfold lexUnsigned at h
  simp only [stop] at h
  split at h
  · simp at h
  · rename_i hname
    have hlt := dropWhile_length_lt isTagChar cs (by simpa using hname)
    split at h
    · rename_i value hrest
      have := lexSpecial_length h
      rw [hrest] at hlt
      simp only [List.length_cons] at hlt
      omega
    · simp only [Except.ok.injEq, Prod.mk.injEq] at h
      rw [← h.2]; exact hlt

theorem lexToken_length {cs rest : List Char} {t : Token} (h : lexToken cs = .ok (t, rest)) :
    rest.length < cs.length := by
  unfold lexToken at h
  split at h
  · split at h
    · have := lexUnsigned_length h
      simp only [List.length_cons]; omega
    · simp [stop] at h
  · exact lexUnsigned_length h

def consLine (line : Line) (lines : List Line) : List Line :=
  if line.isEmpty then lines else line :: lines

/-- The lines of a text. `line` holds the terms of the current line that are already read. -/
def scan (line : Line) (cs : List Char) : Except Stop (List Line) :=
  match cs with
  | [] => .ok (consLine line [])
  | c :: rest =>
    if c = '\n' then (scan [] rest).map (consLine line)
    else if Text.isBlank c then scan line rest
    else
      match _h : lexToken (c :: rest) with
      | .error e => .error e
      | .ok (t, after) =>
        match after.head? with
        | some next =>
          if Text.isBlank next then scan (line ++ [t]) after else stop (.unexpectedAfter next) after
        | none => .ok (consLine (line ++ [t]) [])
termination_by cs.length
decreasing_by
  · simp
  · simp
  · exact lexToken_length _h

def Stop.located (text : List Char) : Stop → LexFailure
  | .integer e => .integer e
  | .problem p left =>
    let before := text.take (text.length - left)
    .malformed ⟨p, before.length, before.count '\n'⟩

def lex (source : String) : Except LexFailure (List Line) :=
  let text := Text.trim source.toList
  (scan [] text).mapError (·.located text)

end Booru.Blacklist
