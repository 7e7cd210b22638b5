import Booru.Proofs.Blacklist.Locality
import Mathlib.Data.List.TakeWhile

/-! The words of a blacklist: what a word has to look like to be a term, and which term it is, said
without reference to a scan. The lexer reads a word alone as just this term. It goes wrong in one
way that the form of a word does not explain: a number with too many digits is refused whatever its
value. -/

namespace Booru.Blacklist

open Text

structure IsName (cs : List Char) : Prop where
  nonempty : cs ≠ []
  tags : ∀ c ∈ cs, isTagChar c = true

structure IsFolded (name : String) : Prop where
  isName : IsName name.toList
  fold : foldName name = name

structure IsNumeral (cs : List Char) : Prop where
  nonempty : cs ≠ []
  digits : ∀ c ∈ cs, c.isDigit = true

def signMark (minus : Bool) : List Char := if minus then ['-'] else []

def signedValue (minus : Bool) (digits : List Char) : Int :=
  if minus then -(Nat.ofDigitChars 10 digits 0 : Int) else Nat.ofDigitChars 10 digits 0

/-- A comparator as it is written: one of the five, or nothing for equality. -/
inductive Comparator : List Char → String → Prop
  | equality : Comparator [] "="
  | written {cs : List Char} : String.ofList cs ∈ comparators → Comparator cs (String.ofList cs)

/-- A term without its negation mark. -/
inductive Atom (negated : Bool) : List Char → Token → Prop
  | tag {name : List Char} : IsName name →
      Atom negated name (.ofTag (foldName (String.ofList name)) negated)
  | rating {name value : List Char} : IsName name → foldName (String.ofList name) = "rating" →
      (∀ c ∈ value, c.isAlpha = true) →
      Atom negated (name ++ ':' :: value) (.ofRating (String.ofList value) negated)
  | id {name digits : List Char} : IsName name → foldName (String.ofList name) = "id" →
      IsNumeral digits → Nat.ofDigitChars 10 digits 0 < 0x8000000000000000 →
      Atom negated (name ++ ':' :: digits) (.ofId (Nat.ofDigitChars 10 digits 0) negated)
  | user {name value : List Char} : IsName name → foldName (String.ofList name) = "user" →
      IsName value → Atom negated (name ++ ':' :: value)
        (.ofUser (foldName (String.ofList value)) negated)
  | score {name mark digits : List Char} {comparator : String} {minus : Bool} : IsName name →
      foldName (String.ofList name) = "score" → Comparator mark comparator → IsNumeral digits →
      -0x8000000000000000 ≤ signedValue minus digits →
      signedValue minus digits < 0x8000000000000000 →
      Atom negated (name ++ ':' :: (mark ++ (signMark minus ++ digits)))
        (.scoreOf comparator (signedValue minus digits) negated)

/-- The term that a word spells. A minus sign in front is always the negation mark. -/
inductive Spells : List Char → Token → Prop
  | positive {w : List Char} {t : Token} : w.head? ≠ some '-' → Atom false w t → Spells w t
  | negative {w : List Char} {t : Token} : Atom true w t → Spells ('-' :: w) t

/-- A number with more digits than are ever read, where the value of a term is expected, and how
many. What stands behind the digits does not matter. -/
inductive LongAtom : List Char → Nat → Prop
  | id {name digits rest : List Char} : IsName name → foldName (String.ofList name) = "id" →
      (∀ c ∈ digits, c.isDigit = true) → maxDigits < digits.length →
      (∀ c ∈ rest.head?, c.isDigit = false) →
      LongAtom (name ++ ':' :: (digits ++ rest)) digits.length
  | score {name mark digits rest : List Char} {comparator : String} {minus : Bool} : IsName name →
      foldName (String.ofList name) = "score" → Comparator mark comparator →
      (∀ c ∈ digits, c.isDigit = true) → maxDigits < digits.length →
      (∀ c ∈ rest.head?, c.isDigit = false) →
      LongAtom (name ++ ':' :: (mark ++ (signMark minus ++ (digits ++ rest)))) digits.length

inductive Overlong : List Char → Nat → Prop
  | positive {w : List Char} {n : Nat} : w.head? ≠ some '-' → LongAtom w n → Overlong w n
  | negative {w : List Char} {n : Nat} : LongAtom w n → Overlong ('-' :: w) n

def wordToken (w : List Char) : Except Stop Token :=
  match lexToken w with
  | .error e => .error e
  | .ok (t, []) => .ok t
  | .ok (_, c :: after) => stop (.unexpectedAfter c) (c :: after)

/-! ### Runs of characters -/

variable {p : Char → Bool} {run rest : List Char}

theorem takeWhile_run (hrun : ∀ c ∈ run, p c = true) (hrest : ∀ c ∈ rest.head?, p c = false) :
    (run ++ rest).takeWhile p = run := by
  rw [List.takeWhile_append_of_pos hrun]
  cases rest with
  | nil => simp
  | cons c rest => simp [hrest c rfl]

theorem dropWhile_run (hrun : ∀ c ∈ run, p c = true) (hrest : ∀ c ∈ rest.head?, p c = false) :
    (run ++ rest).dropWhile p = rest := by
  rw [List.dropWhile_append_of_pos hrun, dropWhile_eq_self hrest]

theorem head_dropWhile {cs : List Char} {c : Char} (h : c ∈ (cs.dropWhile p).head?) :
    p c = false := by
  have hnot := List.head?_dropWhile_not p cs
  rw [Option.mem_def.mp h] at hnot
  simpa using hnot

theorem exists_run (p : Char → Bool) (cs : List Char) :
    ∃ run rest, cs = run ++ rest ∧ (∀ c ∈ run, p c = true) ∧ ∀ c ∈ rest.head?, p c = false :=
  ⟨cs.takeWhile p, cs.dropWhile p, (List.takeWhile_append_dropWhile).symm,
    fun _ => List.mem_takeWhile_imp, fun _ => head_dropWhile⟩

theorem isEmpty_eq_false {cs : List Char} (h : cs ≠ []) : cs.isEmpty = false := by
  simpa using h

/-! ### Numbers -/

theorem fitsWord_iff {n : Int} :
    fitsWord n = true ↔ -0x8000000000000000 ≤ n ∧ n < 0x8000000000000000 := by
  simp only [fitsWord, Bool.and_eq_true, decide_eq_true_eq]

theorem number_signed {digits : List Char} (h : IsNumeral digits) (minus : Bool) :
    number (signMark minus ++ digits) = if maxDigits < digits.length then
      .error (.integer (.tooLong digits.length)) else .ok (signedValue minus digits) := by
  unfold number
  cases minus with
  | false =>
    simp only [signMark, Bool.false_eq_true, if_false, List.nil_append, signedValue]
    rw [readInteger_digits h.nonempty h.digits]
    split <;> rfl
  | true =>
    simp only [signMark, if_true, List.singleton_append, signedValue]
    rw [readInteger_minus h.nonempty h.digits]
    split <;> rfl

theorem signOf_eq (cs : List Char) : ∃ minus, (signOf cs).1 = signMark minus ∧
    cs = signMark minus ++ (signOf cs).2 := by
  unfold signOf
  split
  · exact ⟨true, rfl, rfl⟩
  · exact ⟨false, rfl, rfl⟩

theorem signOf_signMark (minus : Bool) {cs : List Char} (h : cs.head? ≠ some '-') :
    signOf (signMark minus ++ cs) = (signMark minus, cs) := by
  cases minus with
  | true => rfl
  | false =>
    cases cs with
    | nil => rfl
    | cons c cs =>
      have hc : c ≠ '-' := by simpa using h
      simp [signMark, signOf, hc]

theorem IsNumeral.head_ne {digits rest : List Char} {c : Char} (h : IsNumeral digits)
    (hc : c.isDigit = false) : (digits ++ rest).head? ≠ some c := by
  cases digits with
  | nil => exact absurd rfl h.nonempty
  | cons d ds =>
    have hd := h.digits d (by simp)
    simp only [List.cons_append, List.head?_cons, ne_eq, Option.some.injEq]
    rintro rfl
    simp [hc] at hd

theorem isDigit_comparator {c : Char} (h : isComparatorChar c = true) : c.isDigit = false := by
  simp only [isComparatorChar, Bool.or_eq_true, decide_eq_true_eq] at h
  rcases h with (rfl | rfl) | rfl <;> decide

theorem Comparator.chars {mark : List Char} {comparator : String} (h : Comparator mark comparator) :
    ∀ c ∈ mark, isComparatorChar c = true := by
  cases h with
  | equality => simp
  | written hmem =>
    have hlist : (comparators.all fun s => s.toList.all isComparatorChar) = true := by decide
    have hmark := List.all_eq_true.mp (List.all_eq_true.mp hlist _ hmem)
    rwa [String.toList_ofList] at hmark

theorem Comparator.mem {mark : List Char} {comparator : String} (h : Comparator mark comparator) :
    comparators.contains comparator = true := by
  cases h with
  | equality => decide
  | written hmem => simpa using hmem

theorem comparatorOf_eq {mark rest : List Char} {comparator : String}
    (h : Comparator mark comparator)
    (hrest : ∀ c ∈ rest.head?, isComparatorChar c = false) :
    comparatorOf (mark ++ rest) = comparator ∧
    (mark ++ rest).dropWhile isComparatorChar = rest := by
  refine ⟨?_, dropWhile_run h.chars hrest⟩
  simp only [comparatorOf, takeWhile_run h.chars hrest]
  cases h with
  | equality => rfl
  | written hmem =>
    split
    · rename_i hempty
      simp only [List.isEmpty_iff] at hempty
      subst hempty
      exact absurd hmem (by decide)
    · rfl

theorem exists_comparator (cs : List Char) (h : comparators.contains (comparatorOf cs) = true) :
    ∃ mark, Comparator mark (comparatorOf cs) ∧ cs = mark ++ cs.dropWhile isComparatorChar := by
  refine ⟨cs.takeWhile isComparatorChar, ?_, (List.takeWhile_append_dropWhile).symm⟩
  simp only [comparatorOf] at h ⊢
  split
  · rename_i hempty
    rw [List.isEmpty_iff.mp hempty]
    exact .equality
  · rename_i hfull
    simp only [hfull] at h
    exact .written (by simpa using h)

/-! ### Words -/

theorem isFolded_kind (kind : TokenKind) : IsFolded kind.name := by
  have htags : kind.name.toList.all isTagChar = true := by cases kind <;> decide
  refine ⟨⟨?_, List.all_eq_true.mp htags⟩, ?_⟩
  · cases kind <;> decide
  · cases kind <;> decide

theorem fold_kind (kind : TokenKind) : foldName (String.ofList kind.name.toList) = kind.name := by
  rw [String.ofList_toList, (isFolded_kind kind).fold]

theorem IsName.isWord (h : IsName name) : IsWord name :=
  ⟨h.nonempty, fun c hc => isBlank_of_isTagChar (h.tags c hc)⟩

theorem IsName.isWord_special {value : List Char} (h : IsName name)
    (hvalue : ∀ c ∈ value, isBlank c = false) :
    IsWord (name ++ ':' :: value) := by
  refine ⟨by simp, fun c hc => ?_⟩
  rcases List.mem_append.mp hc with hname | hrest
  · exact h.isWord.unbroken c hname
  · rcases List.mem_cons.mp hrest with rfl | hmem
    · decide
    · exact hvalue c hmem

theorem Atom.isWord (h : Atom negated w t) : IsWord w := by
  cases h with
  | tag hname => exact hname.isWord
  | rating hname hfold hvalue =>
    exact hname.isWord_special fun c hc => isBlank_of_isAlpha (hvalue c hc)
  | id hname hfold hdigits hle =>
    exact hname.isWord_special fun c hc => isBlank_of_isDigit (hdigits.digits c hc)
  | user hname hfold hvalue => exact hname.isWord_special hvalue.isWord.unbroken
  | @score name mark digits comparator minus hname hfold hmark hdigits hlow hhigh =>
    refine hname.isWord_special fun c hc => ?_
    rcases List.mem_append.mp hc with hcomp | hsigned
    · exact isBlank_of_isComparatorChar (hmark.chars c hcomp)
    rcases List.mem_append.mp hsigned with hsign | hdigit
    · cases minus with
      | true =>
        rw [List.mem_singleton.mp hsign]
        decide
      | false => simp [signMark] at hsign
    · exact isBlank_of_isDigit (hdigits.digits c hdigit)

theorem Spells.isWord (h : Spells w t) : IsWord w := by
  cases h with
  | positive hsign hatom => exact hatom.isWord
  | negative hatom => exact .cons (by decide) hatom.isWord.unbroken

end Booru.Blacklist
