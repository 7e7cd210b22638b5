import Booru.Blacklist.Lexer
import Booru.Proofs.Blacklist.Folding
import Booru.Proofs.Text.Words

/-! Reading a term does not look beyond white space: a word is read the same way alone and with
anything behind it, and a stop in it lies at the same place of the word. -/

namespace Booru.Blacklist

open Text

/-- The stop with more characters behind. -/
def Stop.behind (more : Nat) : Stop → Stop
  | .problem p left => .problem p (left + more)
  | .integer e => .integer e

def extended (rest : List Char) : Except Stop (Token × List Char) → Except Stop (Token × List Char)
  | .ok (t, after) => .ok (t, after ++ rest)
  | .error e => .error (e.behind rest.length)

/-- A reading leaves an end of the text behind, and stops nowhere before the start of it. -/
structure Inside (cs : List Char) (r : Except Stop (Token × List Char)) : Prop where
  stops : ∀ p left, r = .error (.problem p left) → left ≤ cs.length
  leaves : ∀ t rest, r = .ok (t, rest) → rest <:+ cs

variable {cs rest start : List Char}

theorem isBlank_of_isComparatorChar {c : Char} (h : isComparatorChar c = true) :
    isBlank c = false := by
  simp only [isComparatorChar, Bool.or_eq_true, decide_eq_true_eq] at h
  rcases h with (rfl | rfl) | rfl <;> decide

theorem isTagChar_of_blank (c : Char) (h : isBlank c = true) : isTagChar c = false := by
  rw [Bool.eq_false_iff]
  intro htag
  simp [isBlank_of_isTagChar htag] at h

theorem isDigit_of_blank (c : Char) (h : isBlank c = true) : c.isDigit = false := by
  rw [Bool.eq_false_iff]
  intro hdigit
  simp [isBlank_of_isDigit hdigit] at h

theorem isAlpha_of_blank (c : Char) (h : isBlank c = true) : c.isAlpha = false := by
  rw [Bool.eq_false_iff]
  intro halpha
  simp [isBlank_of_isAlpha halpha] at h

theorem isComparatorChar_of_blank (c : Char) (h : isBlank c = true) :
    isComparatorChar c = false := by
  rw [Bool.eq_false_iff]
  intro hcomp
  simp [isBlank_of_isComparatorChar hcomp] at h

theorem extended_stop (p : Problem) (cs rest : List Char) :
    extended rest (stop p cs) = stop p (cs ++ rest) := by
  simp [extended, stop, Stop.behind]

theorem inside_stop (p : Problem) {here : List Char} (h : here <:+ cs) :
    Inside cs (stop p here) := by
  refine ⟨fun p' left heq => ?_, fun t rest heq => by simp [stop] at heq⟩
  simp only [stop, Except.error.injEq, Stop.problem.injEq] at heq
  rw [← heq.2]
  exact h.length_le

theorem inside_ok {t : Token} {after : List Char} (h : after <:+ cs) :
    Inside cs (.ok (t, after)) := by
  refine ⟨fun p left heq => by simp at heq, fun t' rest heq => ?_⟩
  simp only [Except.ok.injEq, Prod.mk.injEq] at heq
  rwa [← heq.2]

theorem inside_integer (e : IntegerError) : Inside cs (.error (.integer e)) :=
  ⟨fun _ _ h => by simp at h, fun _ _ h => by simp at h⟩

theorem Inside.mono {shorter : List Char} {r : Except Stop (Token × List Char)}
    (h : Inside shorter r)
    (hle : shorter <:+ cs) : Inside cs r :=
  ⟨fun p left heq => Nat.le_trans (h.stops p left heq) hle.length_le,
    fun t rest heq => (h.leaves t rest heq).trans hle⟩

theorem number_ne_problem (digits : List Char) (p : Problem) (left : Nat) :
    number digits ≠ .error (.problem p left) := by
  intro h
  unfold number at h
  cases hread : readInteger (String.ofList digits) with
  | error e =>
    rw [hread] at h
    have hinteger : (.error (.integer e) : Except Stop Int) = .error (.problem p left) := h
    simp at hinteger
  | ok n =>
    rw [hread] at h
    have hok : (.ok n : Except Stop Int) = .error (.problem p left) := h
    simp at hok

theorem lexId_append (negated : Bool) (cs : List Char) (h : EndsHere rest) :
    lexId negated (cs ++ rest) = extended rest (lexId negated cs) := by
  simp only [lexId, takeWhile_append_endsHere cs isDigit_of_blank h,
    dropWhile_append_endsHere cs isDigit_of_blank h, bind, Except.bind, pure, Except.pure]
  split
  · exact (extended_stop ..).symm
  cases hn : number (cs.takeWhile Char.isDigit) with
  | error e => cases e <;> simp_all [extended, Stop.behind, number_ne_problem]
  | ok n =>
    simp only
    split
    · rfl
    · exact (extended_stop ..).symm

theorem inside_lexId (negated : Bool) (cs : List Char) : Inside cs (lexId negated cs) := by
  simp only [lexId, bind, Except.bind, pure, Except.pure]
  split
  · exact inside_stop _ (List.suffix_refl _)
  cases hn : number (cs.takeWhile Char.isDigit) with
  | error e =>
    cases e with
    | problem p left => exact absurd hn (number_ne_problem _ _ _)
    | integer e => exact inside_integer e
  | ok n =>
    simp only
    split
    · exact inside_ok (List.dropWhile_suffix _)
    · exact inside_stop _ (List.suffix_refl _)

theorem lexUser_append (negated : Bool) (cs : List Char) (h : EndsHere rest) :
    lexUser negated (cs ++ rest) = extended rest (lexUser negated cs) := by
  simp only [lexUser, takeWhile_append_endsHere cs isTagChar_of_blank h,
    dropWhile_append_endsHere cs isTagChar_of_blank h]
  split
  · exact (extended_stop ..).symm
  · rfl

theorem inside_lexUser (negated : Bool) (cs : List Char) : Inside cs (lexUser negated cs) := by
  simp only [lexUser]
  split
  · exact inside_stop _ (List.suffix_refl _)
  · exact inside_ok (List.dropWhile_suffix _)

theorem signOf_append (cs : List Char) (h : EndsHere rest) :
    signOf (cs ++ rest) = ((signOf cs).1, (signOf cs).2 ++ rest) := by
  cases cs with
  | nil =>
    cases rest with
    | nil => rfl
    | cons c rest =>
      have hc : c ≠ '-' := by
        rintro rfl
        exact absurd (endsHere_cons.mp h) (by decide)
      simp [signOf, hc]
  | cons c cs =>
    by_cases hc : c = '-'
    · subst hc
      rfl
    · simp [signOf, hc]

theorem signOf_suffix (cs : List Char) : (signOf cs).2 <:+ cs := by
  unfold signOf
  split
  · exact List.suffix_cons _ _
  · exact List.suffix_refl _

theorem lexThreshold_append (negated : Bool) (comparator : String) (cs : List Char)
    (h : EndsHere rest) :
    lexThreshold negated comparator (cs ++ rest) =
      extended rest (lexThreshold negated comparator cs) := by
  simp only [lexThreshold, signOf_append cs h, takeWhile_append_endsHere _ isDigit_of_blank h,
    dropWhile_append_endsHere _ isDigit_of_blank h, bind, Except.bind, pure, Except.pure]
  split
  · exact (extended_stop ..).symm
  cases hn : number ((signOf cs).1 ++ (signOf cs).2.takeWhile Char.isDigit) with
  | error e => cases e <;> simp_all [extended, Stop.behind, number_ne_problem]
  | ok n =>
    simp only
    split
    · rfl
    · exact (extended_stop ..).symm

theorem inside_lexThreshold (negated : Bool) (comparator : String) (cs : List Char) :
    Inside cs (lexThreshold negated comparator cs) := by
  simp only [lexThreshold, bind, Except.bind, pure, Except.pure]
  split
  · exact inside_stop _ (List.suffix_refl _)
  cases hn : number ((signOf cs).1 ++ (signOf cs).2.takeWhile Char.isDigit) with
  | error e =>
    cases e with
    | problem p left => exact absurd hn (number_ne_problem _ _ _)
    | integer e => exact inside_integer e
  | ok n =>
    simp only
    split
    · exact inside_ok ((List.dropWhile_suffix _).trans (signOf_suffix cs))
    · exact inside_stop _ (List.suffix_refl _)

theorem lexScore_append (negated : Bool) (cs : List Char) (h : EndsHere rest) :
    lexScore negated (cs ++ rest) = extended rest (lexScore negated cs) := by
  have hcomp : comparatorOf (cs ++ rest) = comparatorOf cs := by
    simp only [comparatorOf, takeWhile_append_endsHere cs isComparatorChar_of_blank h]
  simp only [lexScore, hcomp, dropWhile_append_endsHere cs isComparatorChar_of_blank h]
  split
  · exact lexThreshold_append _ _ _ h
  · exact (extended_stop ..).symm

theorem inside_lexScore (negated : Bool) (cs : List Char) : Inside cs (lexScore negated cs) := by
  unfold lexScore
  split
  · exact (inside_lexThreshold _ _ _).mono (List.dropWhile_suffix _)
  · exact inside_stop _ (List.suffix_refl _)

theorem lexSpecial_append (name : String) (negated : Bool) (start cs : List Char)
    (h : EndsHere rest) :
    lexSpecial name negated (start ++ rest) (cs ++ rest) =
      extended rest (lexSpecial name negated start cs) := by
  unfold lexSpecial
  split
  · simp only [takeWhile_append_endsHere cs isAlpha_of_blank h,
      dropWhile_append_endsHere cs isAlpha_of_blank h, extended]
  · exact lexId_append _ _ h
  · exact lexUser_append _ _ h
  · exact lexScore_append _ _ h
  · exact (extended_stop ..).symm

theorem inside_lexSpecial (name : String) (negated : Bool) (start cs : List Char)
    (hle : cs <:+ start) : Inside start (lexSpecial name negated start cs) := by
  unfold lexSpecial
  split
  · exact inside_ok ((List.dropWhile_suffix _).trans hle)
  · exact (inside_lexId _ _).mono hle
  · exact (inside_lexUser _ _).mono hle
  · exact (inside_lexScore _ _).mono hle
  · exact inside_stop _ (List.suffix_refl _)

theorem lexUnsigned_append (negated : Bool) (start : List Char) (hne : cs ≠ [])
    (h : EndsHere rest) :
    lexUnsigned negated (start ++ rest) (cs ++ rest) =
      extended rest (lexUnsigned negated start cs) := by
  have htake : (cs ++ rest).take 1 = cs.take 1 := by
    cases cs with
    | nil => exact absurd rfl hne
    | cons c cs => rfl
  simp only [lexUnsigned, takeWhile_append_endsHere cs isTagChar_of_blank h,
    dropWhile_append_endsHere cs isTagChar_of_blank h, htake]
  split
  · exact (extended_stop ..).symm
  -- what stands behind the name decides; if nothing does, it is white space or the end
  cases hdrop : cs.dropWhile isTagChar with
  | nil =>
    cases rest with
    | nil => rfl
    | cons c rest =>
      have hc : c ≠ ':' := by
        rintro rfl
        exact absurd (endsHere_cons.mp h) (by decide)
      simp [extended, hc]
  | cons c value =>
    by_cases hc : c = ':'
    · subst hc
      exact lexSpecial_append _ _ _ _ h
    · simp [extended, hc]

theorem inside_lexUnsigned (negated : Bool) (start cs : List Char) (hle : cs <:+ start) :
    Inside start (lexUnsigned negated start cs) := by
  have hdrop : cs.dropWhile isTagChar <:+ start := (List.dropWhile_suffix _).trans hle
  simp only [lexUnsigned]
  split
  · exact inside_stop _ hle
  split
  · rename_i value hvalue
    rw [hvalue] at hdrop
    exact inside_lexSpecial _ _ _ _ ((List.suffix_cons _ _).trans hdrop)
  · exact inside_ok hdrop

theorem lexToken_append (hne : cs ≠ []) (h : EndsHere rest) :
    lexToken (cs ++ rest) = extended rest (lexToken cs) := by
  cases cs with
  | nil => exact absurd rfl hne
  | cons c cs =>
    by_cases hc : c = '-'
    · subst hc
      have hhead : (cs ++ rest).head?.any isTagChar = cs.head?.any isTagChar := by
        cases cs with
        | nil =>
          cases rest with
          | nil => rfl
          | cons c rest => simp [isTagChar_of_blank c (endsHere_cons.mp h)]
        | cons a cs => rfl
      simp only [lexToken, List.cons_append, hhead]
      split
      · rename_i htag
        have hcs : cs ≠ [] := by
          rintro rfl
          simp at htag
        exact lexUnsigned_append true ('-' :: cs) hcs h
      · exact (extended_stop _ ('-' :: cs) rest).symm
    · have hrule : ∀ cs, lexToken (c :: cs) = lexUnsigned false (c :: cs) (c :: cs) := by
        intro cs
        simp [lexToken, hc]
      rw [List.cons_append, hrule, hrule]
      exact @lexUnsigned_append (c :: cs) rest false (c :: cs) (by simp) h

theorem inside_lexToken (cs : List Char) : Inside cs (lexToken cs) := by
  unfold lexToken
  split
  · split
    · exact inside_lexUnsigned _ _ _ (List.suffix_cons _ _)
    · exact inside_stop _ (List.suffix_refl _)
  · exact inside_lexUnsigned _ _ _ (List.suffix_refl _)

end Booru.Blacklist
