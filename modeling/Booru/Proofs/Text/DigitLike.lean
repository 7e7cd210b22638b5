import Booru.Proofs.Blacklist.Folding
import Mathlib.Data.List.TakeWhile

/-! Texts of digits of any script behind minus signs, and whether they are read as integers. -/

namespace Booru.Text

def isDecimal (c : Char) : Bool := (digitValue? c).isSome

variable {ds : List Char}

theorem exists_zeroDigit {c : Char} (h : isDecimal c = true) :
    ∃ z ∈ zeroDigits, z ≤ c.toNat ∧ c.toNat < z + 10 := by
  rw [isDecimal, digitValue?, Option.isSome_map, List.find?_isSome] at h
  obtain ⟨z, hz, hin⟩ := h
  simp only [Bool.and_eq_true, decide_eq_true_eq] at hin
  exact ⟨z, hz, hin⟩

def digitRanges : Ranges := zeroDigits.map (fun z => (z, z + 9)) ++ digitLikeRanges

theorem covers_digitRanges {c : Char} (h : isDigitLike c = true) :
    digitRanges.covers c.toNat = true := by
  rw [isDigitLike, Bool.or_eq_true] at h
  rcases h with hdecimal | hother
  · obtain ⟨z, hz, hlo, hhi⟩ := exists_zeroDigit hdecimal
    exact (Ranges.covers_iff _ _).mpr ⟨(z, z + 9), by simp [digitRanges, hz], hlo, by omega⟩
  · obtain ⟨r, hr, hin⟩ := (Ranges.covers_iff _ _).mp hother
    exact (Ranges.covers_iff _ _).mpr ⟨r, List.mem_append_right _ hr, hin⟩

theorem digitRanges_unblank : (digitRanges.all fun r => blankRanges.misses r.1 r.2) = true := by
  decide

theorem isBlank_of_isDigitLike {c : Char} (h : isDigitLike c = true) : isBlank c = false := by
  obtain ⟨r, hr, hlo, hhi⟩ := (Ranges.covers_iff _ _).mp (covers_digitRanges h)
  exact isBlank_of_misses (List.all_eq_true.mp digitRanges_unblank r hr) hlo hhi

theorem isDigitLike_of_isDecimal {c : Char} (h : isDecimal c = true) : isDigitLike c = true :=
  (Bool.or_eq_true _ _).mpr (.inl h)

theorem ne_of_isDigitLike {c : Char} (h : isDigitLike c = true) : c ≠ '-' ∧ c ≠ '+' ∧ c ≠ '_' := by
  refine ⟨?_, ?_, ?_⟩
  all_goals
    rintro rfl
    revert h
    decide

theorem leadingDigits_of_isDigitLike (hds : ∀ c ∈ ds, isDigitLike c = true) (b : Bool) :
    leadingDigits b ds =
      some ((ds.takeWhile isDecimal).filterMap digitValue?, ds.dropWhile isDecimal) := by
  induction ds generalizing b with
  | nil => rfl
  | cons d ds ih =>
    have htail := ih (fun c hc => hds c (List.mem_cons_of_mem _ hc)) true
    cases hd : digitValue? d with
    | some n => simp [leadingDigits, hd, isDecimal, htail]
    | none =>
      have hmark := (ne_of_isDigitLike (hds d (by simp))).2.2
      simp [leadingDigits, hd, isDecimal, hmark]

theorem length_filterMap_digitValue (hds : ∀ c ∈ ds, isDecimal c = true) :
    (ds.filterMap digitValue?).length = ds.length := by
  induction ds with
  | nil => rfl
  | cons d ds ih =>
    obtain ⟨n, hn⟩ := Option.isSome_iff_exists.mp (hds d (by simp))
    rw [List.filterMap_cons_some hn, List.length_cons, List.length_cons,
      ih fun c hc => hds c (List.mem_cons_of_mem _ hc)]

def minusSigns (cs : List Char) : Nat := (cs.takeWhile (· == '-')).length

def behindMinus (cs : List Char) : List Char := cs.dropWhile (· == '-')

/-- An integer as it is read: behind one minus sign or none, digits that decimal numerals have, and
not too many of them. -/
structure IsInteger (cs : List Char) : Prop where
  signs : minusSigns cs ≤ 1
  nonempty : behindMinus cs ≠ []
  decimal : ∀ c ∈ behindMinus cs, isDecimal c = true
  short : (behindMinus cs).length ≤ maxDigits

def integerValue (cs : List Char) : Int :=
  let n : Int := valueOf ((behindMinus cs).filterMap digitValue?)
  if minusSigns cs = 0 then n else -n

instance (cs : List Char) : Decidable (IsInteger cs) :=
  decidable_of_iff (minusSigns cs ≤ 1 ∧ behindMinus cs ≠ [] ∧
      (behindMinus cs).all isDecimal = true ∧ (behindMinus cs).length ≤ maxDigits)
    ⟨fun ⟨h₁, h₂, h₃, h₄⟩ => ⟨h₁, h₂, List.all_eq_true.mp h₃, h₄⟩,
      fun h => ⟨h.signs, h.nonempty, List.all_eq_true.mpr h.decimal, h.short⟩⟩

theorem replicate_minusSigns (cs : List Char) :
    cs = List.replicate (minusSigns cs) '-' ++ behindMinus cs := by
  have hrun : cs.takeWhile (· == '-') = List.replicate (minusSigns cs) '-' :=
    List.eq_replicate_iff.mpr ⟨rfl, fun c hc => by simpa using List.mem_takeWhile_imp hc⟩
  rw [← hrun, behindMinus, List.takeWhile_append_dropWhile]

variable {cs : List Char}

theorem signAndRest_behindMinus (hne : behindMinus cs ≠ [])
    (hlike : ∀ c ∈ behindMinus cs, isDigitLike c = true) (hsigns : minusSigns cs ≤ 1) :
    signAndRest cs = (decide (minusSigns cs ≠ 0), behindMinus cs) := by
  have hsplit := replicate_minusSigns cs
  obtain ⟨d, ds, hds⟩ := List.exists_cons_of_ne_nil hne
  obtain ⟨hminus, hplus, -⟩ := ne_of_isDigitLike (hlike d (by simp [hds]))
  rw [hds] at hsplit ⊢
  have hcases : minusSigns cs = 0 ∨ minusSigns cs = 1 := by omega
  rcases hcases with hzero | hone
  · rw [hzero] at hsplit ⊢
    rw [hsplit]
    simp [signAndRest, hminus, hplus]
  · rw [hone] at hsplit ⊢
    rw [hsplit]
    rfl

theorem signAndRest_twoMinus (hsigns : 1 < minusSigns cs) :
    ∃ rest, signAndRest cs = (true, '-' :: rest) := by
  obtain ⟨n, hn⟩ : ∃ n, minusSigns cs = n + 2 := ⟨minusSigns cs - 2, by omega⟩
  have hsplit := replicate_minusSigns cs
  rw [hn, List.replicate_succ, List.replicate_succ] at hsplit
  exact ⟨_, congrArg signAndRest hsplit⟩

def leadingRun (cs : List Char) : List Char := (behindMinus cs).takeWhile isDecimal

/-- How a text of digits fails that is no integer: by the number of its digits, where
that comes to be counted. -/
def integerFault (cs : List Char) : IntegerError :=
  if minusSigns cs ≤ 1 ∧ maxDigits < (leadingRun cs).length then .tooLong (leadingRun cs).length
  else .malformed (String.ofList cs)

theorem leadingRun_eq_self (h : ∀ c ∈ behindMinus cs, isDecimal c = true) :
    leadingRun cs = behindMinus cs := List.takeWhile_eq_self_iff.mpr h

theorem unpadded_digits (hlike : ∀ c ∈ behindMinus cs, isDigitLike c = true) :
    dropEndWhile isPadding (cs.dropWhile isPadding) = cs := by
  refine unpadded fun c hc => ?_
  rw [replicate_minusSigns cs] at hc
  rcases List.mem_append.mp hc with hsign | hdigit
  · rw [List.eq_of_mem_replicate hsign]
    decide
  · exact isBlank_of_isDigitLike (hlike c hdigit)

theorem length_leadingDigits : ((leadingRun cs).filterMap digitValue?).length =
    (leadingRun cs).length :=
  length_filterMap_digitValue fun _ => List.mem_takeWhile_imp

theorem readInteger_digits_like (hne : behindMinus cs ≠ [])
    (hlike : ∀ c ∈ behindMinus cs, isDigitLike c = true) :
    readInteger (String.ofList cs) =
      if IsInteger cs then .ok (integerValue cs) else .error (integerFault cs) := by
  simp only [readInteger, String.toList_ofList, unpadded_digits hlike]
  by_cases hsigns : minusSigns cs ≤ 1
  · rw [signAndRest_behindMinus hne hlike hsigns]
    simp only [leadingDigits_of_isDigitLike hlike]
    rw [← leadingRun, length_leadingDigits]
    by_cases hlong : maxDigits < (leadingRun cs).length
    · have hno : ¬ IsInteger cs := fun h => by
        have hshort := h.short
        rw [← leadingRun_eq_self h.decimal] at hshort
        omega
      rw [if_pos hlong, if_neg hno, integerFault, if_pos ⟨hsigns, hlong⟩]
    rw [if_neg hlong]
    by_cases hdecimal : ∀ c ∈ behindMinus cs, isDecimal c = true
    · have hrun := leadingRun_eq_self hdecimal
      have hrest : (behindMinus cs).dropWhile isDecimal = [] :=
        List.dropWhile_eq_nil_iff.mpr hdecimal
      rw [hrun] at hlong ⊢
      have hinteger : IsInteger cs := ⟨hsigns, hne, hdecimal, by omega⟩
      have hvalues : (behindMinus cs).filterMap digitValue? ≠ [] := by
        rw [← List.length_pos_iff, length_filterMap_digitValue hdecimal]
        exact List.length_pos_iff.mpr hne
      rw [if_pos hinteger, hrest, if_neg (by simpa using hvalues), integerValue]
      by_cases hzero : minusSigns cs = 0
      · simp [hzero]
      · simp [hzero]
    · have hno : ¬ IsInteger cs := fun h => hdecimal h.decimal
      have hrest : (behindMinus cs).dropWhile isDecimal ≠ [] :=
        fun h => hdecimal (List.dropWhile_eq_nil_iff.mp h)
      rw [if_neg hno, if_pos (by simp [hrest]), integerFault, if_neg fun h => hlong h.2]
  · obtain ⟨rest, hrest⟩ := signAndRest_twoMinus (not_le.mp hsigns)
    have hno : ¬ IsInteger cs := fun h => hsigns h.signs
    have hnone : leadingDigits false ('-' :: rest) = some ([], '-' :: rest) := rfl
    rw [hrest, if_neg hno, integerFault, if_neg fun h => hsigns h.1]
    simp [hnone]

end Booru.Text
