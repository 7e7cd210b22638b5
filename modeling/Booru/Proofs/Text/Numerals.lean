import Mathlib.Algebra.Group.Nat.Defs
import Booru.Proofs.Text.Words
import Booru.Text.Integer

/-! Integers written with ASCII digits: what reading a run of digits gives, with and without a minus
sign. -/

namespace Booru.Text

theorem toNat_of_isDigit {c : Char} (h : c.isDigit = true) : 48 ≤ c.toNat ∧ c.toNat ≤ 57 := by
  simp only [Char.isDigit, Bool.and_eq_true, decide_eq_true_eq] at h
  exact h

theorem isBlank_of_isDigit {c : Char} (h : c.isDigit = true) : isBlank c = false := by
  obtain ⟨hlo, hhi⟩ := toNat_of_isDigit h
  simp [isBlank]
  omega

theorem digitValue_of_isDigit {c : Char} (h : c.isDigit = true) :
    digitValue? c = some (c.toNat - 48) := by
  obtain ⟨hlo, hhi⟩ := toNat_of_isDigit h
  have hfirst : (decide (0x30 ≤ c.toNat) && decide (c.toNat < 0x30 + 10)) = true := by
    simp only [Bool.and_eq_true, decide_eq_true_eq]
    omega
  simp only [digitValue?, zeroDigits, List.find?, hfirst, Option.map_some]

theorem head?_toDigits {n : Nat} (hn : 0 < n) : (Nat.toDigits 10 n).head? ≠ some '0' := by
  induction n using Nat.strongRecOn with
  | _ n ih =>
    rw [Nat.toDigits_eq_if (by decide)]
    split
    · rename_i hlt
      have hdigits : ∀ d < 10, 0 < d → [Nat.digitChar d].head? ≠ some '0' := by decide
      exact hdigits n hlt hn
    · rename_i hge
      have hfirst := ih (n / 10) (by omega) (by omega)
      obtain ⟨d, ds, hds⟩ := List.exists_cons_of_ne_nil
        (Nat.toDigits_ne_nil (n := n / 10) (b := 10))
      rw [hds] at hfirst ⊢
      exact hfirst

theorem toList_toString (n : Int) :
    (toString n).toList = (if n < 0 then ['-'] else []) ++ Nat.toDigits 10 n.natAbs := by
  rw [Int.toString_eq_repr, Int.repr_eq_if]
  by_cases hneg : n < 0
  · have habs : (-n).toNat = n.natAbs := by omega
    rw [if_neg (by omega), String.toList_append, Nat.toList_repr, habs]
    simp [hneg]
  · have habs : n.toNat = n.natAbs := by omega
    rw [if_pos (by omega), Nat.toList_repr, habs]
    simp [hneg]

theorem isLong_iff {n : Int} : isLong n = true ↔ 10 ^ maxDigits ≤ n.natAbs := by
  rw [isLong, decide_eq_true_eq, ← Nat.not_le, Nat.length_toDigits_le_iff (by decide) (by decide),
    Nat.not_lt]

theorem toString_injective : Function.Injective (toString : Int → String) := by
  have hdigits {k : Nat} : '-' ∉ Nat.toDigits 10 k := fun h =>
    absurd (Nat.isDigit_of_mem_toDigits (by decide) (by decide) h) (by decide)
  intro m n h
  have hlists := congrArg String.toList h
  rw [toList_toString, toList_toString] at hlists
  have hvalue (hsame : Nat.toDigits 10 m.natAbs = Nat.toDigits 10 n.natAbs) :
      m.natAbs = n.natAbs := by
    rw [← Nat.ofDigitChars_ten_toDigits (n := m.natAbs), hsame, Nat.ofDigitChars_ten_toDigits]
  by_cases hm : m < 0 <;> by_cases hn : n < 0 <;>
    simp only [hm, hn, if_true, if_false, List.singleton_append, List.nil_append,
      List.cons.injEq, true_and]
      at hlists
  · have := hvalue hlists
    omega
  · exact absurd (hlists ▸ List.mem_cons_self) hdigits
  · exact absurd (hlists ▸ List.mem_cons_self) hdigits
  · have := hvalue hlists
    omega

variable {ds : List Char}

theorem leadingDigits_of_digits (hds : ∀ c ∈ ds, c.isDigit = true) (b : Bool) :
    leadingDigits b ds = some (ds.map (·.toNat - 48), []) := by
  induction ds generalizing b with
  | nil => rfl
  | cons d ds ih =>
    have htail := ih (fun c hc => hds c (List.mem_cons_of_mem _ hc)) true
    simp only [leadingDigits, digitValue_of_isDigit (hds d (by simp)), htail, Option.map_some,
      List.map_cons]

theorem valueOf_digits (ds : List Char) :
    valueOf (ds.map (·.toNat - 48)) = Nat.ofDigitChars 10 ds 0 := by
  rw [valueOf, List.foldl_map, Nat.ofDigitChars_eq_foldl]
  rfl

theorem unpadded {cs : List Char} (h : ∀ c ∈ cs, isBlank c = false) :
    dropEndWhile isPadding (cs.dropWhile isPadding) = cs := by
  have hpad : ∀ c ∈ cs, isPadding c = false := fun c hc => by simp [isPadding, h c hc]
  rw [dropWhile_eq_self fun c hc => hpad c (List.mem_of_mem_head? hc),
    dropEndWhile_eq_self fun c hc => hpad c (List.mem_of_getLast? hc)]

theorem readInteger_digits (hne : ds ≠ []) (hds : ∀ c ∈ ds, c.isDigit = true) :
    readInteger (String.ofList ds) =
      if maxDigits < ds.length then .error (.tooLong ds.length)
        else .ok (Nat.ofDigitChars 10 ds 0) := by
  have hsign : signAndRest ds = (false, ds) := by
    cases ds with
    | nil => rfl
    | cons d ds =>
      have hd := toNat_of_isDigit (hds d (by simp))
      unfold signAndRest
      split
      · simp_all
      · simp_all
      · rfl
  have hbody := unpadded fun c hc => isBlank_of_isDigit (hds c hc)
  simp only [readInteger, String.toList_ofList, hbody, hsign, leadingDigits_of_digits hds,
    List.length_map, valueOf_digits, List.isEmpty_map]
  simp [hne]

theorem readInteger_minus (hne : ds ≠ []) (hds : ∀ c ∈ ds, c.isDigit = true) :
    readInteger (String.ofList ('-' :: ds)) =
      if maxDigits < ds.length then .error (.tooLong ds.length)
      else .ok (-(Nat.ofDigitChars 10 ds 0 : Int)) := by
  have hbody : dropEndWhile isPadding (('-' :: ds).dropWhile isPadding) = '-' :: ds := by
    refine unpadded fun c hc => ?_
    rcases List.mem_cons.mp hc with rfl | hd
    · decide
    · exact isBlank_of_isDigit (hds c hd)
  simp only [readInteger, String.toList_ofList, hbody, signAndRest, leadingDigits_of_digits hds,
    List.length_map, valueOf_digits, List.isEmpty_map]
  simp [hne]

theorem readInteger_toString (n : Int) : readInteger (toString n) =
    if maxDigits < (Nat.toDigits 10 n.natAbs).length
      then .error (.tooLong (Nat.toDigits 10 n.natAbs).length)
    else .ok n := by
  have hdigits : ∀ c ∈ Nat.toDigits 10 n.natAbs, c.isDigit = true := fun c hc =>
    Nat.isDigit_of_mem_toDigits (by decide) (by decide) hc
  rw [← String.ofList_toList (s := toString n), toList_toString]
  by_cases hneg : n < 0
  · have hvalue : -(n.natAbs : Int) = n := by omega
    rw [if_pos hneg]
    change readInteger (String.ofList ('-' :: Nat.toDigits 10 n.natAbs)) = _
    rw [readInteger_minus Nat.toDigits_ne_nil hdigits, Nat.ofDigitChars_ten_toDigits, hvalue]
  · have hvalue : (n.natAbs : Int) = n := by omega
    rw [if_neg hneg, List.nil_append, readInteger_digits Nat.toDigits_ne_nil hdigits,
      Nat.ofDigitChars_ten_toDigits, hvalue]

end Booru.Text
