import Mathlib.Tactic.Linarith
import Mathlib.Tactic.Ring
import Booru.Proofs.Decimal.Packing

/-! The rounding of a quotient to a double. What is shifted out of a significand is kept in
two bits, and these are enough to round to the nearest, so a quotient that is nearer to a
double than to its neighbours, or half way to one of them and the double is the even one, is
rounded to that double. -/

namespace Booru.Decimal

open Float.Model Float.Model.UnpackedFloat

variable {n d k m : Nat} {e : Int} {v : Dyadic}

/-! ### A quotient cut off at a bit -/

/-- The whole part of a quotient, whether the rest reaches a half, and whether it is
neither nothing nor a half. -/
def cutOff (n d : Nat) : ExtendedMantissa :=
  ⟨n / d, decide (d ≤ 2 * (n % d)), decide (n % d ≠ 0 ∧ 2 * (n % d) ≠ d)⟩

theorem accuracyOfFraction_eq (num den : Nat) :
    accuracyOfFraction num den = if num = 0 then .exact else .inexact (compare (2 * num) den) :=
  rfl

theorem ofMantissaAndAccuracy_fraction (hd : 0 < d) (n : Nat) :
    ExtendedMantissa.ofMantissaAndAccuracy (n / d) (accuracyOfFraction (n % d) d) = cutOff n d := by
  rw [cutOff, accuracyOfFraction_eq]
  split
  · rename_i hzero
    rw [hzero, decide_eq_false (by omega), decide_eq_false (by omega)]
    rfl
  · rename_i hrest
    rcases Nat.lt_trichotomy (2 * (n % d)) d with hless | hhalf | hmore
    · rw [Nat.compare_eq_lt.mpr hless, decide_eq_false (by omega), decide_eq_true (by omega)]
      rfl
    · rw [Nat.compare_eq_eq.mpr hhalf, decide_eq_true (by omega), decide_eq_false (by omega)]
      rfl
    · rw [Nat.compare_eq_gt.mpr hmore, decide_eq_true (by omega), decide_eq_true (by omega)]
      rfl

theorem shiftRightOne_cutOff (hd : 0 < d) (n : Nat) :
    (cutOff n d).shiftRightOne = cutOff n (d * 2) := by
  have hrest : n % d < d := Nat.mod_lt n hd
  have hmod : n % (d * 2) = n % d + d * (n / d % 2) := Nat.mod_mul
  change (⟨n / d / 2, n / d % 2 != 0, decide (d ≤ 2 * (n % d)) ||
    decide (n % d ≠ 0 ∧ 2 * (n % d) ≠ d)⟩ :
    ExtendedMantissa) = _
  rw [cutOff, hmod, Nat.div_div_eq_div_mul, ← Bool.decide_or]
  rcases Nat.mod_two_eq_zero_or_one (n / d) with hbit | hbit
  · rw [hbit]
    congr 1
    · exact (decide_eq_false (by omega)).symm
    · exact decide_eq_decide.mpr (by omega)
  · rw [hbit]
    congr 1
    · exact (decide_eq_true (by omega)).symm
    · exact decide_eq_decide.mpr (by omega)

theorem shiftRight_cutOff (hd : 0 < d) (n k : Nat) : cutOff n d >>> k = cutOff n (d * 2 ^ k) := by
  induction k with
  | zero => rw [pow_zero, mul_one]; rfl
  | succ k ih =>
    change (cutOff n d >>> k).shiftRightOne = _
    rw [ih, shiftRightOne_cutOff (by positivity), mul_assoc, ← pow_succ]

theorem roundedMantissa_cutOff (n d : Nat) : (cutOff n d).roundedMantissa = roundQuotient n d := by
  unfold roundQuotient
  simp only
  rcases Nat.lt_trichotomy (2 * (n % d)) d with hless | hhalf | hmore
  · rw [cutOff, decide_eq_false (by omega), if_pos hless]
    cases decide (n % d ≠ 0 ∧ 2 * (n % d) ≠ d) <;> rfl
  · rw [cutOff, decide_eq_true (by omega), decide_eq_false (by omega),
      if_neg (by omega), if_neg (by omega)]
    change n / d + n / d % 2 = _
    split <;> omega
  · rw [cutOff, decide_eq_true (by omega), decide_eq_true (by omega),
      if_neg (by omega), if_pos hmore]
    rfl

theorem roundQuotient_eq (hd : 0 < d) (hlow : 2 * (d * m) ≤ 2 * n + d)
    (hhigh : 2 * n ≤ 2 * (d * m) + d)
    (hodd : m % 2 = 1 → 2 * (d * m) < 2 * n + d ∧ 2 * n < 2 * (d * m) + d) :
    roundQuotient n d = m := by
  have hsplit := Nat.div_add_mod n d
  have hrest : n % d < d := Nat.mod_lt n hd
  have hatMost : n / d ≤ m := by
    by_contra hmore
    have hstep := Nat.mul_le_mul_left d (Nat.lt_of_not_le hmore)
    rw [Nat.mul_succ] at hstep
    omega
  have hatLeast : m ≤ n / d + 1 := by
    by_contra hless
    have hstep := Nat.mul_le_mul_left d (Nat.lt_of_not_le hless)
    rw [Nat.mul_succ, Nat.mul_succ] at hstep
    omega
  unfold roundQuotient
  simp only
  obtain hbelow | rfl : m = n / d + 1 ∨ m = n / d := by omega
  · rw [hbelow, Nat.mul_succ] at hlow hodd
    split
    · omega
    · split <;> [omega; (split <;> omega)]
  · split
    · rfl
    · split <;> [omega; (split <;> omega)]

/-! ### Shifting to an exponent -/

theorem targetExponent_eq (m : Nat) (e : Int) :
    Format.binary64.targetExponent (totalExponent m e) = max (m.log2 + 1 + e - 53) (-1074) :=
  rfl

/-- The exponent of a double that a significand of so many bits is shifted to. -/
theorem targetExponent_of_bits (hsize : m < 2 ^ (53 + k)) (hleast : -1074 ≤ e + k)
    (hfull : 2 ^ (52 + k) ≤ m ∨ e + k = -1074) :
    Format.binary64.targetExponent (totalExponent m e) = e + k := by
  rw [targetExponent_eq]
  rcases Nat.eq_zero_or_pos m with rfl | hm
  · obtain hnone | hexponent := hfull
    · have := Nat.two_pow_pos (52 + k)
      omega
    · have : Nat.log2 0 = 0 := by decide
      omega
  · have hupper := (Nat.log2_lt (by omega)).mpr hsize
    obtain hlower | hexponent := hfull
    · have := (Nat.le_log2 (by omega)).mpr hlower
      omega
    · omega

theorem shiftToExponent_eq (m : Nat) (e : Int) (a : Accuracy) (k : Nat) :
    shiftToExponent m e a (e + k) = (ExtendedMantissa.ofMantissaAndAccuracy m a >>> k, e + k) := by
  have hk : (e + k - e).toNat = k := by omega
  change (ExtendedMantissa.ofMantissaAndAccuracy m a >>> (e + k - e).toNat,
    e + ((e + k - e).toNat : Int)) = _
  rw [hk]

theorem shiftToTargetExponent_canonical (h : v.Canonical) :
    shiftToTargetExponent Format.binary64 v.significand v.exponent .exact =
      (⟨v.significand, false, false⟩, v.exponent) := by
  have htarget : Format.binary64.targetExponent (totalExponent v.significand v.exponent) =
      v.exponent + (0 : Nat) :=
    targetExponent_of_bits h.fits (by have := h.least; omega) (by have := h.full; omega)
  change shiftToExponent v.significand v.exponent .exact
    (Format.binary64.targetExponent (totalExponent v.significand v.exponent)) = _
  rw [htarget, shiftToExponent_eq, Nat.cast_zero, add_zero]
  rfl

theorem shiftToTargetExponent_fraction (hd : 0 < d) (hsize : n < 2 ^ 53 * (d * 2 ^ k))
    (hleast : -1074 ≤ e + k) (hfull : 2 ^ 52 * (d * 2 ^ k) ≤ n ∨ e + k = -1074) :
    shiftToTargetExponent Format.binary64 (n / d) e (accuracyOfFraction (n % d) d) =
      (cutOff n (d * 2 ^ k), e + k) := by
  have hbits (j : Nat) : 2 ^ j * (d * 2 ^ k) = 2 ^ (j + k) * d := by ring
  have htarget : Format.binary64.targetExponent (totalExponent (n / d) e) = e + k := by
    apply targetExponent_of_bits
    · rw [hbits] at hsize
      exact (Nat.div_lt_iff_lt_mul hd).mpr hsize
    · exact hleast
    · rw [hbits] at hfull
      exact hfull.imp_left (Nat.le_div_iff_mul_le hd).mpr
  change shiftToExponent _ _ _ (Format.binary64.targetExponent _) = _
  rw [htarget, shiftToExponent_eq, ofMantissaAndAccuracy_fraction hd, shiftRight_cutOff hd]

/-! ### Rounding -/

theorem roundWithAccuracy_of_shifts (h : v.Canonical) {em : ExtendedMantissa} {e' : Int}
    {a : Accuracy} (s : Sign) (hfirst : shiftToTargetExponent Format.binary64 m e a = (em, e'))
    (hsecond : shiftToTargetExponent Format.binary64 em.roundedMantissa e' .exact =
      (⟨v.significand, false, false⟩, v.exponent)) :
    roundWithAccuracy Format.binary64 s m e a = .finite s v.significand v.exponent h.pos := by
  have hdef : roundWithAccuracy Format.binary64 s m e a =
      if h : (shiftToTargetExponent Format.binary64
          (shiftToTargetExponent Format.binary64 m e a).1.roundedMantissa
          (shiftToTargetExponent Format.binary64 m e a).2 .exact).1.mantissa = 0 then .zero s
      else .finite s _ (shiftToTargetExponent Format.binary64
          (shiftToTargetExponent Format.binary64 m e a).1.roundedMantissa
          (shiftToTargetExponent Format.binary64 m e a).2 .exact).2 (Nat.pos_of_ne_zero h) :=
    rfl
  rw [hdef, hfirst, dif_neg (by rw [hsecond]; exact Nat.ne_of_gt h.pos)]
  apply finite_congr rfl
  · rw [hsecond]
  · rw [hsecond]

/-- A quotient, counted in units of the last place of `v`, is nearer to `v` than to its neighbours,
or half way to one and `v` is even. The neighbour below a narrow `v` is half as far away. -/
structure Dyadic.Near (v : Dyadic) (n d : Nat) : Prop where
  low : (4 * v.significand - if v.narrow then 1 else 2) * d ≤ 4 * n
  high : 4 * n ≤ (4 * v.significand + 2) * d
  odd : v.significand % 2 = 1 →
    (4 * v.significand - if v.narrow then 1 else 2) * d < 4 * n ∧
      4 * n < (4 * v.significand + 2) * d

theorem Dyadic.Near.congr {n' d' : Nat} (hd : 0 < d) (hd' : 0 < d') (hsame : n * d' = n' * d)
    (hnear : v.Near n d) :
    v.Near n' d' := by
  have hunit (a : Nat) : a * d * d' = a * d' * d := by ring
  have hquotient : 4 * n * d' = 4 * n' * d := by linarith
  have hbelow (a : Nat) : a * d ≤ 4 * n ↔ a * d' ≤ 4 * n' := by
    rw [← Nat.mul_le_mul_right_iff hd', hunit, hquotient, Nat.mul_le_mul_right_iff hd]
  have habove (a : Nat) : 4 * n ≤ a * d ↔ 4 * n' ≤ a * d' := by
    rw [← Nat.mul_le_mul_right_iff hd', hunit, hquotient, Nat.mul_le_mul_right_iff hd]
  refine ⟨(hbelow _).mp hnear.low, (habove _).mp hnear.high, fun hone => ?_⟩
  obtain ⟨hlow, hhigh⟩ := hnear.odd hone
  rw [← not_le, habove] at hlow
  rw [← not_le, hbelow] at hhigh
  exact ⟨not_le.mp hlow, not_le.mp hhigh⟩

theorem Dyadic.Near.lt (h : v.Canonical) (hd : 0 < d) (hnear : v.Near n d) : n < 2 ^ 53 * d := by
  have hfits := h.fits
  have hhigh := hnear.high
  have hmost : (4 * v.significand + 2) * d ≤ (2 ^ 55 - 2) * d := Nat.mul_le_mul_right _ (by omega)
  omega

theorem Dyadic.Near.roundQuotient_eq (h : v.Canonical) (hd : 0 < d) (hnear : v.Near n d) :
    roundQuotient n d = v.significand := by
  have hpos := h.pos
  have hlow := hnear.low
  have hhigh := hnear.high
  have hodd := hnear.odd
  have heven : v.narrow = true → v.significand = 2 ^ 52 := fun hnarrow => (h.narrow.mp hnarrow).1
  rw [Nat.add_mul, Nat.mul_assoc, Nat.mul_comm v.significand] at hhigh hodd
  rw [Nat.sub_mul, Nat.mul_assoc, Nat.mul_comm v.significand] at hlow hodd
  have hmore := Nat.mul_le_mul_left d hpos
  apply Decimal.roundQuotient_eq hd
  · split at hlow <;> omega
  · omega
  · intro hone
    have hwide : v.narrow = false := by
      by_contra hnarrow
      have := heven (by simpa using hnarrow)
      omega
    rw [hwide] at hodd
    have := hodd hone
    simp only [Bool.false_eq_true, if_false] at this
    omega

theorem Dyadic.Near.roundWithAccuracy_eq (h : v.Canonical) (hd : 0 < d)
    (hexponent : e + k = v.exponent) (hnear : v.Near n (d * 2 ^ k))
    (hroom : n < 2 ^ 52 * (d * 2 ^ k) → v.exponent ≠ -1074 → 0 < k) (s : Sign) :
    roundWithAccuracy Format.binary64 s (n / d) e (accuracyOfFraction (n % d) d) =
      .finite s v.significand v.exponent h.pos := by
  have hunit : 0 < d * 2 ^ k := by positivity
  have hfits := h.fits
  have hleast := h.least
  have hhigh := hnear.high
  have hlow := hnear.low
  by_cases hfull : 2 ^ 52 * (d * 2 ^ k) ≤ n ∨ v.exponent = -1074
  · have hfirst := shiftToTargetExponent_fraction hd (hnear.lt h hunit) (hexponent ▸ hleast)
      (hexponent ▸ hfull)
    rw [hexponent] at hfirst
    apply roundWithAccuracy_of_shifts h s hfirst
    rw [roundedMantissa_cutOff, hnear.roundQuotient_eq h hunit]
    exact shiftToTargetExponent_canonical h
  · -- just below a power of two, where doubles lie twice as close
    push Not at hfull
    obtain ⟨hbelow, hnormal⟩ := hfull
    obtain ⟨j, rfl⟩ : ∃ j, k = j + 1 := ⟨k - 1, by have := hroom hbelow hnormal; omega⟩
    have hdouble : d * 2 ^ (j + 1) = 2 * (d * 2 ^ j) := by ring
    rw [hdouble] at hbelow hlow hunit
    have hpower : v.significand = 2 ^ 52 := by
      by_contra hother
      have hmost : (4 * 2 ^ 52 + 2) * (2 * (d * 2 ^ j)) ≤
          (4 * v.significand - if v.narrow then 1 else 2) * (2 * (d * 2 ^ j)) := by
        apply Nat.mul_le_mul_right
        have hfull := h.full.resolve_right hnormal
        split <;> omega
      omega
    rw [h.narrow.mpr ⟨hpower, hnormal⟩, hpower] at hlow
    rw [if_pos rfl] at hlow
    have hfirst := shiftToTargetExponent_fraction (e := e) hd (n := n) (k := j) (by omega)
      (by omega) (.inl (by omega))
    have hround : roundQuotient n (d * 2 ^ j) = 2 ^ 53 :=
      Decimal.roundQuotient_eq (by omega) (by omega) (by omega) (by omega)
    have hcarry : shiftToTargetExponent Format.binary64 (2 ^ 53) (e + j) .exact =
        (⟨v.significand, false, false⟩, v.exponent) := by
      have htarget : Format.binary64.targetExponent (totalExponent (2 ^ 53) (e + j)) =
          e + j + (1 : Nat) :=
        targetExponent_of_bits (by decide) (by omega) (.inl (by decide))
      change shiftToExponent _ _ _ (Format.binary64.targetExponent _) = _
      rw [htarget, shiftToExponent_eq, hpower, ← hexponent, Nat.cast_add, Nat.cast_one, add_assoc]
      rfl
    apply roundWithAccuracy_of_shifts h s hfirst
    rw [roundedMantissa_cutOff, hround]
    exact hcarry

end Booru.Decimal
