import Mathlib.Tactic.LinearCombination
import Booru.Proofs.Decimal.Rounding

/-! The double nearest to a decimal number: a number that lies in the interval of a double
is read as that double. -/

namespace Booru.Decimal

open Float.Model Float.Model.UnpackedFloat

variable {v : Dyadic} {m f k : Nat} {e : Int}

/-! ### Decimal numbers near a double -/

/-- The number `m * 10^e`, counted in units of the last place of `v`, is near `v`. -/
def Dyadic.Covers (v : Dyadic) (m : Nat) (e : Int) : Prop :=
  v.Near (m * 10 ^ e.toNat * 2 ^ (-v.exponent).toNat) (10 ^ (-e).toNat * 2 ^ v.exponent.toNat)

theorem Dyadic.Covers.congr {m' : Nat} {e' : Int}
    (hsame : m * 10 ^ e.toNat * 10 ^ (-e').toNat = m' * 10 ^ e'.toNat * 10 ^ (-e).toNat)
    (h : v.Covers m e) :
    v.Covers m' e' := by
  refine Near.congr (by positivity) (by positivity) ?_ h
  linear_combination (2 ^ (-v.exponent).toNat * 2 ^ v.exponent.toNat) * hsame

theorem Dyadic.Covers.mul_pow (z : Nat) (h : v.Covers m (e + z)) : v.Covers (m * 10 ^ z) e := by
  apply h.congr
  have hpowers : (e + z).toNat + (-e).toNat = z + e.toNat + (-(e + z)).toNat := by omega
  calc m * 10 ^ (e + z).toNat * 10 ^ (-e).toNat = m * 10 ^ ((e + z).toNat + (-e).toNat) := by ring
    _ = m * 10 ^ z * 10 ^ e.toNat * 10 ^ (-(e + z)).toNat := by rw [hpowers]; ring

theorem Dyadic.Covers.of_mul_pow {z : Nat} (h : v.Covers (m * 10 ^ z) e) : v.Covers m (e + z) := by
  apply h.congr
  have hpowers : (e + z).toNat + (-e).toNat = z + e.toNat + (-(e + z)).toNat := by omega
  calc m * 10 ^ z * 10 ^ e.toNat * 10 ^ (-(e + z)).toNat
    _ = m * 10 ^ (z + e.toNat + (-(e + z)).toNat) := by ring
    _ = m * 10 ^ (e + z).toNat * 10 ^ (-e).toNat := by rw [← hpowers]; ring

theorem Interval.holds_iff {i : Interval} {n num den : Nat} :
    i.holds n num den = true ↔ i.low * den ≤ n * num * i.denominator ∧
    n * num * i.denominator ≤ i.high * den ∧
      (i.closed = false → i.low * den < n * num * i.denominator ∧ n * num * i.denominator <
        i.high * den) := by
  unfold Interval.holds
  cases i.closed
  · simp
    omega
  · simp

theorem Dyadic.covers_of_holds (h : v.interval.holds m (10 ^ e.toNat) (10 ^ (-e).toNat) = true) :
    v.Covers m e := by
  obtain ⟨hlow, hhigh, hopen⟩ := Interval.holds_iff.mp h
  have hbelow : (4 * v.significand - if v.narrow then 1 else 2) *
      (4 * (2 ^ (v.exponent - 2).toNat * 10 ^ (-e).toNat)) =
      4 * (v.interval.low * 10 ^ (-e).toNat) := by
    change _ = 4 * ((4 * v.significand - if v.narrow then 1 else 2) * 2 ^
      (v.exponent - 2).toNat * 10 ^ (-e).toNat)
    ring
  have habove : (4 * v.significand + 2) * (4 * (2 ^ (v.exponent - 2).toNat * 10 ^ (-e).toNat)) =
      4 * (v.interval.high * 10 ^ (-e).toNat) := by
    change _ = 4 * ((4 * v.significand + 2) * 2 ^ (v.exponent - 2).toNat * 10 ^ (-e).toNat)
    ring
  have hnear : v.Near (m * 10 ^ e.toNat * v.interval.denominator)
      (4 * (2 ^ (v.exponent - 2).toNat * 10 ^ (-e).toNat)) := by
    refine ⟨?_, ?_, fun hone => ?_⟩
    · rw [hbelow]
      omega
    · rw [habove]
      omega
    · have hstrict := hopen (beq_false_of_ne (by omega : v.significand % 2 ≠ 0))
      rw [hbelow, habove]
      omega
  refine Near.congr (by positivity) (by positivity) ?_ hnear
  have hpowers : (2 - v.exponent).toNat + v.exponent.toNat = (-v.exponent).toNat + 2 +
      (v.exponent - 2).toNat := by
    omega
  have htwos : v.interval.denominator * 2 ^ v.exponent.toNat =
      2 ^ (-v.exponent).toNat * 4 * 2 ^ (v.exponent - 2).toNat := by
    change 2 ^ (2 - v.exponent).toNat * 2 ^ v.exponent.toNat = _
    rw [← pow_add, hpowers]
    ring
  linear_combination (m * 10 ^ e.toNat * 10 ^ (-e).toNat) * htwos

/-! ### Where the quotient is cut off -/

/-- Bits behind the point that are enough to tell how `m * 10^e` is rounded: wherever the last place
of a double of that size is, it is no further behind. -/
def Enough (m : Nat) (e : Int) (f : Nat) : Prop :=
  ∀ up down : Nat, -1074 ≤ (up - down : Int) → m * 10 ^ e.toNat * 2 ^ down <
    2 ^ (53 + up) * 10 ^ (-e).toNat → -(f : Int) ≤ up - down

theorem enough_of_integer (hm : 0 < m) (he : 0 ≤ e) : Enough m e 53 := by
  intro up down _ hless
  have hone : (-e).toNat = 0 := by omega
  rw [hone, pow_zero, mul_one] at hless
  have hpower : 2 ^ down ≤ m * 10 ^ e.toNat * 2 ^ down := Nat.le_mul_of_pos_left _ (by positivity)
  have := (Nat.pow_lt_pow_iff_right (by decide)).mp (hpower.trans_lt hless)
  omega

theorem enough_of_fraction (hm : 0 < m) (he : e < 0)
    (hf : -(f : Int) ≤ max ((m.log2 : Int) - (10 ^ (-e).toNat).log2 - 53) (-1074)) :
    Enough m e f := by
  intro up down hleast hless
  have hone : e.toNat = 0 := by omega
  rw [hone, pow_zero, mul_one] at hless
  have hlower := Nat.log2_self_le (Nat.ne_of_gt hm)
  have hupper := (10 ^ (-e).toNat).lt_log2_self
  have hpowers : 2 ^ (m.log2 + down) < 2 ^ (53 + up + ((10 ^ (-e).toNat).log2 + 1)) :=
    calc 2 ^ (m.log2 + down) = 2 ^ m.log2 * 2 ^ down := pow_add ..
      _ ≤ m * 2 ^ down := Nat.mul_le_mul_right _ hlower
      _ < 2 ^ (53 + up) * 10 ^ (-e).toNat := hless
      _ ≤ 2 ^ (53 + up) * 2 ^ ((10 ^ (-e).toNat).log2 + 1) := Nat.mul_le_mul_left _ hupper.le
      _ = 2 ^ (53 + up + ((10 ^ (-e).toNat).log2 + 1)) := (pow_add ..).symm
  have := (Nat.pow_lt_pow_iff_right (by decide)).mp hpowers
  omega

theorem ofScientific_eq (hm : 0 < m) (hhigh : e ≤ 2 ^ 11) (hlow : -((2 ^ 11 : Int) + m.log2) ≤ e) :
    ∃ f, Enough m e f ∧ ofScientific Format.binary64 m e =
      roundWithAccuracy Format.binary64 .positive (m * 10 ^ e.toNat * 2 ^ f / 10 ^ (-e).toNat)
        (-(f : Int))
        (accuracyOfFraction (m * 10 ^ e.toNat * 2 ^ f % 10 ^ (-e).toNat) (10 ^ (-e).toNat)) := by
  rcases le_or_gt 0 e with he | he
  · refine ⟨53, enough_of_integer hm he, ?_⟩
    have hone : (-e).toNat = 0 := by omega
    have hdef : ofScientific Format.binary64 m e =
        roundWithAccuracy Format.binary64 .positive (m <<< 53 * 10 ^ e.toNat)
          (-((53 : Nat) : Int)) .exact :=
      (dif_neg (Nat.ne_of_gt hm)).trans
        ((if_neg (not_lt.mpr hhigh)).trans ((if_neg (not_lt.mpr hlow)).trans
        ((dif_pos he).trans rfl)))
    rw [hdef, hone, pow_zero, Nat.div_one, Nat.mod_one, Nat.shiftLeft_eq, mul_right_comm]
    rfl
  · have hone : e.toNat = 0 := by omega
    have hdef : ofScientific Format.binary64 m e =
        roundWithAccuracy Format.binary64 .positive
          (divCore Format.binary64 m 0 (10 ^ (-e).toNat) 0).1
            (divCore Format.binary64 m 0 (10 ^ (-e).toNat) 0).2.1
          (divCore Format.binary64 m 0 (10 ^ (-e).toNat) 0).2.2 :=
      (dif_neg (Nat.ne_of_gt hm)).trans
        ((if_neg (not_lt.mpr hhigh)).trans ((if_neg (not_lt.mpr hlow)).trans
        ((dif_neg (not_le.mpr he)).trans rfl)))
    have hcore (cut : Int)
        (hcut : min (0 - 0) (max (((m.log2 : Int) + 1 + 0) -
          (((10 ^ (-e).toNat).log2 : Int) + 1 + 0) - 53) (-1074)) = cut) :
        divCore Format.binary64 m 0 (10 ^ (-e).toNat) 0 =
          (m <<< (0 - 0 - cut).toNat / 10 ^ (-e).toNat, cut,
          accuracyOfFraction (m <<< (0 - 0 - cut).toNat % 10 ^ (-e).toNat) (10 ^ (-e).toNat)) := by
      subst hcut
      rfl
    obtain ⟨f, hf⟩ : ∃ f : Nat,
        min (0 - 0) (max (((m.log2 : Int) + 1 + 0) - (((10 ^ (-e).toNat).log2 : Int) + 1 + 0) - 53)
          (-1074)) = -(f : Int) :=
      Int.exists_eq_neg_ofNat (by omega)
    have hshift : (0 - 0 - -(f : Int)).toNat = f := by omega
    refine ⟨f, enough_of_fraction hm he (by omega), ?_⟩
    rw [hdef, hcore _ hf, hshift, hone, pow_zero, mul_one, Nat.shiftLeft_eq]

/-! ### Reading -/

theorem Dyadic.Covers.pos (h : v.Canonical) (hcovers : v.Covers m e) : 0 < m := by
  by_contra hzero
  have hpos := h.pos
  have hlow := hcovers.low
  have hunit : 0 < (4 * v.significand - if v.narrow then 1 else 2) *
      (10 ^ (-e).toNat * 2 ^ v.exponent.toNat) :=
    Nat.mul_pos (by split <;> omega) (by positivity)
  obtain rfl : m = 0 := by omega
  omega

theorem Dyadic.Covers.exponent_le (h : v.Canonical) (hcovers : v.Covers m e) : e ≤ 2 ^ 11 := by
  by_contra hlarge
  have hmost := h.most
  have hone : (-e).toNat = 0 := by omega
  have hless := Near.lt h (by positivity) hcovers
  rw [hone, pow_zero, one_mul] at hless
  have hpowers : 2 ^ e.toNat < 2 ^ (53 + v.exponent.toNat) :=
    calc 2 ^ e.toNat ≤ 10 ^ e.toNat := Nat.pow_le_pow_left (by decide) _
      _ ≤ m * 10 ^ e.toNat * 2 ^ (-v.exponent).toNat := by
        rw [mul_right_comm]
        exact Nat.le_mul_of_pos_left _ (Nat.mul_pos (hcovers.pos h) (by positivity))
      _ < 2 ^ 53 * 2 ^ v.exponent.toNat := hless
      _ = 2 ^ (53 + v.exponent.toNat) := (pow_add ..).symm
  have := (Nat.pow_lt_pow_iff_right (by decide)).mp hpowers
  omega

theorem Dyadic.Covers.le_exponent (h : v.Canonical) (hcovers : v.Covers m e) :
    -((2 ^ 11 : Int) + m.log2) ≤ e := by
  by_contra hsmall
  have hleast := h.least
  have hpos := h.pos
  have hone : e.toNat = 0 := by omega
  have hlow := hcovers.low
  rw [hone, pow_zero, mul_one] at hlow
  have hpowers : 2 ^ (-e).toNat < 2 ^ (2 + (m.log2 + 1) + (-v.exponent).toNat) :=
    calc 2 ^ (-e).toNat ≤ 10 ^ (-e).toNat := Nat.pow_le_pow_left (by decide) _
      _ ≤ 10 ^ (-e).toNat * 2 ^ v.exponent.toNat := Nat.le_mul_of_pos_right _ (by positivity)
      _ ≤ (4 * v.significand - if v.narrow then 1 else 2) *
        (10 ^ (-e).toNat * 2 ^ v.exponent.toNat) :=
        Nat.le_mul_of_pos_left _ (by split <;> omega)
      _ ≤ 4 * m * 2 ^ (-v.exponent).toNat := by rw [mul_assoc]; exact hlow
      _ < 4 * 2 ^ (m.log2 + 1) * 2 ^ (-v.exponent).toNat :=
        Nat.mul_lt_mul_of_pos_right (by have := m.lt_log2_self; omega) (by positivity)
      _ = 2 ^ (2 + (m.log2 + 1) + (-v.exponent).toNat) := by ring
  have := (Nat.pow_lt_pow_iff_right (by decide)).mp hpowers
  omega

theorem nearest_of_covers (h : v.Canonical) (hcovers : v.Covers m e) :
    nearest m e = h.float .positive := by
  have hleast := h.least
  obtain ⟨f, henough, hround⟩ := ofScientific_eq (hcovers.pos h) (hcovers.exponent_le h)
    (hcovers.le_exponent h)
  have hless := Dyadic.Near.lt h (by positivity) hcovers
  rw [mul_comm (10 ^ (-e).toNat), ← mul_assoc, ← pow_add] at hless
  have hbehind : -(f : Int) ≤ v.exponent := by
    have := henough v.exponent.toNat (-v.exponent).toNat (by omega) hless
    omega
  obtain ⟨k, hk⟩ : ∃ k : Nat, -(f : Int) + k = v.exponent := ⟨(v.exponent + f).toNat, by omega⟩
  have hnear : v.Near (m * 10 ^ e.toNat * 2 ^ f) (10 ^ (-e).toNat * 2 ^ k) := by
    refine Dyadic.Near.congr (by positivity) (by positivity) ?_ hcovers
    have hpowers : (-v.exponent).toNat + k = f + v.exponent.toNat := by omega
    have htwos : 2 ^ (-v.exponent).toNat * 2 ^ k = 2 ^ f * 2 ^ v.exponent.toNat := by
      rw [← pow_add, hpowers, pow_add]
    linear_combination (m * 10 ^ e.toNat * 10 ^ (-e).toNat) * htwos
  have hroom : m * 10 ^ e.toNat * 2 ^ f < 2 ^ 52 * (10 ^ (-e).toNat * 2 ^ k) →
      v.exponent ≠ -1074 → 0 < k := by
    intro hbelow hnormal
    by_contra hk0
    obtain rfl : k = 0 := by omega
    rw [pow_zero, mul_one] at hbelow
    have := henough 0 (f + 1) (by omega) (by rw [pow_succ, ← mul_assoc]; omega)
    omega
  change Float.ofModel (.pack (ofScientific Format.binary64 m e)) = _
  rw [hround, hnear.roundWithAccuracy_eq h (by positivity) hk hroom]
  rfl

end Booru.Decimal
