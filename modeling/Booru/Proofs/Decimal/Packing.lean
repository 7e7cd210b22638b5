import Mathlib.Algebra.Group.Nat.Defs
import Booru.Decimal

/-! Doubles by their bits: a sign, eleven bits of exponent, and fifty-two bits of a
fraction. What is read off the bits of a finite double makes up the double again, and the
sign can be put on afterwards. -/

namespace Booru.Decimal

open Float.Model Float.Model.UnpackedFloat

/-- A significand and an exponent as they stand in the bits of a double: of fifty-three bits, unless
the exponent is the least there is. -/
structure Dyadic.Canonical (v : Dyadic) : Prop where
  pos : 0 < v.significand
  fits : v.significand < 2 ^ 53
  least : -1074 ≤ v.exponent
  most : v.exponent ≤ 971
  full : 2 ^ 52 ≤ v.significand ∨ v.exponent = -1074
  narrow : v.narrow = true ↔ v.significand = 2 ^ 52 ∧ v.exponent ≠ -1074

variable {v : Dyadic} {x : Float} {b : BitVec Format.binary64.numBits} {s : Sign}
  {m : Nat} {e : Int}

/-! ### Words and their fields -/

theorem toNat_packComponents (s : Sign) (e : BitVec 11) (m : BitVec 52) :
    (packComponents Format.binary64 s e m).toNat = s.toBitVec.toNat * 2 ^ 63 + e.toNat *
      2 ^ 52 + m.toNat := by
  change (s.toBitVec ++ e ++ m).toNat = _
  rw [BitVec.toNat_append, BitVec.toNat_append, ← Nat.shiftLeft_add_eq_or_of_lt m.isLt,
    ← Nat.shiftLeft_add_eq_or_of_lt e.isLt, Nat.shiftLeft_eq, Nat.shiftLeft_eq]
  omega

theorem toNat_unpackExponent (b : BitVec Format.binary64.numBits) :
    (unpackExponent b).toNat = b.toNat / 2 ^ 52 % 2 ^ 11 := by
  change (b.extractLsb 62 52).toNat = _
  rw [BitVec.extractLsb_toNat, Nat.shiftRight_eq_div_pow]

theorem unpackSign_packComponents (s : Sign) (e : BitVec 11) (m : BitVec 52) :
    Sign.ofBitVec (unpackSign (packComponents Format.binary64 s e m)) = s := by
  have hbit : unpackSign (packComponents Format.binary64 s e m) = s.toBitVec := by
    apply BitVec.eq_of_toNat_eq
    change ((packComponents Format.binary64 s e m).extractLsb 63 63).toNat = _
    rw [BitVec.extractLsb_toNat, Nat.shiftRight_eq_div_pow, toNat_packComponents]
    have := e.isLt
    have := m.isLt
    have := s.toBitVec.isLt
    omega
  rw [hbit]
  cases s <;> rfl

theorem toNat_one_append (f : BitVec 52) : (1#1 ++ f).toNat = 2 ^ 52 + f.toNat := by
  rw [BitVec.toNat_append, ← Nat.shiftLeft_add_eq_or_of_lt f.isLt]
  rfl

/-! ### Packing -/

theorem pack_finite (hm : 0 < m) :
    pack Format.binary64 (.finite s m e hm) =
      if 2 ^ 11 ≤ (e + 1023 + 52).toNat + 1 then packedInfinity Format.binary64 s
      else if m.log2 + 1 = 53 then
        packComponents Format.binary64 s (BitVec.ofNat 11 (e + 1023 + 52).toNat) (BitVec.ofNat 52 m)
      else packComponents Format.binary64 s 0#11 (BitVec.ofNat 52 m) :=
  rfl

theorem log2_of_full (hlow : 2 ^ 52 ≤ m) (hhigh : m < 2 ^ 53) : m.log2 = 52 := by
  have hm : m ≠ 0 := by omega
  have h52 := (Nat.le_log2 hm).mpr hlow
  have h53 := (Nat.log2_lt hm).mpr hhigh
  omega

theorem pack_normal (h : v.Canonical) (hfull : 2 ^ 52 ≤ v.significand) (s : Sign) :
    pack Format.binary64 (.finite s v.significand v.exponent h.pos) =
      packComponents Format.binary64 s (BitVec.ofNat 11 (v.exponent + 1075).toNat)
        (BitVec.ofNat 52 v.significand) := by
  have hleast := h.least
  have hmost := h.most
  have hbias : v.exponent + 1023 + 52 = v.exponent + 1075 := by omega
  rw [pack_finite, if_neg (by omega), if_pos (by rw [log2_of_full hfull h.fits]), hbias]

theorem pack_subnormal (h : v.Canonical) (hsmall : v.significand < 2 ^ 52) (s : Sign) :
    pack Format.binary64 (.finite s v.significand v.exponent h.pos) =
      packComponents Format.binary64 s 0#11 (BitVec.ofNat 52 v.significand) := by
  have hexponent := h.full.resolve_left (by omega)
  have hlog : v.significand.log2 < 52 := (Nat.log2_lt (Nat.ne_of_gt h.pos)).mpr hsmall
  rw [pack_finite, if_neg (by omega), if_neg (by omega)]

/-! ### Unpacking -/

theorem unpack_ones (h : unpackExponent b = -1#11) :
    unpack Format.binary64 b =
      if unpackMantissa b = 0#52 then .infinity (Sign.ofBitVec (unpackSign b)) else .notANumber :=
  if_pos h

theorem unpack_zeros (h : unpackExponent b = 0#11) (hm : 0 < (unpackMantissa b).toNat) :
    unpack Format.binary64 b =
      .finite (Sign.ofBitVec (unpackSign b))
        (unpackMantissa b).toNat (((unpackExponent b).toNat : Int) - 1075 + 1) hm := by
  have hnotones : unpackExponent b ≠ -1#11 := by rw [h]; decide
  have hfraction : unpackMantissa b ≠ 0#52 := by
    intro hzero
    rw [hzero] at hm
    exact absurd hm (by decide)
  exact (if_neg hnotones).trans ((if_pos h).trans (dif_neg hfraction))

theorem unpack_mixed (h : unpackExponent b ≠ -1#11) (h' : unpackExponent b ≠ 0#11)
    (hm : 0 < (1#1 ++ unpackMantissa b).toNat) :
    unpack Format.binary64 b =
      .finite (Sign.ofBitVec (unpackSign b)) (1#1 ++ unpackMantissa b).toNat
        (((unpackExponent b).toNat : Int) - 1075) hm :=
  (if_neg h).trans (if_neg h')

theorem finite_congr {s s' : Sign} {m m' : Nat} {e e' : Int} (hs : s = s') (hm : m = m')
    (he : e = e') (h : 0 < m)
    (h' : 0 < m') : UnpackedFloat.finite s m e h = .finite s' m' e' h' := by
  subst hs hm he
  rfl

theorem unpack_pack (h : v.Canonical) (s : Sign) :
    unpack Format.binary64 (pack Format.binary64 (.finite s v.significand v.exponent h.pos)) =
      .finite s v.significand v.exponent h.pos := by
  have hfits := h.fits
  have hleast := h.least
  have hmost := h.most
  rcases Nat.lt_or_ge v.significand (2 ^ 52) with hsmall | hfull
  · have hexponent := h.full.resolve_left (by omega)
    rw [pack_subnormal h hsmall]
    have hfraction : (BitVec.ofNat 52 v.significand).toNat = v.significand :=
      Nat.mod_eq_of_lt hsmall
    rw [unpack_zeros unpackExponent_packComponents
      (by rw [unpackMantissa_packComponents, hfraction]; exact h.pos)]
    apply finite_congr (unpackSign_packComponents ..)
    · rw [unpackMantissa_packComponents, hfraction]
    · rw [unpackExponent_packComponents, hexponent]
      rfl
  · rw [pack_normal h hfull]
    have hbiased : (BitVec.ofNat 11 (v.exponent + 1075).toNat).toNat = (v.exponent + 1075).toNat :=
      Nat.mod_eq_of_lt (by omega)
    have hfraction : (1#1 ++ BitVec.ofNat 52 v.significand).toNat = v.significand := by
      rw [toNat_one_append, BitVec.toNat_ofNat]
      omega
    have hones : BitVec.ofNat 11 (v.exponent + 1075).toNat ≠ -1#11 := by
      intro heq
      have hnat := congrArg BitVec.toNat heq
      rw [hbiased] at hnat
      change _ = 2047 at hnat
      omega
    have hzeros : BitVec.ofNat 11 (v.exponent + 1075).toNat ≠ 0#11 := by
      intro heq
      have hnat := congrArg BitVec.toNat heq
      rw [hbiased] at hnat
      change _ = 0 at hnat
      omega
    rw [unpack_mixed (by rwa [unpackExponent_packComponents])
      (by rwa [unpackExponent_packComponents])
      (by rw [unpackMantissa_packComponents, hfraction]; exact h.pos)]
    apply finite_congr (unpackSign_packComponents ..)
    · rw [unpackMantissa_packComponents, hfraction]
    · rw [unpackExponent_packComponents, hbiased]
      omega

/-! ### Finite doubles -/

def Dyadic.Canonical.float (h : v.Canonical) (s : Sign) : Float :=
  .ofModel (.pack (.finite s v.significand v.exponent h.pos))

theorem ext_bits {x y : Float} (h : x.toBits.toNat = y.toBits.toNat) : x = y := by
  obtain ⟨⟨xs, hx⟩⟩ := x
  obtain ⟨⟨ys, hy⟩⟩ := y
  obtain rfl : xs = ys := UInt64.toNat_inj.mp h
  rfl

theorem Dyadic.Canonical.neg_float (h : v.Canonical) : -h.float .positive = h.float .negative := by
  change Float.ofModel (.pack (unpack Format.binary64 (pack Format.binary64 _)).neg) = _
  rw [unpack_pack h]
  rfl

def signBit (x : Float) : Sign := if x.toBits.toNat < 0x8000000000000000
    then .positive else .negative

theorem special_of_isFinite (h : x.isFinite = true) : x.isNaN = false ∧ x.isInf = false := by
  have hall (u : Float.Model.UnpackedFloat) (hu : u.isFinite = true) : u.isNaN = false ∧
      u.isInf = false := by
    cases u with
    | infinity => cases hu
    | notANumber => cases hu
    | zero => exact ⟨rfl, rfl⟩
    | finite => exact ⟨rfl, rfl⟩
  exact hall x.toModel.unpack h

theorem exponent_of_isFinite (h : x.isFinite = true) : x.toBits.toNat / 2 ^ 52 % 2 ^ 11 ≠ 2047 := by
  intro hones
  have hexponent : @unpackExponent Format.binary64 x.toBits.toBitVec = -1#11 :=
    BitVec.eq_of_toNat_eq ((toNat_unpackExponent _).trans hones)
  change (unpack Format.binary64 x.toBits.toBitVec).isFinite = true at h
  rw [unpack_ones hexponent] at h
  split at h <;> cases h

theorem canonical_of_ofFloat? (hx : x.isFinite = true) (h : Dyadic.ofFloat? x = some v) :
    v.Canonical := by
  have hfinite := exponent_of_isFinite hx
  unfold Dyadic.ofFloat? at h
  simp only at h
  split at h
  · split at h
    · cases h
    · cases h
      constructor <;> simp <;> omega
  · cases h
    constructor <;> simp <;> omega

theorem bits_of_ofFloat? (h : Dyadic.ofFloat? x = some v) :
    x.toBits.toNat % 2 ^ 63 =
      if v.significand < 2 ^ 52 then v.significand
      else (v.exponent + 1075).toNat * 2 ^ 52 + (v.significand - 2 ^ 52) := by
  unfold Dyadic.ofFloat? at h
  simp only at h
  split at h
  · split at h
    · cases h
    · cases h
      rw [if_pos (by simp; omega)]
      simp only
      omega
  · cases h
    rw [if_neg (by simp)]
    simp only
    omega

theorem Dyadic.Canonical.bits_float (h : v.Canonical) (s : Sign) :
    (h.float s).toBits.toNat = s.toBitVec.toNat * 2 ^ 63 +
      if v.significand < 2 ^ 52 then v.significand
      else (v.exponent + 1075).toNat * 2 ^ 52 + (v.significand - 2 ^ 52) := by
  have hleast := h.least
  have hmost := h.most
  have hfits := h.fits
  change (pack Format.binary64 (.finite s v.significand v.exponent h.pos)).toNat = _
  rcases Nat.lt_or_ge v.significand (2 ^ 52) with hsmall | hfull
  · rw [if_pos hsmall, pack_subnormal h hsmall, toNat_packComponents, BitVec.toNat_ofNat,
      BitVec.toNat_ofNat]
    omega
  · rw [if_neg (by omega), pack_normal h hfull, toNat_packComponents, BitVec.toNat_ofNat,
      BitVec.toNat_ofNat]
    omega

theorem toNat_signBit (x : Float) : (signBit x).toBitVec.toNat = x.toBits.toNat / 2 ^ 63 := by
  have hbound := x.toBits.toNat_lt
  unfold signBit
  split
  · change 0 = _
    omega
  · change 1 = _
    omega

theorem eq_float (hx : x.isFinite = true) (h : Dyadic.ofFloat? x = some v) :
    x = (canonical_of_ofFloat? hx h).float (signBit x) := by
  apply ext_bits
  rw [Dyadic.Canonical.bits_float, ← bits_of_ofFloat? h, toNat_signBit]
  omega

theorem eq_zero (h : Dyadic.ofFloat? x = none) : x = .ofModel (.pack (.zero (signBit x))) := by
  apply ext_bits
  have hzero : x.toBits.toNat % 2 ^ 63 = 0 := by
    unfold Dyadic.ofFloat? at h
    simp only at h
    split at h
    · split at h
      · omega
      · cases h
    · cases h
  change _ = (packComponents Format.binary64 (signBit x) 0#11 0#52).toNat
  rw [toNat_packComponents, toNat_signBit]
  change _ = _ + 0 * 2 ^ 52 + 0
  omega

end Booru.Decimal
