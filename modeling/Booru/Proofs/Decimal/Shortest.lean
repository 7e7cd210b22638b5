import Mathlib.Data.List.Induction
import Mathlib.Data.List.TakeWhile
import Booru.Proofs.Decimal.Nearest
import Booru.Proofs.Text.Numerals

/-! The digits that are written for a double stand for a decimal number near it. Seventeen digits
are always enough to come near, so the search for the fewest ends with a number. -/

namespace Booru.Decimal

variable {v : Dyadic} {i : Interval} {magnitude : Int} {n count fuel c : Nat}

/-! ### The search -/

theorem Interval.holds_of_nearest? (h : i.nearest? magnitude count = some n) :
    i.holds n (10 ^ (magnitude - count).toNat) (10 ^ (-(magnitude - count)).toNat) = true := by
  unfold nearest? at h
  extract_lets step num den below twice double nearer farther at h
  split at h
  · rename_i hholds
    rwa [← Option.some.inj h]
  · split at h
    · rename_i hholds
      rwa [← Option.some.inj h]
    · cases h

theorem Interval.holds_of_search (h : i.search magnitude fuel count = some (n, c)) :
    i.holds n (10 ^ (magnitude - c).toNat) (10 ^ (-(magnitude - c)).toNat) = true := by
  induction fuel generalizing count with
  | zero => cases h
  | succ fuel ih =>
    unfold search at h
    split at h
    · rename_i hnear
      cases h
      exact holds_of_nearest? hnear
    · exact ih h

theorem Interval.search_isSome (hfound : (i.nearest? magnitude c).isSome) (hfirst : count ≤ c)
    (hlast : c < count + fuel) : (i.search magnitude fuel count).isSome := by
  induction fuel generalizing count with
  | zero => omega
  | succ fuel ih =>
    unfold search
    split
    · rfl
    · rename_i hnone
      obtain rfl | hlater := Nat.eq_or_lt_of_le hfirst
      · rw [hnone] at hfound
        cases hfound
      · exact ih hlater (by omega)

/-! ### Seventeen digits -/

theorem Dyadic.Canonical.holds_of_fine (h : v.Canonical) {num den : Nat} (hden : 0 < den)
    (hfine : 10 ^ 16 * (v.interval.denominator * num) ≤ v.interval.value * den)
    (hlow : 2 * (v.interval.value * den) ≤ 2 * (n * num * v.interval.denominator) +
      v.interval.denominator * num)
    (hhigh : 2 * (n * num * v.interval.denominator) ≤ 2 * (v.interval.value * den) +
      v.interval.denominator * num) :
    v.interval.holds n num den = true := by
  have hpos := h.pos
  have hfits := h.fits
  obtain ⟨unit, hunit⟩ : ∃ unit, unit = 2 ^ (v.exponent - 2).toNat * den := ⟨_, rfl⟩
  have hunitPos : 0 < unit := by rw [hunit]; positivity
  have hvalue : v.interval.value * den = 4 * (v.significand * unit) := by
    change 4 * v.significand * 2 ^ (v.exponent - 2).toNat * den = _
    rw [hunit]
    ring
  have hbelow : v.interval.low * den = (4 * v.significand - if v.narrow then 1 else 2) * unit := by
    change (4 * v.significand - if v.narrow then 1 else 2) * 2 ^ (v.exponent - 2).toNat * den = _
    rw [hunit]
    ring
  have habove : v.interval.high * den = 4 * (v.significand * unit) + 2 * unit := by
    change (4 * v.significand + 2) * 2 ^ (v.exponent - 2).toNat * den = _
    rw [hunit]
    ring
  obtain ⟨point, hpoint⟩ : ∃ point, point = n * num * v.interval.denominator := ⟨_, rfl⟩
  rw [hvalue] at hfine hlow hhigh
  rw [← hpoint] at hlow hhigh
  have hsize : v.significand * unit ≤ (2 ^ 53 - 1) * unit := Nat.mul_le_mul_right _ (by omega)
  have hlower : v.interval.low * den < point := by
    rw [hbelow, Nat.sub_mul, mul_assoc]
    have hmore := Nat.mul_le_mul_right unit hpos
    split
    · rename_i hnarrow
      rw [(h.narrow.mp hnarrow).1] at *
      omega
    · omega
  have hupper : point < v.interval.high * den := by
    rw [habove]
    omega
  rw [Interval.holds_iff, ← hpoint]
  exact ⟨hlower.le, hupper.le, fun _ => ⟨hlower, hupper⟩⟩

theorem Dyadic.Canonical.nearest?_isSome (h : v.Canonical)
    (hfine : 10 ^ 16 * (v.interval.denominator * 10 ^ (magnitude - 17).toNat) ≤
      v.interval.value * 10 ^ (-(magnitude - 17)).toNat) :
    (v.interval.nearest? magnitude 17).isSome := by
  unfold Interval.nearest?
  extract_lets step num den below twice double nearer farther
  change 10 ^ 16 * (v.interval.denominator * num) ≤ v.interval.value * den at hfine
  have hdenominator : 0 < v.interval.denominator := by
    change 0 < 2 ^ (2 - v.exponent).toNat
    positivity
  have hnum : 0 < num := by
    change 0 < 10 ^ step.toNat
    positivity
  have hden : 0 < den := by
    change 0 < 10 ^ (-step).toNat
    positivity
  have hstep : 0 < v.interval.denominator * num := Nat.mul_pos hdenominator hnum
  have hbelow : v.interval.denominator * num * below + v.interval.value * den %
      (v.interval.denominator * num) = v.interval.value * den :=
    Nat.div_add_mod ..
  have hrest := Nat.mod_lt (v.interval.value * den) hstep
  have hdouble : double = 2 * (v.interval.value * den) := mul_assoc ..
  have htwice : twice = 2 * (v.interval.denominator * num * below) +
      v.interval.denominator * num := by
    change (2 * below + 1) * num * v.interval.denominator = _
    ring
  have hpoint (n : Nat) : n * num * v.interval.denominator = v.interval.denominator * num * n := by
    ring
  have hside : nearer = below ∧ double ≤ twice ∨ nearer = below + 1 ∧ twice ≤ double := by
    by_cases hless : (double < twice || (double == twice && below % 2 == 0)) = true
    · refine .inl ⟨if_pos hless, ?_⟩
      simp at hless
      omega
    · refine .inr ⟨if_neg hless, ?_⟩
      simp at hless
      omega
  have hholds : v.interval.holds nearer num den = true := by
    apply h.holds_of_fine hden hfine
    all_goals
      rw [hpoint]
      obtain ⟨heq, hle⟩ | ⟨heq, hle⟩ := hside
      · rw [heq]
        omega
      · rw [heq, Nat.mul_succ]
        omega
  rw [if_pos hholds]
  rfl

theorem Dyadic.Canonical.denominator_le (h : v.Canonical) :
    v.interval.denominator ≤ v.interval.value * 10 ^ Interval.places := by
  have hpos := h.pos
  have hleast := h.least
  have hplaces : Interval.places = 400 := rfl
  have hdigits (k : Nat) (hk : (2 - v.exponent).toNat ≤ 3 * k) :
      2 ^ (2 - v.exponent).toNat ≤ 10 ^ k :=
    calc 2 ^ (2 - v.exponent).toNat ≤ 2 ^ (3 * k) := Nat.pow_le_pow_right (by decide) hk
      _ = (2 ^ 3) ^ k := pow_mul ..
      _ ≤ 10 ^ k := Nat.pow_le_pow_left (by decide) k
  calc v.interval.denominator = 2 ^ (2 - v.exponent).toNat := rfl
    _ ≤ 10 ^ Interval.places := hdigits _ (by omega)
    _ ≤ v.interval.value * 10 ^ Interval.places := by
      apply Nat.le_mul_of_pos_left
      change 0 < 4 * v.significand * 2 ^ (v.exponent - 2).toNat
      positivity

theorem Dyadic.Canonical.fine (h : v.Canonical) :
    10 ^ 16 * (v.interval.denominator * 10 ^ (v.interval.magnitude - 17).toNat) ≤
      v.interval.value * 10 ^ (-(v.interval.magnitude - 17)).toNat := by
  have hdenominator : 0 < v.interval.denominator := by
    change 0 < 2 ^ (2 - v.exponent).toNat
    positivity
  have hshifted := h.denominator_le
  have hlength : v.interval.magnitude = (Nat.toDigits 10
      (v.interval.value * 10 ^ Interval.places / v.interval.denominator)).length -
        Interval.places := by
    rw [Interval.magnitude, Nat.pow_eq]
  -- how far the value is shifted does not matter
  generalize Interval.places = shift at hshifted hlength
  obtain ⟨scaled, hscaled⟩ : ∃ scaled, scaled = v.interval.value * 10 ^ shift /
      v.interval.denominator := ⟨_, rfl⟩
  obtain ⟨size, hsize⟩ : ∃ size, size + 1 = (Nat.toDigits 10 scaled).length :=
    ⟨(Nat.toDigits 10 scaled).length - 1, Nat.sub_add_cancel Nat.length_toDigits_pos⟩
  have hmagnitude : v.interval.magnitude = ((size + 1 : Nat) : Int) - shift := by
    rw [hlength, hsize, hscaled]
  have hscaledPos : 0 < scaled := by
    rw [hscaled]
    exact Nat.div_pos hshifted hdenominator
  have hleading : 10 ^ size ≤ scaled := by
    rcases Nat.eq_zero_or_pos size with rfl | hlong
    · exact hscaledPos
    · rw [← not_lt, ← Nat.length_toDigits_le_iff (by decide) hlong]
      omega
  have hvalue : 10 ^ size * v.interval.denominator ≤ v.interval.value * 10 ^ shift := by
    rw [hscaled] at hleading
    exact (Nat.le_div_iff_mul_le hdenominator).mp hleading
  rw [hmagnitude]
  generalize hup : (((size + 1 : Nat) : Int) - shift - 17).toNat = up
  generalize hdown : (-(((size + 1 : Nat) : Int) - shift - 17)).toNat = down
  have hpowers : shift + 16 + up = size + down := by omega
  have hcancel : 10 ^ shift * (10 ^ 16 * (v.interval.denominator * 10 ^ up)) ≤
      10 ^ shift * (v.interval.value * 10 ^ down) :=
    calc 10 ^ shift * (10 ^ 16 * (v.interval.denominator * 10 ^ up))
        = 10 ^ (shift + 16 + up) * v.interval.denominator := by rw [pow_add, pow_add]; ac_rfl
      _ = 10 ^ size * v.interval.denominator * 10 ^ down := by rw [hpowers, pow_add]; ac_rfl
      _ ≤ v.interval.value * 10 ^ shift * 10 ^ down := Nat.mul_le_mul_right _ hvalue
      _ = 10 ^ shift * (v.interval.value * 10 ^ down) := by ac_rfl
  exact Nat.le_of_mul_le_mul_left hcancel (by positivity)

/-! ### Digits -/

theorem natOfDigits_append (ds es : List Nat) :
    natOfDigits (ds ++ es) = natOfDigits ds * 10 ^ es.length + natOfDigits es := by
  induction es using List.reverseRecOn with
  | nil => simp [natOfDigits]
  | append_singleton es d ih =>
    have hlast (l : List Nat) : natOfDigits (l ++ [d]) = 10 * natOfDigits l + d := by
      simp [natOfDigits]
    rw [← List.append_assoc, hlast, hlast, ih, List.length_append, List.length_singleton, pow_succ]
    ring

theorem natOfDigits_zeros (z : Nat) : natOfDigits (List.replicate z 0) = 0 := by
  induction z with
  | zero => rfl
  | succ z ih => exact ih

theorem natOfDigits_decimalDigits (n : Nat) : natOfDigits (decimalDigits n) = n :=
  (Text.valueOf_digits (Nat.toDigits 10 n)).trans Nat.ofDigitChars_ten_toDigits

structure Digits.Proper (d : Digits) : Prop where
  decimal : ∀ a ∈ d.digits, a < 10
  leading : ∃ a rest, d.digits = a :: rest ∧ a ≠ 0

theorem dropTrailingZeros_append (ds : List Nat) :
    ∃ z, dropTrailingZeros ds ++ List.replicate z 0 = ds := by
  have hzeros : (ds.reverse.takeWhile (· == 0)).reverse =
      List.replicate (ds.reverse.takeWhile (· == 0)).reverse.length 0 :=
    List.eq_replicate_of_mem fun a ha => by
      simpa using List.mem_takeWhile_imp (List.mem_reverse.mp ha)
  refine ⟨(ds.reverse.takeWhile (· == 0)).reverse.length, ?_⟩
  rw [← hzeros, dropTrailingZeros, ← List.reverse_append, List.takeWhile_append_dropWhile,
    List.reverse_reverse]

theorem toNat_of_mem_toDigits {c : Char} (hc : c ∈ Nat.toDigits 10 n) :
    48 ≤ c.toNat ∧ c.toNat ≤ 57 :=
  Text.toNat_of_isDigit (Nat.isDigit_of_mem_toDigits (by decide) (by decide) hc)

theorem decimalDigits_lt {a : Nat} (ha : a ∈ decimalDigits n) : a < 10 := by
  obtain ⟨c, hc, rfl⟩ := List.mem_map.mp ha
  have := toNat_of_mem_toDigits hc
  change c.toNat - 48 < 10
  omega

theorem decimalDigits_proper (hn : 0 < n) (e : Int) : (Digits.mk (decimalDigits n) e).Proper := by
  constructor
  · exact fun a ha => decimalDigits_lt ha
  · obtain ⟨c, cs, hcs⟩ := List.exists_cons_of_ne_nil (Nat.toDigits_ne_nil (n := n) (b := 10))
    have hfirst := Text.head?_toDigits hn
    have hdigit := toNat_of_mem_toDigits (hcs ▸ List.mem_cons_self : c ∈ Nat.toDigits 10 n)
    have hcons : decimalDigits n = (c.toNat - '0'.toNat) :: cs.map fun c =>
        c.toNat - '0'.toNat := by
      rw [decimalDigits, hcs, List.map_cons]
    refine ⟨_, _, hcons, ?_⟩
    intro hzero
    have hnat : c.toNat = '0'.toNat := by
      have : '0'.toNat = 48 := rfl
      omega
    rw [hcs, Char.toNat_inj.mp hnat] at hfirst
    exact hfirst rfl

theorem Digits.Proper.dropTrailingZeros {ds : List Nat} {e e' : Int} (h : (Digits.mk ds e).Proper) :
    (Digits.mk (dropTrailingZeros ds) e').Proper := by
  obtain ⟨z, hz⟩ := dropTrailingZeros_append ds
  obtain ⟨a, rest, hds, ha⟩ := h.leading
  constructor
  · intro b hb
    exact h.decimal b (hz ▸ List.mem_append_left _ hb)
  · rw [← hz] at hds
    change ∃ b others, Decimal.dropTrailingZeros ds = b :: others ∧ b ≠ 0
    cases hdrop : Decimal.dropTrailingZeros ds with
    | nil =>
      rw [hdrop] at hds
      change List.replicate z 0 = a :: rest at hds
      have hzero : a ∈ List.replicate z 0 := hds ▸ List.mem_cons_self
      exact absurd (List.eq_of_mem_replicate hzero) ha
    | cons b others =>
      rw [hdrop] at hds
      exact ⟨b, others, rfl, (List.cons.inj hds).1 ▸ ha⟩

theorem Dyadic.Canonical.covers_shortest (h : v.Canonical) :
    v.shortest.Proper ∧ v.Covers (natOfDigits v.shortest.digits)
      (v.shortest.exponent - v.shortest.digits.length) := by
  obtain ⟨⟨n, c⟩, hsearch⟩ := Option.isSome_iff_exists.mp
    (Interval.search_isSome (h.nearest?_isSome h.fine) (by decide : 1 ≤ 17)
      (by decide : 17 < 1 + 17))
  have hcovers := covers_of_holds (Interval.holds_of_search hsearch)
  have hdef : v.shortest = ⟨dropTrailingZeros (decimalDigits n),
      v.interval.magnitude + ((decimalDigits n).length - c : Int)⟩ := by
    unfold Dyadic.shortest
    simp only [hsearch]
  rw [hdef]
  refine ⟨(decimalDigits_proper (hcovers.pos h) 0).dropTrailingZeros, ?_⟩
  obtain ⟨z, hz⟩ := dropTrailingZeros_append (decimalDigits n)
  have hvalue : n = natOfDigits (dropTrailingZeros (decimalDigits n)) * 10 ^ z :=
    calc n = natOfDigits (dropTrailingZeros (decimalDigits n) ++ List.replicate z 0) := by
          rw [hz, natOfDigits_decimalDigits]
      _ = natOfDigits (dropTrailingZeros (decimalDigits n)) * 10 ^ z := by
          rw [natOfDigits_append, natOfDigits_zeros, List.length_replicate, add_zero]
  have hlength := congrArg List.length hz
  rw [List.length_append, List.length_replicate] at hlength
  have hexponent : v.interval.magnitude + ((decimalDigits n).length - c : Int) -
      (dropTrailingZeros (decimalDigits n)).length = v.interval.magnitude - c + z := by
    omega
  rw [hvalue] at hcovers
  simp only [hexponent]
  exact hcovers.of_mul_pow

end Booru.Decimal
