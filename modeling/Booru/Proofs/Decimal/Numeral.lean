import Mathlib.Tactic.IntervalCases
import Booru.Proofs.Decimal.Shortest

/-! Written numbers. Every layout of a finite double is a numeral: digits on both sides of a
point, or an exponent, and the number that it stands for is near the double. So a double that is
written is read back. -/

namespace Booru.Decimal

structure Numeral where
  whole : List Nat
  fraction : List Nat
  power : Option Int

def digitChars (ds : List Nat) : List Char := ds.map Nat.digitChar

def powerDigits (size : Nat) : List Nat :=
  if (decimalDigits size).length < 2 then 0 :: decimalDigits size else decimalDigits size

def powerChars (p : Int) : List Char :=
  'e' :: (if p < 0 then '-' else '+') :: digitChars (powerDigits p.natAbs)

namespace Numeral

def fractionChars (n : Numeral) : List Char := if n.fraction = [] then []
    else '.' :: digitChars n.fraction

def chars (n : Numeral) : List Char :=
  digitChars n.whole ++ (n.fractionChars ++ n.power.elim [] powerChars)

def mantissa (n : Numeral) : Nat := natOfDigits (n.whole ++ n.fraction)

def exponent (n : Numeral) : Int := n.power.getD 0 - n.fraction.length

/-- A numeral that is not taken for an integer and has no zero in front of other digits. -/
structure Proper (n : Numeral) : Prop where
  wholeDecimal : ∀ a ∈ n.whole, a < 10
  fractionDecimal : ∀ a ∈ n.fraction, a < 10
  leading : ∃ a rest, n.whole = a :: rest ∧ (a = 0 → rest = [])
  broken : n.fraction ≠ [] ∨ n.power.isSome

end Numeral

variable {ds : List Nat} {rest : List Char} {n : Numeral}

/-! ### Reading a numeral -/

theorem digitValue?_digitChar {a : Nat} (h : a < 10) :
    Text.digitValue? (Nat.digitChar a) = some a := by
  have hdigit : (Nat.digitChar a).isDigit = true := by rw [Nat.isDigit_digitChar, decide_eq_true h]
  rw [Text.digitValue_of_isDigit hdigit, Nat.toNat_digitChar_of_lt_ten h]
  simp

theorem digitChars_decimalDigits (size : Nat) : digitChars (decimalDigits size) =
    Nat.toDigits 10 size := by
  have hchar : ∀ c ∈ Nat.toDigits 10 size, Nat.digitChar (c.toNat - '0'.toNat) = c := by
    intro c hc
    have hdigit := toNat_of_mem_toDigits hc
    have hzero : '0'.toNat = 48 := rfl
    apply Char.toNat_inj.mp
    rw [Nat.toNat_digitChar_of_lt_ten (by omega)]
    omega
  rw [digitChars, decimalDigits, List.map_map]
  exact (List.map_congr_left hchar).trans (List.map_id _)

/-- What does not go on with a number. -/
def Stops (cs : List Char) : Prop := ∀ b, digitRun b cs = ([], cs)

theorem digitRun_digitChars (hds : ∀ a ∈ ds, a < 10) (hrest : Stops rest) (b : Bool) :
    digitRun b (digitChars ds ++ rest) = (ds, rest) := by
  induction ds generalizing b with
  | nil => exact hrest b
  | cons d ds ih =>
    have htail := ih (fun a ha => hds a (List.mem_cons_of_mem d ha)) true
    change digitRun b (Nat.digitChar d :: (digitChars ds ++ rest)) = _
    rw [digitRun, digitValue?_digitChar (hds d List.mem_cons_self)]
    simp only [htail]

theorem stops_nil : Stops [] := fun _ => rfl

theorem stops_cons {c : Char} (hdigit : Text.digitValue? c = none) (hmark : c ≠ '_') :
    Stops (c :: rest) := by
  intro b
  rw [digitRun, hdigit]
  simp [hmark]

theorem powerDigits_lt {a size : Nat} (ha : a ∈ powerDigits size) : a < 10 := by
  unfold powerDigits at ha
  split at ha
  · rcases List.mem_cons.mp ha with rfl | ha
    · decide
    · exact decimalDigits_lt ha
  · exact decimalDigits_lt ha

theorem natOfDigits_powerDigits (size : Nat) : natOfDigits (powerDigits size) = size := by
  unfold powerDigits
  split
  · exact natOfDigits_decimalDigits size
  · exact natOfDigits_decimalDigits size

theorem powerDigits_ne_nil (size : Nat) : powerDigits size ≠ [] := by
  unfold powerDigits
  split
  · exact List.cons_ne_nil _ _
  · rename_i hlong
    intro hnil
    rw [hnil] at hlong
    exact hlong (by decide)

theorem exponentPart_powerChars (p : Int) : exponentPart (powerChars p) = (p, []) := by
  have hrun : digitRun false (digitChars (powerDigits p.natAbs)) = (powerDigits p.natAbs, []) := by
    simpa using digitRun_digitChars (fun a ha => powerDigits_lt ha) stops_nil false
  have hsome : (powerDigits p.natAbs).isEmpty = false :=
    List.isEmpty_eq_false_iff.mpr (powerDigits_ne_nil _)
  unfold powerChars
  split
  · rename_i hneg
    have hsize : -(p.natAbs : Int) = p := by omega
    simp only [exponentPart, signOf, hrun, hsome, natOfDigits_powerDigits, hsize]
    rfl
  · rename_i hpos
    have hsize : (p.natAbs : Int) = p := by omega
    simp only [exponentPart, signOf, hrun, hsome, natOfDigits_powerDigits, hsize]
    rfl

namespace Numeral

theorem stops_power (n : Numeral) : Stops (n.power.elim [] powerChars) := by
  cases n.power with
  | none => exact stops_nil
  | some p => exact stops_cons (by rfl) (by decide)

theorem stops_fraction (n : Numeral) : Stops (n.fractionChars ++ n.power.elim [] powerChars) := by
  unfold fractionChars
  split
  · exact n.stops_power
  · exact stops_cons (by rfl) (by decide)

theorem Proper.unsigned?_chars (h : n.Proper) :
    unsigned? n.chars = some (nearest n.mantissa n.exponent) := by
  have hwhole := digitRun_digitChars h.wholeDecimal n.stops_fraction false
  have hfraction := digitRun_digitChars h.fractionDecimal n.stops_power false
  obtain ⟨a, rest, hleading, -⟩ := h.leading
  have hsome : n.whole.isEmpty = false := by rw [hleading]; rfl
  have hpower : exponentPart (n.power.elim [] powerChars) = (n.power.getD 0, []) := by
    cases n.power with
    | none => rfl
    | some p => exact exponentPart_powerChars p
  have hpoint : fractionPart (n.fractionChars ++ n.power.elim [] powerChars) =
      (n.fraction, n.power.elim [] powerChars) := by
    unfold fractionChars
    split
    · rename_i hnone
      rw [hnone, List.nil_append]
      cases n.power <;> rfl
    · exact hfraction
  unfold unsigned? chars
  rw [hwhole]
  simp only [hpoint, hsome, hpower, Bool.false_and, Bool.false_eq_true, if_false,
    List.isEmpty_nil, if_true]
  rfl

theorem Proper.head (h : n.Proper) : ∃ a cs, n.chars = Nat.digitChar a :: cs ∧ a < 10 := by
  obtain ⟨a, rest, hleading, -⟩ := h.leading
  refine ⟨a, digitChars rest ++ (n.fractionChars ++ n.power.elim [] powerChars), ?_,
    h.wholeDecimal a (hleading ▸ List.mem_cons_self)⟩
  rw [chars, hleading]
  rfl

theorem Proper.not_isBlank (h : n.Proper) {c : Char} (hc : c ∈ n.chars) :
    Text.isBlank c = false := by
  have hdigits (ds : List Nat) (hds : ∀ a ∈ ds, a < 10) (hc : c ∈ digitChars ds) :
      Text.isBlank c = false := by
    obtain ⟨a, ha, rfl⟩ := List.mem_map.mp hc
    exact Text.isBlank_of_isDigit (by rw [Nat.isDigit_digitChar, decide_eq_true (hds a ha)])
  rcases List.mem_append.mp hc with hc | hc
  · exact hdigits _ h.wholeDecimal hc
  rcases List.mem_append.mp hc with hc | hc
  · unfold fractionChars at hc
    split at hc
    · cases hc
    · rcases List.mem_cons.mp hc with rfl | hc
      · decide
      · exact hdigits _ h.fractionDecimal hc
  · cases hpower : n.power with
    | none =>
      rw [hpower] at hc
      cases hc
    | some p =>
      rw [hpower] at hc
      rcases List.mem_cons.mp hc with rfl | hc
      · decide
      rcases List.mem_cons.mp hc with rfl | hc
      · split <;> decide
      · exact hdigits _ (fun a ha => powerDigits_lt ha) hc

theorem Proper.read?_chars (h : n.Proper) (negative : Bool) :
    read? (String.ofList ((if negative then ['-'] else []) ++ n.chars)) =
      some (if negative then -nearest n.mantissa n.exponent
        else nearest n.mantissa n.exponent) := by
  obtain ⟨a, cs, hchars, ha⟩ := h.head
  have hplain : ∀ c ∈ (if negative then ['-'] else []) ++ n.chars, Text.isBlank c = false := by
    intro c hc
    rcases List.mem_append.mp hc with hc | hc
    · cases negative
      · cases hc
      · rw [List.mem_singleton.mp hc]
        decide
    · exact h.not_isBlank hc
  have htrim : Text.trim ((if negative then ['-'] else []) ++ n.chars) =
      (if negative then ['-'] else []) ++ n.chars := by
    rw [Text.trim, Text.dropWhile_eq_self fun c hc => hplain c (List.mem_of_mem_head? hc),
      Text.dropEndWhile_eq_self fun c hc => hplain c (List.mem_of_getLast? hc)]
  have hsign : signOf ((if negative then ['-'] else []) ++ n.chars) = (negative, n.chars) := by
    cases negative
    · change signOf n.chars = _
      rw [hchars]
      interval_cases a <;> rfl
    · rfl
  have hlower : (asciiLower n.chars).toList.head? = some (Nat.digitChar a) := by
    have hsame : ∀ a < 10, (Nat.digitChar a).toLower = Nat.digitChar a := by decide
    rw [asciiLower, String.toList_ofList, hchars, List.map_cons, hsame a ha, List.head?_cons]
  -- no word begins with a digit
  have hword (w : String) (hw : ∀ a < 10, w.toList.head? ≠ some (Nat.digitChar a)) :
      asciiLower n.chars ≠ w := by
    rintro rfl
    exact hw a ha hlower
  have hmagnitude : magnitude? n.chars = some (nearest n.mantissa n.exponent) := by
    unfold magnitude?
    split
    · exact absurd ‹_› (hword _ (by decide))
    · exact absurd ‹_› (hword _ (by decide))
    · exact absurd ‹_› (hword _ (by decide))
    · exact h.unsigned?_chars
  unfold read?
  rw [String.toList_ofList, htrim, hsign]
  simp only [hmagnitude, Option.map_some]

end Numeral

/-! ### Layouts -/

variable {d : Digits} {v : Dyadic} {x : Float}

theorem toList_digitText (ds : List Nat) : (digitText ds).toList = digitChars ds :=
  String.toList_ofList

theorem toList_zeros (z : Nat) : (zeros z).toList = digitChars (List.replicate z 0) := by
  rw [zeros, String.toList_ofList, digitChars, List.map_replicate]
  rfl

/-- A numeral that stands for the number of these digits. -/
structure Numeral.Shows (n : Numeral) (v : Dyadic) (d : Digits) : Prop where
  proper : n.Proper
  covers : v.Covers (natOfDigits d.digits) (d.exponent - d.digits.length) →
    v.Covers n.mantissa n.exponent

theorem Numeral.covers_of_digits {y z : Nat}
    (hdigits : n.whole ++ n.fraction = List.replicate y 0 ++ (d.digits ++ List.replicate z 0))
    (hexponent : n.exponent + z = d.exponent - d.digits.length)
    (h : v.Covers (natOfDigits d.digits) (d.exponent - d.digits.length)) :
    v.Covers n.mantissa n.exponent := by
  have hmantissa : n.mantissa = natOfDigits d.digits * 10 ^ z := by
    rw [Numeral.mantissa, hdigits, natOfDigits_append, natOfDigits_append,
      natOfDigits_zeros, natOfDigits_zeros, List.length_replicate, zero_mul, zero_add, add_zero]
  rw [hmantissa]
  rw [← hexponent] at h
  exact h.mul_pow z

theorem lt_of_mem_zeros {a z : Nat} (ha : a ∈ List.replicate z 0) : a < 10 := by
  rw [List.eq_of_mem_replicate ha]
  decide

theorem Layout.positional_shows (h : d.Proper) :
    ∃ n : Numeral, n.Shows v d ∧ (Layout.positional d).toList = n.chars := by
  obtain ⟨a, rest, hleading, ha⟩ := h.leading
  have hnonempty : d.digits ≠ [] := by rw [hleading]; exact List.cons_ne_nil a rest
  unfold Layout.positional
  simp only
  split
  · refine ⟨⟨[0], List.replicate (-d.exponent).toNat 0 ++ d.digits, none⟩,
      ⟨⟨?_, ?_, ?_, ?_⟩, ?_⟩, ?_⟩
    · exact fun b hb => lt_of_mem_zeros (z := 1) hb
    · exact fun b hb => (List.mem_append.mp hb).elim lt_of_mem_zeros (h.decimal b)
    · exact ⟨0, [], rfl, fun _ => rfl⟩
    · exact .inl (List.append_ne_nil_of_right_ne_nil _ hnonempty)
    · exact Numeral.covers_of_digits (y := (-d.exponent).toNat + 1) (z := 0)
        (by simp [List.replicate_succ])
        (by simp [Numeral.exponent]; omega)
    · simp [toList_digitText, toList_zeros, Numeral.chars, Numeral.fractionChars,
        hnonempty, digitChars]
  · split
    · rename_i hlong
      refine ⟨⟨d.digits ++ List.replicate (d.exponent - d.digits.length).toNat 0, [0], none⟩,
        ⟨⟨?_, ?_, ?_, ?_⟩, ?_⟩, ?_⟩
      · exact fun b hb => (List.mem_append.mp hb).elim (h.decimal b) lt_of_mem_zeros
      · exact fun b hb => lt_of_mem_zeros (z := 1) hb
      · exact ⟨a, _, by rw [hleading]; rfl, fun hzero => absurd hzero ha⟩
      · exact .inl (List.cons_ne_nil 0 [])
      · exact Numeral.covers_of_digits (y := 0) (z := (d.exponent - d.digits.length).toNat + 1)
          (by simp [List.replicate_succ']) (by simp [Numeral.exponent]; omega)
      · simp [toList_digitText, toList_zeros, Numeral.chars, Numeral.fractionChars, digitChars]
    · rename_i hpos hshort
      refine ⟨⟨d.digits.take d.exponent.toNat, d.digits.drop d.exponent.toNat, none⟩,
        ⟨⟨?_, ?_, ?_, ?_⟩, ?_⟩, ?_⟩
      · exact fun b hb => h.decimal b (List.mem_of_mem_take hb)
      · exact fun b hb => h.decimal b (List.mem_of_mem_drop hb)
      · obtain ⟨j, hj⟩ : ∃ j, d.exponent.toNat = j + 1 := ⟨d.exponent.toNat - 1, by omega⟩
        exact ⟨a, rest.take j, by rw [hleading, hj]; rfl, fun hzero => absurd hzero ha⟩
      · refine .inl fun hnil => ?_
        have := List.drop_eq_nil_iff.mp hnil
        omega
      · exact Numeral.covers_of_digits (y := 0) (z := 0) (by simp)
          (by simp [Numeral.exponent]; omega)
      · have hnonempty : d.digits.drop d.exponent.toNat ≠ [] := by
          intro hnil
          have := List.drop_eq_nil_iff.mp hnil
          omega
        simp [toList_digitText, Numeral.chars, Numeral.fractionChars, hnonempty, digitChars]

theorem toList_powerText (size : Nat) :
    (if (toString size).length < 2 then "0" ++ toString size else toString size).toList =
      digitChars (powerDigits size) := by
  have hsize : (toString size).toList = digitChars (decimalDigits size) :=
    Nat.toList_repr.trans (digitChars_decimalDigits size).symm
  have hlength : (toString size).length = (decimalDigits size).length := by
    rw [← String.length_toList, hsize, digitChars, List.length_map]
  rw [hlength, powerDigits]
  split
  · rw [String.toList_append, hsize]
    rfl
  · exact hsize

theorem Layout.scientific_shows (h : d.Proper) :
    ∃ n : Numeral, n.Shows v d ∧ (Layout.scientific d).toList = n.chars := by
  obtain ⟨a, rest, hleading, ha⟩ := h.leading
  refine ⟨⟨[a], rest, some (d.exponent - 1)⟩, ⟨⟨?_, ?_, ?_, ?_⟩, ?_⟩, ?_⟩
  · exact fun b hb => h.decimal b
      (by rw [hleading, List.mem_singleton.mp hb]; exact List.mem_cons_self)
  · exact fun b hb => h.decimal b (by rw [hleading]; exact List.mem_cons_of_mem a hb)
  · exact ⟨a, [], rfl, fun _ => rfl⟩
  · exact .inr rfl
  · exact Numeral.covers_of_digits (y := 0) (z := 0) (by simp [hleading])
      (by simp [Numeral.exponent, hleading]; omega)
  · unfold Layout.scientific
    simp only [hleading]
    have hsign : (if d.exponent - 1 < 0 then "-" else "+").toList =
        [if d.exponent - 1 < 0 then '-' else '+'] := by
      split <;> rfl
    simp only [String.toList_append, toList_powerText, hsign]
    cases rest <;> simp [toList_digitText, Numeral.chars, Numeral.fractionChars,
      powerChars, digitChars]

/-! ### Reading what was written -/

theorem zero_proper : (Numeral.mk [0] [0] none).Proper :=
  ⟨fun _ hb => lt_of_mem_zeros (z := 1) hb, fun _ hb => lt_of_mem_zeros (z := 1) hb,
    ⟨0, [], rfl, fun _ => rfl⟩, .inl (List.cons_ne_nil 0 [])⟩

theorem read?_zero (negative : Bool) :
    read? (String.ofList ((if negative then ['-'] else []) ++ (Numeral.mk [0] [0] none).chars)) =
      some (.ofModel (.pack (.zero (if negative then .negative else .positive)))) := by
  rw [zero_proper.read?_chars]
  cases negative <;> rfl

theorem Layout.exists_shows (l : Layout) (h : d.Proper) : ∃ n : Numeral, n.Shows v d ∧
    (if l.least < d.exponent && d.exponent ≤ l.most then Layout.positional d
      else Layout.scientific d).toList = n.chars := by
  split
  · exact positional_shows h
  · exact scientific_shows h

theorem Layout.exists_numeral (l : Layout) (hx : x.isFinite = true) :
    ∃ (negative : Bool) (n : Numeral), n.Proper ∧
      (l.text x).toList = (if negative then ['-'] else []) ++ n.chars ∧
      read? (l.text x) = some x := by
  obtain ⟨hnan, hinf⟩ := special_of_isFinite hx
  obtain ⟨negative, hmark, hbit⟩ : ∃ negative : Bool,
      (if x.toBits.toNat < 0x8000000000000000 then "" else "-").toList =
        (if negative then ['-'] else []) ∧ signBit x = if negative then .negative
          else .positive := by
    by_cases hsign : x.toBits.toNat < 0x8000000000000000
    · exact ⟨false, by rw [if_pos hsign]; rfl, if_pos hsign⟩
    · exact ⟨true, by rw [if_neg hsign]; rfl, if_neg hsign⟩
  obtain ⟨n, hproper, hchars, hread⟩ : ∃ n : Numeral, n.Proper ∧
      (l.text x).toList = (if negative then ['-'] else []) ++ n.chars ∧
        read? (String.ofList ((if negative then ['-'] else []) ++ n.chars)) = some x := by
    unfold Layout.text
    simp only [hnan, hinf, Bool.false_eq_true, if_false, String.toList_append, hmark]
    cases hv : Dyadic.ofFloat? x with
    | none =>
      refine ⟨⟨[0], [0], none⟩, zero_proper, ?_, ?_⟩
      · simp [Numeral.chars, Numeral.fractionChars, digitChars]
      rw [read?_zero, ← hbit, ← eq_zero hv]
    | some v =>
      have hcanonical := canonical_of_ofFloat? hx hv
      obtain ⟨hdigits, hcovers⟩ := hcanonical.covers_shortest
      obtain ⟨n, hshows, hchars⟩ := l.exists_shows (v := v) hdigits
      refine ⟨n, hshows.proper, congrArg _ hchars, ?_⟩
      rw [hshows.proper.read?_chars, nearest_of_covers hcanonical (hshows.covers hcovers),
        hcanonical.neg_float, eq_float hx hv, hbit]
      cases negative <;> rfl
  refine ⟨negative, n, hproper, hchars, ?_⟩
  rw [← hchars, String.ofList_toList] at hread
  exact hread

end Booru.Decimal
