import Booru.Proofs.Decimal.Numeral

/-! Texts that are read as decimal numbers: ASCII digits, and digits on at least one side of a point
with or without an exponent. -/

namespace Booru.Decimal

open Text

variable {whole fraction behind power cs : List Char} {ns : List Nat}

theorem exists_digitChars (h : ∀ c ∈ cs, c.isDigit = true) : ∃ ds, (∀ a ∈ ds, a < 10) ∧
    cs = digitChars ds := by
  refine ⟨cs.map fun c => c.toNat - 48, fun a ha => ?_, ?_⟩
  · obtain ⟨c, hc, rfl⟩ := List.mem_map.mp ha
    have := toNat_of_isDigit (h c hc)
    omega
  · rw [digitChars, List.map_map]
    refine ((List.map_congr_left fun c hc => ?_).trans (List.map_id _)).symm
    have hdigit := toNat_of_isDigit (h c hc)
    apply Char.toNat_inj.mp
    rw [Function.comp_apply, Nat.toNat_digitChar_of_lt_ten (by omega), id_eq]
    omega

theorem digitRun_digits (h : ∀ c ∈ cs, c.isDigit = true) (hstops : Stops behind) :
    ∃ ds, (∀ b, digitRun b (cs ++ behind) = (ds, behind)) ∧ ds.length = cs.length := by
  obtain ⟨ds, hds, rfl⟩ := exists_digitChars h
  exact ⟨ds, digitRun_digitChars hds hstops, (List.length_map _).symm⟩

def IsPower (power : List Char) : Prop :=
  power = [] ∨ ∃ sign ds, power = 'e' :: sign :: ds ∧ (sign = '+' ∨ sign = '-') ∧ ds ≠ [] ∧
    ∀ c ∈ ds, c.isDigit = true

theorem IsPower.stops (h : IsPower power) : Stops power := by
  obtain rfl | ⟨sign, ds, rfl, -, -, -⟩ := h
  · exact stops_nil
  · exact stops_cons (by rfl) (by decide)

theorem IsPower.exponentPart (h : IsPower power) : (exponentPart power).2 = [] := by
  obtain rfl | ⟨sign, ds, rfl, hsign, hne, hds⟩ := h
  · rfl
  · obtain ⟨ns, hrun, hlength⟩ := digitRun_digits hds stops_nil
    have hsome : ns.isEmpty = false := by
      rw [List.isEmpty_eq_false_iff, ← List.length_pos_iff, hlength]
      exact List.length_pos_iff.mpr hne
    have hds' : digitRun false ds = (ns, []) := by simpa using hrun false
    rcases hsign with rfl | rfl <;> simp [Decimal.exponentPart, signOf, hds', hsome]

theorem unsigned?_eq_none {c : Char} (hstops : Stops (c :: behind)) (hpoint : c ≠ '.') :
    unsigned? (c :: behind) = none := by
  simp [unsigned?, hstops false, fractionPart, hpoint]

theorem signOf_of_unsigned? (h : (unsigned? cs).isSome = true) : signOf cs = (false, cs) := by
  unfold signOf
  split
  · rw [unsigned?_eq_none (stops_cons (by rfl) (by decide)) (by decide)] at h
    cases h
  · rw [unsigned?_eq_none (stops_cons (by rfl) (by decide)) (by decide)] at h
    cases h
  · rfl

theorem read?_of_unsigned? (hplain : ∀ c ∈ cs, isBlank c = false)
    (h : (unsigned? cs).isSome = true) :
    (read? (String.ofList cs)).isSome = true := by
  have htrim : trim cs = cs := by
    rw [trim, dropWhile_eq_self fun c hc => hplain c (List.mem_of_mem_head? hc),
      dropEndWhile_eq_self fun c hc => hplain c (List.mem_of_getLast? hc)]
  have hmagnitude : (magnitude? cs).isSome = true := by
    unfold magnitude?
    split
    · rfl
    · rfl
    · rfl
    · exact h
  rw [read?, String.toList_ofList, htrim, signOf_of_unsigned? h, Option.isSome_map]
  exact hmagnitude

theorem IsPower.isBlank (h : IsPower power) {c : Char} (hc : c ∈ power) : isBlank c = false := by
  obtain rfl | ⟨sign, ds, rfl, hsign, -, hds⟩ := h
  · cases hc
  · rcases List.mem_cons.mp hc with rfl | hc
    · decide
    rcases List.mem_cons.mp hc with rfl | hc
    · rcases hsign with rfl | rfl <;> decide
    · exact isBlank_of_isDigit (hds c hc)

theorem IsPower.colon_notMem (h : IsPower power) : ':' ∉ power := by
  obtain rfl | ⟨sign, ds, rfl, hsign, -, hds⟩ := h
  · exact List.not_mem_nil
  · have hdigits : ':' ∉ ds := fun hmem => absurd (hds _ hmem) (by decide)
    rcases hsign with rfl | rfl <;> simp [hdigits]

theorem read?_digits (hne : cs ≠ []) (h : ∀ c ∈ cs, c.isDigit = true) :
    (read? (String.ofList cs)).isSome = true := by
  obtain ⟨ns, hrun, hlength⟩ := digitRun_digits h stops_nil
  have hsome : ns ≠ [] := List.length_pos_iff.mp (hlength ▸ List.length_pos_iff.mpr hne)
  have hdigits : digitRun false cs = (ns, []) := by simpa using hrun false
  refine read?_of_unsigned? (fun c hc => isBlank_of_isDigit (h c hc)) ?_
  simp [unsigned?, hdigits, fractionPart, exponentPart, hsome]

theorem read?_point (hwhole : ∀ c ∈ whole, c.isDigit = true)
    (hfraction : ∀ c ∈ fraction, c.isDigit = true) (hpower : IsPower power)
    (hne : whole ≠ [] ∨ fraction ≠ []) :
    (read? (String.ofList (whole ++ '.' :: (fraction ++ power)))).isSome = true := by
  refine read?_of_unsigned? (fun c hc => ?_) ?_
  · simp only [List.mem_append, List.mem_cons] at hc
    rcases hc with hc | rfl | hc | hc
    · exact isBlank_of_isDigit (hwhole c hc)
    · decide
    · exact isBlank_of_isDigit (hfraction c hc)
    · exact hpower.isBlank hc
  · obtain ⟨ns, hrun, hlength⟩ :=
      digitRun_digits hwhole (@stops_cons (fraction ++ power) '.' (by rfl) (by decide))
    obtain ⟨ms, hrest, hlength'⟩ := digitRun_digits hfraction hpower.stops
    have hsome : (ns.isEmpty && ms.isEmpty) = false := by
      rw [← Bool.not_eq_true, Bool.and_eq_true, List.isEmpty_iff_length_eq_zero,
        List.isEmpty_iff_length_eq_zero, hlength, hlength', List.length_eq_zero_iff,
        List.length_eq_zero_iff]
      exact not_and_or.mpr hne
    simp [unsigned?, hrun, fractionPart, hrest, hsome, hpower.exponentPart]

end Booru.Decimal
