import Booru.Proofs.Text.Casing
import Booru.Text.Character

/-! Letters and white space, by their tables. No letter is white space, and a capital of the table
is a letter exactly if its small letter is one. -/

namespace Booru.Text

/-! ### Ranges -/

def Ranges.coversSteps (rs : Ranges) (first last step : Nat) : Bool :=
  rs.any (fun r => Nat.ble last r.2 && Nat.ble r.1 first) ||
    (List.range ((last - first) / step + 1)).all fun k => rs.covers (first + step * k)

def Ranges.misses (rs : Ranges) (first last : Nat) : Bool :=
  rs.all fun r => Nat.blt last r.1 || Nat.blt r.2 first

theorem Ranges.covers_of_coversSteps {rs : Ranges} {first last step n : Nat}
    (h : rs.coversSteps first last step = true) (hfirst : first ≤ n) (hlast : n ≤ last)
    (hstep : (n - first) % step = 0) : rs.covers n = true := by
  simp only [Ranges.coversSteps, Bool.or_eq_true, List.any_eq_true,
    List.all_eq_true, Bool.and_eq_true, Nat.ble_eq] at h
  rcases h with ⟨r, hr, hhi, hlo⟩ | heach
  · exact (Ranges.covers_iff _ _).mpr ⟨r, hr, by omega, by omega⟩
  · have hsteps : first + step * ((n - first) / step) = n := by
      have := Nat.div_add_mod (n - first) step
      omega
    rw [← hsteps]
    exact heach _ (List.mem_range.mpr (Nat.lt_succ_of_le (Nat.div_le_div_right (by omega))))

theorem Ranges.covers_of_misses {rs : Ranges} {first last n : Nat} (h : rs.misses first last = true)
    (hfirst : first ≤ n) (hlast : n ≤ last) : rs.covers n = false := by
  rw [Bool.eq_false_iff]
  intro hcov
  obtain ⟨r, hr, hlo, hhi⟩ := (Ranges.covers_iff _ _).mp hcov
  have hout := List.all_eq_true.mp h r hr
  simp only [Bool.or_eq_true, Nat.blt_eq] at hout
  omega

/-- Neither the capitals of the run nor its small letters lie in the ranges. -/
def CaseRun.avoids (r : CaseRun) (rs : Ranges) : Bool :=
  rs.misses r.first r.last && rs.misses r.low r.high

theorem CaseRun.uncovered {r : CaseRun} {rs : Ranges} {n : Nat} (hr : r ∈ lowerRuns)
    (h : r.avoids rs = true) (hcov : r.covers n = true) :
    rs.covers n = false ∧ rs.covers (r.apply n).toNat = false := by
  rw [CaseRun.avoids, Bool.and_eq_true] at h
  obtain ⟨hfirst, hlast, -⟩ := CaseRun.covers_iff.mp hcov
  obtain ⟨hval, hlow, hhigh⟩ := CaseRun.shifted (CaseRun.sane_of_mem hr) hcov
  rw [← hval] at hlow hhigh
  exact ⟨Ranges.covers_of_misses h.1 hfirst hlast, Ranges.covers_of_misses h.2 hlow hhigh⟩

/-! ### White space -/

def blankRanges : Ranges :=
  [(9, 13), (28, 32), (0x85, 0x85), (0xA0, 0xA0), (0x1680, 0x1680),
    (0x2000, 0x200A), (0x2028, 0x2029), (0x202F, 0x202F), (0x205F, 0x205F), (0x3000, 0x3000)]

theorem isBlank_eq_covers (c : Char) : isBlank c = blankRanges.covers c.toNat := by
  rw [Bool.eq_iff_iff, Ranges.covers_iff]
  simp only [isBlank, blankRanges, Bool.or_eq_true, Bool.and_eq_true, decide_eq_true_eq, beq_iff_eq,
    List.mem_cons, List.not_mem_nil, or_false, exists_eq_or_imp, exists_eq_left]
  omega

theorem isBlank_of_misses {c : Char} {first last : Nat} (h : blankRanges.misses first last = true)
    (hfirst : first ≤ c.toNat) (hlast : c.toNat ≤ last) : isBlank c = false := by
  rw [isBlank_eq_covers]
  exact Ranges.covers_of_misses h hfirst hlast

set_option maxRecDepth 4000 in
theorem alphanumericRanges_unblank :
    (alphanumericRanges.all fun r => blankRanges.misses r.1 r.2) = true := by decide

theorem isBlank_of_isAlphanumeric {c : Char} (hc : ¬ c.toNat < 128) (h : isAlphanumeric c = true) :
    isBlank c = false := by
  rw [isAlphanumeric, if_neg hc] at h
  obtain ⟨r, hr, hlo, hhi⟩ := (Ranges.covers_iff _ _).mp h
  exact isBlank_of_misses (List.all_eq_true.mp alphanumericRanges_unblank r hr) hlo hhi

/-! ### Letters in two cases -/

def bicameralRanges : Ranges :=
  [(0xC0, 0xD6), (0xD8, 0xF6), (0xF8, 0x2C1), (0x370, 0x374), (0x376, 0x377), (0x37A, 0x37D),
   (0x37F, 0x37F), (0x386, 0x386), (0x388, 0x38A), (0x38C, 0x38C), (0x38E, 0x3A1), (0x3A3, 0x3F5),
   (0x3F7, 0x481), (0x48A, 0x52F), (0x531, 0x556), (0x560, 0x588), (0x10A0, 0x10C5),
   (0x10C7, 0x10C7), (0x10CD, 0x10CD), (0x10D0, 0x10FA), (0x10FC, 0x1248), (0x13A0, 0x13F5),
   (0x13F8, 0x13FD), (0x1C90, 0x1CBA), (0x1CBD, 0x1CBF), (0x1D00, 0x1DBF), (0x1E00, 0x1F15),
   (0x1F18, 0x1F1D), (0x1F20, 0x1F45), (0x1F48, 0x1F4D), (0x1F50, 0x1F57), (0x1F59, 0x1F59),
   (0x1F5B, 0x1F5B), (0x1F5D, 0x1F5D), (0x1F5F, 0x1F7D), (0x1F80, 0x1FB4), (0x1FB6, 0x1FBC),
   (0x1FC2, 0x1FC4), (0x1FC6, 0x1FCC), (0x1FD0, 0x1FD3), (0x1FD6, 0x1FDB), (0x1FE0, 0x1FEC),
   (0x1FF2, 0x1FF4), (0x1FF6, 0x1FFC), (0x2126, 0x2126), (0x212A, 0x212D), (0x212F, 0x2139),
   (0x214E, 0x214E), (0x2150, 0x2189), (0x2C00, 0x2CE4), (0x2CEB, 0x2CEE), (0x2CF2, 0x2CF3),
   (0x2D00, 0x2D25), (0x2D27, 0x2D27), (0x2D2D, 0x2D2D), (0xA640, 0xA66E), (0xA67F, 0xA69D),
   (0xA722, 0xA788), (0xA78B, 0xA7CA), (0xA7D0, 0xA7D1), (0xA7D5, 0xA7D9), (0xA7F2, 0xA801),
   (0xAB30, 0xAB5A), (0xAB70, 0xABE2), (0xFF21, 0xFF3A), (0xFF41, 0xFF5A), (0x10400, 0x1049D),
   (0x104B0, 0x104D3), (0x104D8, 0x104FB), (0x10570, 0x1057A), (0x1057C, 0x1058A),
   (0x1058C, 0x10592), (0x10594, 0x10595), (0x10597, 0x105A1), (0x105A3, 0x105B1),
   (0x105B3, 0x105B9), (0x105BB, 0x105BC), (0x10C80, 0x10CB2), (0x10CC0, 0x10CF2),
   (0x118A0, 0x118F2), (0x16E40, 0x16E96), (0x1E900, 0x1E943)]

set_option maxRecDepth 4000 in
theorem bicameralRanges_sublist : bicameralRanges.Sublist alphanumericRanges :=
  List.isSublist_iff_sublist.mp (by decide)

theorem covers_of_bicameral {n : Nat} (h : bicameralRanges.covers n = true) :
    alphanumericRanges.covers n = true := by
  obtain ⟨r, hr, hlo, hhi⟩ := (Ranges.covers_iff _ _).mp h
  exact (Ranges.covers_iff _ _).mpr ⟨r, bicameralRanges_sublist.subset hr, hlo, hhi⟩

def CaseRun.lettered (r : CaseRun) : Bool :=
  Nat.ble 128 r.first &&
    (bicameralRanges.coversSteps r.first r.last r.step &&
        (Nat.ble 128 r.low && bicameralRanges.coversSteps r.low r.high r.step || r.low ==
          0x6B && r.high == 0x6B) ||
      Nat.ble 128 r.low && alphanumericRanges.misses r.first r.last &&
        alphanumericRanges.misses r.low r.high)

set_option maxRecDepth 4000 in
theorem lowerRuns_lettered : lowerRuns.all CaseRun.lettered = true := by decide

theorem CaseRun.isAlphanumeric_apply {r : CaseRun} {c : Char} (hr : r ∈ lowerRuns)
    (hcov : r.covers c.toNat = true) :
    128 ≤ c.toNat ∧ isAlphanumeric (r.apply c.toNat) = isAlphanumeric c := by
  have hlettered := List.all_eq_true.mp lowerRuns_lettered r hr
  have hsane := CaseRun.sane_of_mem hr
  obtain ⟨hval, hlow, hhigh⟩ := CaseRun.shifted hsane hcov
  obtain ⟨hfirst, hlast, hstep⟩ := CaseRun.covers_iff.mp hcov
  simp only [CaseRun.lettered, Bool.and_eq_true, Bool.or_eq_true, Nat.ble_eq, beq_iff_eq]
    at hlettered
  obtain ⟨habove, hcases⟩ := hlettered
  have hc : ¬ c.toNat < 128 := by omega
  refine ⟨by omega, ?_⟩
  rw [← hval] at hlow hhigh
  -- both cases are letters, or the run is the Kelvin sign alone, or neither case is a letter
  rcases hcases with ⟨hcapitals, ⟨hbeyond, hsmall⟩ | ⟨hk, hk'⟩⟩ | ⟨⟨hbeyond, hnone⟩, hnone'⟩
  · have hstep' : ((r.apply c.toNat).toNat - r.low) % r.step = 0 := by
      simp only [CaseRun.sane, Bool.or_eq_true, Bool.and_eq_true, decide_eq_true_eq] at hsane
      have hsame : (r.apply c.toNat).toNat - r.low = c.toNat - r.first := by
        unfold CaseRun.low
        omega
      rw [hsame, hstep]
    rw [isAlphanumeric, isAlphanumeric, if_neg hc, if_neg (by omega),
      covers_of_bicameral (Ranges.covers_of_coversSteps hcapitals hfirst hlast hstep),
      covers_of_bicameral (Ranges.covers_of_coversSteps hsmall hlow hhigh hstep')]
  · have hvalue : r.apply c.toNat = 'k' := by
      rw [← Char.toNat_inj, show 'k'.toNat = 0x6B from rfl]
      omega
    rw [hvalue, isAlphanumeric, isAlphanumeric, if_neg hc,
      covers_of_bicameral (Ranges.covers_of_coversSteps hcapitals hfirst hlast hstep)]
    rfl
  · rw [isAlphanumeric, isAlphanumeric, if_neg hc, if_neg (by omega),
      Ranges.covers_of_misses hnone hfirst hlast, Ranges.covers_of_misses hnone' hlow hhigh]

end Booru.Text
