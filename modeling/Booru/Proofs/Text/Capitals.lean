import Booru.Proofs.Text.Letters
import Mathlib.Data.List.Basic
import Mathlib.Data.List.Pairwise

/-! Upper case by Unicode 14, and how it goes together with lower case. The table of capitals is
read backwards for it, all but a few letters that have the capital of another small letter: those
are not the lower case of their capital. -/

namespace Booru.Text

def CaseRun.inverse (r : CaseRun) : CaseRun :=
  ⟨(r.first + r.shift).toNat, (r.last + r.shift).toNat, r.step, -r.shift⟩

/-- The small letters whose capital has another small letter, and that capital: the micro sign and
the dotless i, long forms of s, the final sigma, and letter forms of Greek and Cyrillic. -/
def variantCapitals : List (Char × Char) :=
  [('\u00B5', '\u039C'), ('\u0131', 'I'), ('\u017F', 'S'), ('\u03C2', '\u03A3'),
    ('\u03D0', '\u0392'), ('\u03D1', '\u0398'), ('\u03D5', '\u03A6'), ('\u03D6', '\u03A0'),
    ('\u03F0', '\u039A'), ('\u03F1', '\u03A1'), ('\u03F5', '\u0395'), ('\u1C80', '\u0412'),
    ('\u1C81', '\u0414'), ('\u1C82', '\u041E'), ('\u1C83', '\u0421'), ('\u1C84', '\u0422'),
    ('\u1C85', '\u0422'), ('\u1C86', '\u042A'), ('\u1C87', '\u0462'), ('\u1C88', '\uA64A'),
    ('\u1E9B', '\u1E60'), ('\u1FBE', '\u0399')]

def variantLetters : List Char := variantCapitals.map Prod.fst

def titleCapitals : List (Char × Char) :=
  [('\u01C5', '\u01C4'), ('\u01C8', '\u01C7'), ('\u01CB', '\u01CA'), ('\u01F2', '\u01F1')]

def iotaSubscript : Char := '\u0345'

/-- The characters that are not the lower case of their upper case. -/
def strayCapitals : List (Char × Char) :=
  (iotaSubscript, '\u0399') :: (titleCapitals ++ variantCapitals)

def upperChar (c : Char) : Char :=
  if c.toNat < 128 then c.toUpper
  else match strayCapitals.find? (·.1 == c) with
    | some e => e.2
    | none => match lowerRuns.find? (·.inverse.covers c.toNat) with
      | some r => r.inverse.apply c.toNat
      | none => c

def upperExpansions : List (Nat × List Nat) :=
  [(0xDF, [0x53, 0x53]), (0x149, [0x2BC, 0x4E]), (0x1F0, [0x4A, 0x30C]),
   (0x390, [0x399, 0x308, 0x301]), (0x3B0, [0x3A5, 0x308, 0x301]), (0x587, [0x535, 0x552]),
   (0x1E96, [0x48, 0x331]), (0x1E97, [0x54, 0x308]), (0x1E98, [0x57, 0x30A]),
   (0x1E99, [0x59, 0x30A]), (0x1E9A, [0x41, 0x2BE]), (0x1F50, [0x3A5, 0x313]),
   (0x1F52, [0x3A5, 0x313, 0x300]), (0x1F54, [0x3A5, 0x313, 0x301]),
   (0x1F56, [0x3A5, 0x313, 0x342]), (0x1F80, [0x1F08, 0x399]), (0x1F81, [0x1F09, 0x399]),
   (0x1F82, [0x1F0A, 0x399]), (0x1F83, [0x1F0B, 0x399]), (0x1F84, [0x1F0C, 0x399]),
   (0x1F85, [0x1F0D, 0x399]), (0x1F86, [0x1F0E, 0x399]), (0x1F87, [0x1F0F, 0x399]),
   (0x1F88, [0x1F08, 0x399]), (0x1F89, [0x1F09, 0x399]), (0x1F8A, [0x1F0A, 0x399]),
   (0x1F8B, [0x1F0B, 0x399]), (0x1F8C, [0x1F0C, 0x399]), (0x1F8D, [0x1F0D, 0x399]),
   (0x1F8E, [0x1F0E, 0x399]), (0x1F8F, [0x1F0F, 0x399]), (0x1F90, [0x1F28, 0x399]),
   (0x1F91, [0x1F29, 0x399]), (0x1F92, [0x1F2A, 0x399]), (0x1F93, [0x1F2B, 0x399]),
   (0x1F94, [0x1F2C, 0x399]), (0x1F95, [0x1F2D, 0x399]), (0x1F96, [0x1F2E, 0x399]),
   (0x1F97, [0x1F2F, 0x399]), (0x1F98, [0x1F28, 0x399]), (0x1F99, [0x1F29, 0x399]),
   (0x1F9A, [0x1F2A, 0x399]), (0x1F9B, [0x1F2B, 0x399]), (0x1F9C, [0x1F2C, 0x399]),
   (0x1F9D, [0x1F2D, 0x399]), (0x1F9E, [0x1F2E, 0x399]), (0x1F9F, [0x1F2F, 0x399]),
   (0x1FA0, [0x1F68, 0x399]), (0x1FA1, [0x1F69, 0x399]), (0x1FA2, [0x1F6A, 0x399]),
   (0x1FA3, [0x1F6B, 0x399]), (0x1FA4, [0x1F6C, 0x399]), (0x1FA5, [0x1F6D, 0x399]),
   (0x1FA6, [0x1F6E, 0x399]), (0x1FA7, [0x1F6F, 0x399]), (0x1FA8, [0x1F68, 0x399]),
   (0x1FA9, [0x1F69, 0x399]), (0x1FAA, [0x1F6A, 0x399]), (0x1FAB, [0x1F6B, 0x399]),
   (0x1FAC, [0x1F6C, 0x399]), (0x1FAD, [0x1F6D, 0x399]), (0x1FAE, [0x1F6E, 0x399]),
   (0x1FAF, [0x1F6F, 0x399]), (0x1FB2, [0x1FBA, 0x399]), (0x1FB3, [0x391, 0x399]),
   (0x1FB4, [0x386, 0x399]), (0x1FB6, [0x391, 0x342]), (0x1FB7, [0x391, 0x342, 0x399]),
   (0x1FBC, [0x391, 0x399]), (0x1FC2, [0x1FCA, 0x399]), (0x1FC3, [0x397, 0x399]),
   (0x1FC4, [0x389, 0x399]), (0x1FC6, [0x397, 0x342]), (0x1FC7, [0x397, 0x342, 0x399]),
   (0x1FCC, [0x397, 0x399]), (0x1FD2, [0x399, 0x308, 0x300]), (0x1FD3, [0x399, 0x308, 0x301]),
   (0x1FD6, [0x399, 0x342]), (0x1FD7, [0x399, 0x308, 0x342]), (0x1FE2, [0x3A5, 0x308, 0x300]),
   (0x1FE3, [0x3A5, 0x308, 0x301]), (0x1FE4, [0x3A1, 0x313]), (0x1FE6, [0x3A5, 0x342]),
   (0x1FE7, [0x3A5, 0x308, 0x342]), (0x1FF2, [0x1FFA, 0x399]), (0x1FF3, [0x3A9, 0x399]),
   (0x1FF4, [0x38F, 0x399]), (0x1FF6, [0x3A9, 0x342]), (0x1FF7, [0x3A9, 0x342, 0x399]),
   (0x1FFC, [0x3A9, 0x399]), (0xFB00, [0x46, 0x46]), (0xFB01, [0x46, 0x49]), (0xFB02, [0x46, 0x4C]),
   (0xFB03, [0x46, 0x46, 0x49]), (0xFB04, [0x46, 0x46, 0x4C]), (0xFB05, [0x53, 0x54]),
   (0xFB06, [0x53, 0x54]), (0xFB13, [0x544, 0x546]), (0xFB14, [0x544, 0x535]),
   (0xFB15, [0x544, 0x53B]), (0xFB16, [0x54E, 0x546]), (0xFB17, [0x544, 0x53D])]

def upperChars (c : Char) : List Char :=
  match upperExpansions.find? (·.1 == c.toNat) with
  | some e => e.2.map Char.ofNat
  | none => [upperChar c]

def upper (s : String) : String := String.ofList (s.toList.flatMap upperChars)

/-! ### The tables -/

namespace CaseRun

def Before (r s : CaseRun) : Prop := r.last < s.first ∧ s.first ≤ s.last

def Disjoint (r s : CaseRun) : Prop := r.last < s.first ∨ s.last < r.first

instance : Trans Before Before Before :=
  ⟨fun hrs hst => ⟨Nat.lt_of_lt_of_le hrs.1 (Nat.le_trans hrs.2 (Nat.le_of_lt hst.1)), hst.2⟩⟩

instance : Std.Symm Disjoint := ⟨fun _ _ h => Or.symm h⟩

def unblank (r : CaseRun) : Bool :=
  blankRanges.misses r.first r.last && blankRanges.misses r.low r.high

end CaseRun

set_option maxRecDepth 4000 in
theorem lowerRuns_ordered : lowerRuns.IsChain CaseRun.Before := by
  unfold CaseRun.Before
  decide

theorem lowerRuns_disjoint : lowerRuns.Pairwise CaseRun.Disjoint :=
  (List.isChain_iff_pairwise.mp lowerRuns_ordered).imp fun h => .inl h.1

set_option maxRecDepth 4000 in
theorem lowerRuns_unblank : lowerRuns.all CaseRun.unblank = true := by decide

set_option maxRecDepth 4000 in
theorem lowerRuns_inverse_sane :
    (lowerRuns.all fun r => r.first ≤ r.last && r.inverse.sane) = true := by
  decide

theorem strayCapitals_upper : (strayCapitals.all fun e => upperChar e.1 == e.2) = true := by decide

set_option maxRecDepth 4000 in
theorem strayCapitals_lower : (strayCapitals.all fun e =>
    (lowerChar e.2 == lowerChar e.1) == !(e.1 == iotaSubscript || variantLetters.contains e.1)) =
      true := by
  decide

theorem strayCapitals_unblank :
    (strayCapitals.all fun e => !isBlank e.1 && !isBlank e.2) = true := by decide

theorem strayCapitals_beyond :
    (strayCapitals.all fun e => 128 ≤ e.2.toNat || e.2.isAlpha) = true := by decide

set_option maxRecDepth 4000 in
theorem strayCapitals_letters : (strayCapitals.all fun e => isAlphanumeric e.2) = true := by decide

theorem strayCapitals_undotted : (strayCapitals.all fun e => e.2 != dottedCapitalI) = true := by
  decide

set_option maxRecDepth 4000 in
theorem isAlphanumeric_iotaSubscript : isAlphanumeric iotaSubscript = false := by decide

theorem upperExpansions_several : (upperExpansions.all fun e => 1 < e.2.length) = true := by decide

/-! ### One character -/

variable {r s : CaseRun} {n : Nat} {c : Char}

theorem upperChar_cases {motive : Char → Prop} (c : Char) (ascii : c.toNat < 128 → motive c.toUpper)
    (stray : ∀ e ∈ strayCapitals, e.1 = c → motive e.2)
    (run : ¬ c.toNat < 128 → ∀ r ∈ lowerRuns, r.inverse.covers c.toNat = true →
      motive (r.inverse.apply c.toNat))
    (same : upperChar c = c → motive c) : motive (upperChar c) := by
  by_cases h : c.toNat < 128
  · rw [upperChar, if_pos h]
    exact ascii h
  cases hstray : strayCapitals.find? (·.1 == c) with
  | some e =>
    rw [upperChar, if_neg h, hstray]
    exact stray e (List.mem_of_find?_eq_some hstray) (by simpa using List.find?_some hstray)
  | none =>
    cases hfind : lowerRuns.find? (·.inverse.covers c.toNat) with
    | none =>
      have hdef : upperChar c = c := by rw [upperChar, if_neg h, hstray, hfind]
      rw [hdef]
      exact same hdef
    | some r =>
      rw [upperChar, if_neg h, hstray, hfind]
      exact run h r (List.mem_of_find?_eq_some hfind) (by simpa using List.find?_some hfind)

theorem lowerChar_of_covers (hs : s ∈ lowerRuns) (hc : ¬ c.toNat < 128)
    (hcov : s.covers c.toNat = true) :
    lowerChar c = s.apply c.toNat := by
  cases hfind : lowerRuns.find? (·.covers c.toNat) with
  | none => exact absurd hcov (List.find?_eq_none.mp hfind s hs)
  | some t =>
    have ht : t ∈ lowerRuns := List.mem_of_find?_eq_some hfind
    have hcov' : t.covers c.toNat = true := by simpa using List.find?_some hfind
    obtain ⟨hfirst, hlast, -⟩ := CaseRun.covers_iff.mp hcov
    obtain ⟨hfirst', hlast', -⟩ := CaseRun.covers_iff.mp hcov'
    have hsame : s = t := by
      by_contra hne
      rcases lowerRuns_disjoint.forall hs ht hne with hbefore | hbehind <;> omega
    rw [lowerChar, if_neg hc, hfind, hsame]

theorem CaseRun.inverse_spec (hr : r ∈ lowerRuns) (hcov : r.inverse.covers n = true) :
    r.covers (r.inverse.apply n).toNat = true ∧
    r.apply (r.inverse.apply n).toNat = Char.ofNat n := by
  have hsane := CaseRun.sane_of_mem hr
  have hinverse := List.all_eq_true.mp lowerRuns_inverse_sane r hr
  rw [Bool.and_eq_true, decide_eq_true_eq] at hinverse
  obtain ⟨hordered, hinverse⟩ := hinverse
  obtain ⟨hval, -, -⟩ := CaseRun.shifted hinverse hcov
  obtain ⟨hfirst, hlast, hstep⟩ := CaseRun.covers_iff.mp hcov
  simp only [CaseRun.inverse] at hval hfirst hlast hstep
  have hstart : 0 ≤ (r.first : Int) + r.shift := by
    simp only [CaseRun.sane, Bool.or_eq_true, Bool.and_eq_true, decide_eq_true_eq] at hsane
    exact hsane.elim And.left fun h => h.1.1
  have hback : (((n + -r.shift).toNat : Int) + r.shift).toNat = n := by omega
  have hsteps : (n + -r.shift).toNat - r.first = n - (r.first + r.shift).toNat := by omega
  refine ⟨CaseRun.covers_iff.mpr ?_, ?_⟩
  · rw [show (r.inverse.apply n).toNat = (n + -r.shift).toNat from hval, hsteps]
    exact ⟨by omega, by omega, hstep⟩
  · rw [show (r.inverse.apply n).toNat = (n + -r.shift).toNat from hval, CaseRun.apply, hback]

theorem lowerChar_upperChar (h : c ∉ variantLetters) (hiota : c ≠ iotaSubscript) :
    lowerChar (upperChar c) = lowerChar c := by
  refine upperChar_cases (motive := fun up => lowerChar up = lowerChar c) c (fun hc => ?_)
    (fun e he hec => ?_) (fun _ r hr hcov => ?_) fun _ => rfl
  · exact forall_ascii (motive := fun c => lowerChar c.toUpper = lowerChar c) (by decide) hc
  · have hlower := List.all_eq_true.mp strayCapitals_lower e he
    rw [hec, beq_false_of_ne hiota] at hlower
    simpa [h] using hlower
  · obtain ⟨hcapital, hback⟩ := CaseRun.inverse_spec hr hcov
    have habove := (CaseRun.isAlphanumeric_apply hr hcapital).1
    have hlower : lowerChar (r.inverse.apply c.toNat) = c := by
      rw [lowerChar_of_covers hr (by omega) hcapital, hback, Char.ofNat_toNat]
    rw [hlower, ← hlower, lowerChar_lowerChar]

theorem lowerChar_upperChar_of_variant (h : c ∈ variantLetters) :
    lowerChar (upperChar c) ≠ lowerChar c := by
  obtain ⟨e, he, rfl⟩ := List.mem_map.mp h
  have hmem : e ∈ strayCapitals := List.mem_cons_of_mem _ (List.mem_append_right _ he)
  have hlower := List.all_eq_true.mp strayCapitals_lower e hmem
  rw [beq_iff_eq.mp (List.all_eq_true.mp strayCapitals_upper e hmem)]
  simpa [h] using hlower

theorem isBlank_of_run (hr : r ∈ lowerRuns) (hcov : r.covers c.toNat = true) :
    isBlank c = false ∧ isBlank (r.apply c.toNat) = false := by
  have hunblank : r.avoids blankRanges = true := List.all_eq_true.mp lowerRuns_unblank r hr
  rw [isBlank_eq_covers, isBlank_eq_covers]
  exact CaseRun.uncovered hr hunblank hcov

theorem upperChar_blank (c : Char) : isBlank (upperChar c) = isBlank c ∧
    (isBlank c = true → upperChar c = c) := by
  refine upperChar_cases (motive := fun up => isBlank up = isBlank c ∧
    (isBlank c = true → up = c)) c
    (fun hc => ?_) (fun e he hec => ?_) (fun _ r hr hcov => ?_) fun _ => ⟨rfl, fun _ => rfl⟩
  · exact forall_ascii (motive := fun c => isBlank c.toUpper = isBlank c ∧
      (isBlank c = true → c.toUpper = c))
      (by decide) hc
  · have hunblank := List.all_eq_true.mp strayCapitals_unblank e he
    rw [hec, Bool.and_eq_true, Bool.not_eq_true', Bool.not_eq_true'] at hunblank
    simp [hunblank.1, hunblank.2]
  · obtain ⟨hcapital, hback⟩ := CaseRun.inverse_spec hr hcov
    obtain ⟨hup, hc⟩ := isBlank_of_run hr hcapital
    rw [hback, Char.ofNat_toNat] at hc
    simp [hup, hc]

theorem isBlank_upperChar (c : Char) : isBlank (upperChar c) = isBlank c := (upperChar_blank c).1

theorem upperChar_eq_iff {d : Char} (hascii : d.toNat < 128) (hletter : d.isAlpha = false) :
    upperChar c = d ↔ c = d := by
  constructor
  · refine upperChar_cases (motive := fun up => up = d → c = d) c (fun hc hup => ?_)
      (fun e he _ hup => ?_)
      (fun _ r hr hcov hup => ?_) fun hsame hup => hup
    · have hupper : c.toUpper.isAlpha = false → c.toUpper = c :=
        forall_ascii (motive := fun c => c.toUpper.isAlpha = false → c.toUpper = c) (by decide) hc
      rw [← hup] at hletter
      exact (hupper hletter).symm.trans hup
    · have hbeyond := List.all_eq_true.mp strayCapitals_beyond e he
      rw [hup, hletter, Bool.or_false, decide_eq_true_eq] at hbeyond
      omega
    · have habove := (CaseRun.isAlphanumeric_apply hr (CaseRun.inverse_spec hr hcov).1).1
      rw [hup] at habove
      omega
  · rintro rfl
    rw [upperChar, if_pos hascii]
    exact forall_ascii (motive := fun c => c.isAlpha = false → c.toUpper = c)
      (by decide) hascii hletter

/-! ### Texts -/

theorem upperChars_of_single (h : (upperChars c).length = 1) : upperChars c = [upperChar c] := by
  cases hfind : upperExpansions.find? (·.1 == c.toNat) with
  | none => rw [upperChars, hfind]
  | some e =>
    have hseveral := List.all_eq_true.mp upperExpansions_several e (List.mem_of_find?_eq_some hfind)
    rw [upperChars, hfind, List.length_map] at h
    rw [decide_eq_true_eq] at hseveral
    omega

theorem toList_upper {s : String} (h : ∀ c ∈ s.toList, (upperChars c).length = 1) :
    (upper s).toList = s.toList.map upperChar := by
  rw [upper, String.toList_ofList, List.map_eq_flatMap]
  exact List.flatMap_congr fun c hc => upperChars_of_single (h c hc)

end Booru.Text
