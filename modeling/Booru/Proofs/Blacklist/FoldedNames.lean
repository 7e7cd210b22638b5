import Booru.Proofs.Blacklist.LetterCase
import Booru.Proofs.Blacklist.OfflineUsers
import Booru.Proofs.Text.DigitLike

/-! Folding of whole names. It goes character by character, so it keeps the length and goes over the
parts of a name one by one. It neither makes a tag character nor loses one, and leaves alone what
terms are told apart by: minus signs, colons and digits. It is lower case but for the capital I with
dot and for a final sigma. -/

namespace Booru

namespace Text

/-! ### Minus signs, colons and digits -/

def markRanges : Ranges := (0x2D, 0x2D) :: (0x3A, 0x3A) :: digitRanges

theorem covers_markRanges {d : Char} (h : d = '-' ∨ d = ':' ∨ isDigitLike d = true) :
    markRanges.covers d.toNat = true := by
  rcases h with rfl | rfl | hdigit
  · decide
  · decide
  · obtain ⟨r, hr, hin⟩ := (Ranges.covers_iff _ _).mp (covers_digitRanges hdigit)
    exact (Ranges.covers_iff _ _).mpr ⟨r, List.mem_cons_of_mem _ (List.mem_cons_of_mem _ hr), hin⟩

theorem lowerRuns_unmarked : (lowerRuns.all fun r => r.avoids markRanges) = true := by
  decide +kernel

theorem isAlpha_of_mark {d : Char} (h : markRanges.covers d.toNat = true) : d.isAlpha = false := by
  rw [Bool.eq_false_iff]
  intro hletter
  have hnone : markRanges.covers d.toNat = false := by
    rcases toNat_of_isAlpha hletter with ⟨hlo, hhi⟩ | ⟨hlo, hhi⟩
    · exact Ranges.covers_of_misses (by decide) hlo hhi
    · exact Ranges.covers_of_misses (by decide) hlo hhi
  exact absurd (hnone.symm.trans h) Bool.false_ne_true

theorem lowerChar_eq_mark_iff {c d : Char} (h : markRanges.covers d.toNat = true) :
    lowerChar c = d ↔ c = d := by
  have huncovered {r : CaseRun} {n : Nat} (hr : r ∈ lowerRuns) (hcov : r.covers n = true) :
      markRanges.covers n = false ∧ markRanges.covers (r.apply n).toNat = false :=
    CaseRun.uncovered hr (List.all_eq_true.mp lowerRuns_unmarked r hr) hcov
  constructor
  · refine lowerChar_cases (motive := fun low => low = d → c = d) c
      (fun _ hlow => (toLower_eq_iff (isAlpha_of_mark h)).mp hlow) (fun r hr hcov hlow => ?_)
        fun _ _ => id
    have hnone := (huncovered hr hcov).2
    rw [hlow, h] at hnone
    exact absurd hnone.symm Bool.false_ne_true
  · rintro rfl
    refine lowerChar_cases (motive := (· = c)) c
      (fun _ => toLower_of_not_isAlpha (isAlpha_of_mark h))
      (fun r hr hcov => ?_) fun _ _ => rfl
    have hnone := (huncovered hr hcov).1
    rw [h] at hnone
    exact absurd hnone.symm Bool.false_ne_true

/-! ### Lower case -/

theorem isAlphanumeric_lowerChar (c : Char) : isAlphanumeric (lowerChar c) = isAlphanumeric c :=
  lowerChar_cases (motive := fun low => isAlphanumeric low = isAlphanumeric c) c
    (forall_ascii (motive := fun c => isAlphanumeric c.toLower = isAlphanumeric c) (by decide))
    (fun _ hr hcov => (CaseRun.isAlphanumeric_apply hr hcov).2) fun _ _ => rfl

theorem length_lowerFrom (before cs : List Char) :
    (lowerFrom before cs).length = cs.length + cs.count dottedCapitalI := by
  induction cs generalizing before with
  | nil => rfl
  | cons c rest ih =>
    rw [lowerFrom, List.length_append, ih, List.length_cons, List.count_cons]
    by_cases hsigma : c = 'Σ'
    · have hplain : ('Σ' == dottedCapitalI) = false := by decide
      simp only [hsigma, hplain, if_true, List.length_singleton, Bool.false_eq_true, if_false]
      omega
    rw [if_neg hsigma, lowerChars]
    by_cases hdot : c = dottedCapitalI
    · simp only [hdot, if_true, List.length_cons, List.length_nil, beq_self_eq_true]
      omega
    · simp only [hdot, if_false, List.length_singleton, beq_iff_eq]
      omega

end Text

namespace Blacklist

open Text

variable {c d : Char} {s : String}

/-! ### Characters -/

theorem isTagChar_of_lowerChar (h : isTagChar (lowerChar c) = true) : isTagChar c = true := by
  by_cases hc : c.toNat < 128
  · rwa [lowerChar_ascii hc, isTagChar_toLower] at h
  have hletter : isAlphanumeric (lowerChar c) = true := by
    by_cases hlow : (lowerChar c).toNat < 128
    · -- beyond ASCII only the Kelvin sign has its small letter in ASCII
      have hk : lowerChar c = 'k' := by
        by_contra hne
        exact hc (lowerChar_of_ascii rfl hlow hne)
      rw [hk]
      rfl
    · exact isAlphanumeric_of_isTagChar hlow h
  rw [isAlphanumeric_lowerChar] at hletter
  exact isTagChar_of_isAlphanumeric hletter

theorem foldChar_ascii (h : c.toNat < 128) : foldChar c = c.toLower :=
  forall_ascii (motive := fun c => foldChar c = c.toLower) (by decide) h

theorem isTagChar_foldChar_iff : isTagChar (foldChar c) = true ↔ isTagChar c = true := by
  refine ⟨fun h => ?_, isTagChar_foldChar⟩
  rcases foldChar_cases c with hsame | ⟨-, hfold, hlow⟩
  · rwa [hsame] at h
  · exact isTagChar_of_lowerChar hlow

theorem foldChar_eq_mark_iff (h : d = '-' ∨ d = ':' ∨ isDigitLike d = true) :
    foldChar c = d ↔ c = d := by
  rcases foldChar_cases c with hsame | ⟨-, hfold, -⟩
  · rw [hsame]
  · rw [hfold, lowerChar_eq_mark_iff (covers_markRanges h)]

/-! ### Names -/

theorem length_foldName (s : String) : (foldName s).length = s.length := by
  rw [← String.length_toList, toList_foldName, List.length_map, String.length_toList]

theorem foldName_append (s t : String) : foldName (s ++ t) = foldName s ++ foldName t := by
  rw [← String.toList_inj, toList_foldName, String.toList_append,
    String.toList_append, toList_foldName, toList_foldName, List.map_append]

theorem isTagChar_foldName_iff (s : String) :
    (∀ c ∈ (foldName s).toList, isTagChar c = true) ↔ ∀ c ∈ s.toList, isTagChar c = true := by
  rw [toList_foldName, List.forall_mem_map]
  exact forall₂_congr fun c _ => isTagChar_foldChar_iff

theorem foldName_ascii (h : ∀ c ∈ s.toList, c.toNat < 128) : foldName s = lower s := by
  rw [← String.toList_inj, toList_foldName, toList_lower_ascii h]
  exact List.map_congr_left fun c hc => foldChar_ascii (h c hc)

theorem foldName_eq_lower_iff (h : ∀ c ∈ s.toList, isTagChar c = true) :
    foldName s = lower s ↔ dottedCapitalI ∉ s.toList ∧ finalSigma [] s.toList = false := by
  by_cases hdot : dottedCapitalI ∈ s.toList
  · refine iff_of_false (fun heq => ?_) fun hnone => hnone.1 hdot
    have hlength := congrArg (·.toList.length) heq
    simp only [toList_foldName, List.length_map, lower, String.toList_ofList, length_lowerFrom]
      at hlength
    have hcount := List.count_pos_iff.mpr hdot
    omega
  · have hchars : s.toList.map foldChar = s.toList.flatMap lowerChars := by
      rw [List.map_eq_flatMap]
      refine List.flatMap_congr fun c hc => ?_
      have hplain : c ≠ dottedCapitalI := fun heq => hdot (heq ▸ hc)
      rw [foldChar_eq_lowerChar (h c hc) hplain, lowerChars, if_neg hplain]
    rw [and_iff_right hdot, ← lowerFrom_eq_flatMap, ← hchars, ← String.toList_inj,
      toList_foldName, lower, String.toList_ofList, eq_comm]

/-- Folding keeps the length of a name, folds the parts of a name each on its own, and changes
nothing that is folded already. Tag characters come of tag characters alone, and a minus sign,
a colon or a digit of any script comes of that very character alone. On ASCII it is lower
case, and it is on tag characters too, unless the capital I with dot is among them or a
capital sigma ends a word. -/
theorem foldName_stable :
    (∀ s, (foldName s).length = s.length) ∧
    (∀ s t, foldName (s ++ t) = foldName s ++ foldName t) ∧
    (∀ s, foldName (foldName s) = foldName s) ∧
    (∀ s, (∀ c ∈ (foldName s).toList, isTagChar c = true) ↔ ∀ c ∈ s.toList, isTagChar c = true) ∧
    (∀ s, List.Forall₂
      (fun c low => ∀ d, d = '-' ∨ d = ':' ∨ isDigitLike d = true → (low = d ↔ c = d))
      s.toList (foldName s).toList) ∧
    (∀ s, (∀ c ∈ s.toList, c.toNat < 128) → foldName s = lower s) ∧
    ∀ s, (∀ c ∈ s.toList, isTagChar c = true) →
      (foldName s = lower s ↔ dottedCapitalI ∉ s.toList ∧ finalSigma [] s.toList = false) := by
  refine ⟨length_foldName, foldName_append, foldName_foldName, isTagChar_foldName_iff, fun s => ?_,
    fun _ => foldName_ascii, fun _ => foldName_eq_lower_iff⟩
  rw [toList_foldName, List.forall₂_map_right_iff, List.forall₂_same]
  exact fun c _ d h => foldChar_eq_mark_iff h

def threeSickness : String := "٣-ΝΌΣΟΣ"

theorem foldName_stable_threeSickness :
    ((∀ c ∈ "Solo: Fox_2-B".toList, c.toNat < 128) ∧
      foldName "Solo: Fox_2-B" = lower "Solo: Fox_2-B") ∧
    ((∀ c ∈ threeSickness.toList, isTagChar c = true) ∧
      ∀ c ∈ (foldName threeSickness).toList, isTagChar c = true) ∧
    (isDigitLike '٣' = true ∧ foldChar '٣' = '٣') ∧
    finalSigma [] threeSickness.toList = true ∧ foldName threeSickness ≠ lower threeSickness := by
  obtain ⟨-, -, -, htags, hmarks, hascii, hcontext⟩ := foldName_stable
  have hplain : ∀ c ∈ "Solo: Fox_2-B".toList, c.toNat < 128 := by simp
  have hall : threeSickness.toList.all isTagChar = true := by decide +kernel
  have htag := List.all_eq_true.mp hall
  have hdigit : isDigitLike '٣' = true := by decide
  have hfinal : finalSigma [] threeSickness.toList = true := by decide +kernel
  have hthree : foldChar '٣' = '٣' := by
    have hkept := hmarks threeSickness
    have hchars : threeSickness.toList = '٣' :: "-ΝΌΣΟΣ".toList := rfl
    rw [toList_foldName, hchars, List.map_cons, List.forall₂_cons] at hkept
    exact (hkept.1 '٣' (.inr (.inr hdigit))).mpr rfl
  refine ⟨⟨hplain, hascii _ hplain⟩, ⟨htag, (htags _).mpr htag⟩, ⟨hdigit, hthree⟩,
    hfinal, fun hsame => ?_⟩
  have hnone := ((hcontext _ htag).mp hsame).2
  exact absurd (hfinal.symm.trans hnone) (by decide)

end Blacklist
end Booru
