import Booru.Blacklist.Token
import Booru.Proofs.Text.Letters
import Booru.Proofs.Text.Numerals

/-! The characters of terms. Tag characters are no white space, and folding keeps them tag
characters, is stable, and makes no minus sign out of anything else. -/

namespace Booru

namespace Text

theorem toNat_of_isAlpha {c : Char} (h : c.isAlpha = true) :
    65 ≤ c.toNat ∧ c.toNat ≤ 90 ∨ 97 ≤ c.toNat ∧ c.toNat ≤ 122 := by
  have hranges : (decide (c.val ≥ 'A'.val ∧ c.val ≤ 'Z'.val) ||
      decide (c.val ≥ 'a'.val) && decide (c.val ≤ 'z'.val)) = true := h
  simp only [Bool.or_eq_true, Bool.and_eq_true, decide_eq_true_eq] at hranges
  exact hranges

theorem isAlpha_of_isLower {c : Char} (h : c.isLower = true) : c.isAlpha = true :=
  (Bool.or_eq_true _ _).mpr (.inr h)

theorem isBlank_of_isAlpha {c : Char} (h : c.isAlpha = true) : isBlank c = false := by
  have := toNat_of_isAlpha h
  simp [isBlank]
  omega

theorem toList_lower {s : String} (h : ∀ c ∈ s.toList, c.isAlpha = true) :
    (lower s).toList = s.toList.map Char.toLower := by
  refine toList_lower_ascii fun c hc => ?_
  have := toNat_of_isAlpha (h c hc)
  omega

theorem toLower_of_isLower {c : Char} (h : c.isLower = true) : c.toLower = c := by
  have hc := toNat_of_isAlpha (isAlpha_of_isLower h)
  refine forall_ascii (motive := fun c => c.isLower = true → c.toLower = c) (by decide) (by omega) h

theorem isLower_toLower {c : Char} (h : c.isAlpha = true) : c.toLower.isLower = true := by
  have hc := toNat_of_isAlpha h
  exact forall_ascii (motive := fun c => c.isAlpha = true → c.toLower.isLower = true) (by decide)
    (by omega) h

theorem lower_of_isLower {s : String} (h : ∀ c ∈ s.toList, c.isLower = true) : lower s = s := by
  rw [← String.toList_inj, toList_lower fun c hc => isAlpha_of_isLower (h c hc)]
  exact (List.map_congr_left fun c hc => toLower_of_isLower (h c hc)).trans (List.map_id _)

end Text

namespace Blacklist

open Text

theorem isBlank_of_isTagChar {c : Char} (h : isTagChar c = true) : isBlank c = false := by
  simp only [isTagChar] at h
  split at h
  · rename_i hvisible
    simp only [Bool.and_eq_true, decide_eq_true_eq] at hvisible
    simp [isBlank]
    omega
  · simp only [Bool.and_eq_true, decide_eq_true_eq] at h
    exact isBlank_of_isAlphanumeric (by omega) h.2

theorem isTagChar_of_isAlphanumeric {c : Char} (h : isAlphanumeric c = true) :
    isTagChar c = true := by
  by_cases hc : c.toNat < 128
  · exact forall_ascii (motive := fun c => isAlphanumeric c = true →
      isTagChar c = true) (by decide) hc h
  · have hvisible : ¬ c.toNat ≤ 126 := by omega
    have habove : 127 < c.toNat := by omega
    simp [isTagChar, hvisible, habove, h]

theorem isAlphanumeric_of_isTagChar {c : Char} (hc : ¬ c.toNat < 128) (h : isTagChar c = true) :
    isAlphanumeric c = true := by
  have hvisible : ¬ c.toNat ≤ 126 := by omega
  simp only [isTagChar, hvisible, decide_false, Bool.and_false, Bool.false_eq_true, if_false,
    Bool.and_eq_true] at h
  exact h.2

theorem isTagChar_lowerChar {c : Char} (h : isTagChar c = true) :
    isTagChar (lowerChar c) = true := by
  refine lowerChar_cases (motive := (isTagChar · = true)) c (fun hc => ?_) (fun r hr hcov => ?_)
    fun _ _ => h
  · exact forall_ascii (motive := fun c => isTagChar c = true → isTagChar c.toLower =
      true) (by decide) hc h
  · obtain ⟨habove, hsame⟩ := CaseRun.isAlphanumeric_apply hr hcov
    exact isTagChar_of_isAlphanumeric (hsame.trans (isAlphanumeric_of_isTagChar (by omega) h))

theorem foldChar_eq_lowerChar {c : Char} (h : isTagChar c = true) (hdot : c ≠ dottedCapitalI) :
    foldChar c = lowerChar c := by
  have hone : lowerChars c = [lowerChar c] := if_neg hdot
  simp only [foldChar, hone, isTagChar_lowerChar h, if_true]

theorem foldChar_cases (c : Char) :
    foldChar c = c ∨ c ≠ dottedCapitalI ∧ foldChar c = lowerChar c ∧
    isTagChar (lowerChar c) = true := by
  by_cases hdot : c = dottedCapitalI
  · subst hdot
    exact .inl rfl
  · have hone : lowerChars c = [lowerChar c] := if_neg hdot
    simp only [foldChar, hone]
    split
    · exact .inr ⟨hdot, rfl, ‹_›⟩
    · exact .inl rfl

theorem isTagChar_foldChar {c : Char} (h : isTagChar c = true) : isTagChar (foldChar c) = true := by
  rcases foldChar_cases c with hsame | ⟨-, hlow, htag⟩
  · rwa [hsame]
  · rwa [hlow]

theorem foldChar_foldChar (c : Char) : foldChar (foldChar c) = foldChar c := by
  rcases foldChar_cases c with hsame | ⟨hdot, hlow, htag⟩
  · rw [hsame, hsame]
  · have hone : lowerChars (lowerChar c) = [lowerChar c] := by
      rw [lowerChars, if_neg (lowerChar_ne_dottedCapitalI hdot), lowerChar_lowerChar]
    rw [hlow, foldChar, hone]
    simp [htag]

theorem ascii_of_foldChar {c low : Char} (h : foldChar c = low)
    (hlow : low.toNat < 128) (hk : low ≠ 'k') :
    c.toNat < 128 := by
  rcases foldChar_cases c with hsame | ⟨-, hfold, -⟩
  · rwa [← h, hsame] at hlow
  · exact lowerChar_of_ascii (hfold.symm.trans h) hlow hk

theorem foldChar_eq_minus {c : Char} (h : foldChar c = '-') : c = '-' :=
  forall_ascii (motive := fun c => foldChar c = '-' → c = '-') (by decide)
    (ascii_of_foldChar h (by decide) (by decide)) h

theorem toList_foldName (s : String) :
    (foldName s).toList = s.toList.map foldChar := by simp [foldName]

theorem foldName_foldName (s : String) : foldName (foldName s) = foldName s := by
  rw [← String.toList_inj, toList_foldName, toList_foldName, List.map_map]
  exact List.map_congr_left fun c _ => foldChar_foldChar c

end Blacklist
end Booru
