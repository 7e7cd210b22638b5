import Booru.Proofs.Collection.Names

/-! What cleaning makes of a name, and of that again. White space is dropped before the last dots
are, each once: white space in front of those dots comes to stand at the end, and a second
cleaning takes more away. In all other cases the result has no outer white space, and cleaning it
again leaves it as it is. -/

namespace Booru

open Text

variable {cs : List Char} {name : String} {c : Char}

/-- White space stands in front of the last dots of a text, with something else in front of it.
Behind the dots there is white space, if anything. -/
def BlankBeforeDots (cs : List Char) : Prop :=
  ∃ front c dots trail, cs = front ++ c :: (dots ++ trail) ∧ ¬ Blanks front ∧ isBlank c = true ∧
    dots ≠ [] ∧ (∀ a ∈ dots, a = '.') ∧ Blanks trail

structure CleanName (name : String) : Prop where
  full : name ≠ ""
  chars : ∀ c ∈ name.toList, cleanChar c = c
  starts : ∀ c ∈ name.toList.head?, isBlank c = false
  ends : ∀ c ∈ name.toList.getLast?, isBlank c = false ∧ c ≠ '.'

/-! ### White space in front of dots -/

theorem blankBeforeDots_iff : BlankBeforeDots cs ↔
    ∃ kept c, dropEndWhile (· == '.') (trim cs) = kept ++ [c] ∧ isBlank c = true :=
  @blankBefore_iff '.' rfl cs

/-! ### Names that cleaning keeps -/

theorem cleanChar_cleanChar (c : Char) : cleanChar (cleanChar c) = cleanChar c := by
  obtain ⟨hpath, hhigh⟩ := cleanChar_safe c
  refine if_neg fun hreplaced => ?_
  rcases Bool.or_eq_true_iff.mp hreplaced with hreserved | hlow
  · have hchecked : reservedChars.all pathChars.contains = true := by decide
    exact hpath (by simpa using List.all_eq_true.mp hchecked _ (by simpa using hreserved))
  · have := of_decide_eq_true hlow
    omega

theorem CleanName.cleanComponent_eq (h : CleanName name) : cleanComponent name = name := by
  have hkept : name.toList.map cleanChar = name.toList :=
    (List.map_congr_left h.chars).trans (List.map_id _)
  have htrimmed : Trimmed name.toList :=
    ⟨fun hnil => h.full (String.toList_eq_nil_iff.mp hnil), h.starts, fun c hc => (h.ends c hc).1⟩
  have hcore : cleanCore name.toList = name.toList := by
    rw [cleanCore, hkept, htrimmed.trim_eq]
    exact dropEndWhile_eq_self fun c hc => by simpa using (h.ends c hc).2
  refine String.toList_inj.mp ?_
  rw [toList_cleanComponent, hcore, if_neg htrimmed.nonempty]

theorem toList_of_blank_end (hc : c ∈ (cleanComponent name).toList.getLast?)
    (hblank : isBlank c = true) :
    (cleanComponent name).toList = cleanCore name.toList := by
  rw [toList_cleanComponent] at hc ⊢
  split
  · rename_i hnil
    rw [if_pos hnil] at hc
    obtain rfl : '_' = c := by simpa using hc
    cases hblank
  · rfl

theorem head_cleanComponent (h : c ∈ (cleanComponent name).toList.head?) : isBlank c = false := by
  rw [toList_cleanComponent] at h
  split at h
  · obtain rfl : '_' = c := by simpa using h
    rfl
  · rename_i hfull
    obtain ⟨dots, hsplit, -⟩ := exists_dropped (· == '.') (trim (name.toList.map cleanChar))
    rw [← cleanCore] at hsplit
    have htrimmed : Trimmed (trim (name.toList.map cleanChar)) := by
      refine trimmed_trim fun hblanks => hfull ?_
      rw [cleanCore, trim_blanks hblanks]
      rfl
    exact htrimmed.starts c (by simp [hsplit, Option.mem_def.mp h])

theorem solid_end_of_kept (h : cleanComponent name = name) (hc : c ∈ name.toList.getLast?) :
    isBlank c = false := by
  by_contra hnot
  have hblank : isBlank c = true := by simpa using hnot
  have hcore := toList_of_blank_end (h.symm ▸ hc) hblank
  rw [h] at hcore
  have hkept : dropEndWhile (· == '.') (trim (name.toList.map cleanChar)) = name.toList :=
    hcore.symm
  have hwhole : trim (name.toList.map cleanChar) = name.toList :=
    (dropEndWhile_trim_of_length (by rw [hkept, List.length_map])).symm.trans hkept
  have hsolid : isBlank c = false := getLast_dropEndWhile (by rwa [← trim, hwhole])
  exact hnot hsolid

theorem cleanName_cleanComponent_iff : CleanName (cleanComponent name) ↔
    ∀ c ∈ (cleanComponent name).toList.getLast?, isBlank c = false := by
  refine ⟨fun h c hc => (h.ends c hc).1, fun h => ?_⟩
  refine ⟨(safeName_cleanComponent name).full, fun c hc => ?_, fun c hc => head_cleanComponent hc,
    fun c hc => ⟨h c hc, ?_⟩⟩
  · obtain ⟨a, rfl⟩ := mem_cleanComponent hc
    exact cleanChar_cleanChar a
  · rintro rfl
    exact getLast_cleanComponent name hc

theorem cleanComponent_eq_self_iff : cleanComponent name = name ↔ CleanName name := by
  refine ⟨fun h => ?_, CleanName.cleanComponent_eq⟩
  have hclean := cleanName_cleanComponent_iff.mpr fun c hc => solid_end_of_kept h (by rwa [h] at hc)
  rwa [h] at hclean

theorem blank_end_iff : (∃ c ∈ (cleanComponent name).toList.getLast?, isBlank c = true) ↔
    BlankBeforeDots (name.toList.map cleanChar) := by
  constructor
  · rintro ⟨c, hc, hblank⟩
    rw [toList_of_blank_end hc hblank] at hc
    obtain ⟨kept, hkept⟩ := List.getLast?_eq_some_iff.mp hc
    exact blankBeforeDots_iff.mpr ⟨kept, c, hkept, hblank⟩
  · intro h
    obtain ⟨kept, c, hcore, hblank⟩ := blankBeforeDots_iff.mp h
    rw [← cleanCore] at hcore
    refine ⟨c, ?_, hblank⟩
    rw [toList_cleanComponent, hcore, if_neg (by simp)]
    simp

/-- A cleaned name does not start with white space and does not end in a dot. Unless white space
stood in front of the last dots it does not end in white space either, and just then it stays as it
is when it is cleaned again. -/
theorem cleaned_unless_blank_before_dots (name : String) :
    (∀ c ∈ (cleanComponent name).toList.head?, isBlank c = false) ∧
    (∀ c ∈ (cleanComponent name).toList.getLast?, c ≠ '.') ∧
    ((∀ c ∈ (cleanComponent name).toList.getLast?, isBlank c = false) ↔
      ¬ BlankBeforeDots (name.toList.map cleanChar)) ∧
    (cleanComponent (cleanComponent name) = cleanComponent name ↔
      ¬ BlankBeforeDots (name.toList.map cleanChar)) := by
  have hend : (∀ c ∈ (cleanComponent name).toList.getLast?, isBlank c = false) ↔
      ¬ BlankBeforeDots (name.toList.map cleanChar) := by
    rw [← blank_end_iff]
    simp
  refine ⟨fun c hc => head_cleanComponent hc, fun c hc => ?_, hend, ?_⟩
  · rintro rfl
    exact getLast_cleanComponent name hc
  · rw [cleanComponent_eq_self_iff, cleanName_cleanComponent_iff, hend]

example : cleanComponent "Vol. 1 ." = "Vol. 1 " ∧ cleanComponent "Vol. 1 " = "Vol. 1" := by decide

end Booru
