import Booru.Proofs.Text.Words
import Mathlib.Data.List.TakeWhile

/-! What lies between the outer white space of a text, also of one text behind another, and what the
white space that is dropped means for words and lines: nothing. -/

namespace Booru.Text

variable {xs ys lead trail : List Char}

def Blanks (cs : List Char) : Prop := ∀ c ∈ cs, isBlank c = true

theorem Blanks.of_cons {c : Char} {cs : List Char} (h : Blanks (c :: cs)) :
    isBlank c = true ∧ Blanks cs :=
  ⟨h c (by simp), fun a ha => h a (List.mem_cons_of_mem _ ha)⟩

theorem Blanks.append (hx : Blanks xs) (hy : Blanks ys) : Blanks (xs ++ ys) := by
  intro c hc
  exact (List.mem_append.mp hc).elim (hx c) (hy c)

theorem Blanks.endsHere (h : Blanks ys) : EndsHere ys :=
  fun c hc => h c (List.mem_of_mem_head? hc)

theorem Blanks.startsHere (h : Blanks xs) : StartsHere xs :=
  fun c hc => h c (List.mem_of_getLast? hc)

theorem blanks_takeWhile (cs : List Char) : Blanks (cs.takeWhile isBlank) :=
  fun _ => List.mem_takeWhile_imp

/-! ### The outer white space -/

theorem Trimmed.dropWhile_append (h : Trimmed xs) : (xs ++ ys).dropWhile isBlank = xs ++ ys := by
  obtain ⟨c, cs, rfl⟩ := List.exists_cons_of_ne_nil h.nonempty
  exact dropWhile_eq_self fun a ha => h.starts a (by simpa using ha)

theorem dropEndWhile_append_blanks (h : Blanks trail) :
    dropEndWhile isBlank (xs ++ trail) = dropEndWhile isBlank xs := by
  have hreverse : ∀ c ∈ trail.reverse, isBlank c = true := fun c hc => h c (List.mem_reverse.mp hc)
  rw [dropEndWhile, List.reverse_append, List.dropWhile_append_of_pos hreverse, dropEndWhile]

theorem trim_blanks (h : Blanks xs) : trim xs = [] := by
  have hdrop : xs.dropWhile isBlank = [] := List.dropWhile_eq_nil_iff.mpr h
  rw [trim, hdrop]
  rfl

theorem Trimmed.trim_between (h : Trimmed xs) (hlead : Blanks lead) (htrail : Blanks trail) :
    trim (lead ++ (xs ++ trail)) = xs := by
  rw [trim, List.dropWhile_append_of_pos hlead, h.dropWhile_append,
    dropEndWhile_append_blanks htrail, dropEndWhile_eq_self h.ends]

theorem exists_dropped (p : Char → Bool) (cs : List Char) :
    ∃ trail, cs = dropEndWhile p cs ++ trail ∧ ∀ c ∈ trail, p c = true := by
  have hsplit := @List.takeWhile_append_dropWhile _ p cs.reverse
  refine ⟨(cs.reverse.takeWhile p).reverse, ?_, fun c hc => ?_⟩
  · rw [dropEndWhile, ← List.reverse_append, hsplit, List.reverse_reverse]
  · exact List.mem_takeWhile_imp (List.mem_reverse.mp hc)

theorem getLast_dropEndWhile {p : Char → Bool} {cs : List Char} {c : Char}
    (h : c ∈ (dropEndWhile p cs).getLast?) : p c = false := by
  have hlast := List.head?_dropWhile_not p cs.reverse
  rw [dropEndWhile, List.getLast?_reverse, Option.mem_def] at h
  rw [h] at hlast
  simpa using hlast

theorem trimmed_trim {cs : List Char} (h : ¬ Blanks cs) : Trimmed (trim cs) := by
  obtain ⟨trail, hsplit, htrail⟩ := exists_dropped isBlank (cs.dropWhile isBlank)
  rw [← trim] at hsplit
  have hhead : ∀ c ∈ (trim cs ++ trail).head?, isBlank c = false := by
    intro c hc
    have hnot := List.head?_dropWhile_not isBlank cs
    rw [hsplit, Option.mem_def.mp hc] at hnot
    simpa using hnot
  have hne : trim cs ≠ [] := by
    intro hnil
    rw [hnil, List.nil_append] at hhead hsplit
    obtain ⟨c, trail, rfl⟩ := List.exists_cons_of_ne_nil fun htrail =>
      h (List.dropWhile_eq_nil_iff.mp (hsplit.trans htrail))
    simp [htrail c (by simp)] at hhead
  refine ⟨hne, fun c hc => hhead c ?_, fun c hc => getLast_dropEndWhile hc⟩
  simp [List.head?_append, Option.mem_def.mp hc]

theorem trim_trim (cs : List Char) : trim (trim cs) = trim cs := by
  by_cases hblank : Blanks cs
  · rw [trim_blanks hblank]
    rfl
  · exact (trimmed_trim hblank).trim_eq

theorem strip_strip (s : String) : strip (strip s) = strip s := by
  rw [strip, strip, String.toList_ofList, trim_trim]

theorem length_trim_le (cs : List Char) : (trim cs).length ≤ cs.length := by
  obtain ⟨trail, hsplit, -⟩ := exists_dropped isBlank (cs.dropWhile isBlank)
  have hlength := congrArg List.length hsplit
  rw [List.length_append, ← trim] at hlength
  have := (List.dropWhile_sublist isBlank (l := cs)).length_le
  omega

theorem dropEndWhile_trim_of_length {p : Char → Bool} {cs : List Char}
    (h : cs.length ≤ (dropEndWhile p (trim cs)).length) : dropEndWhile p (trim cs) = trim cs := by
  obtain ⟨trail, hsplit, -⟩ := exists_dropped p (trim cs)
  obtain rfl : trail = [] := by
    have hlength := congrArg List.length hsplit
    rw [List.length_append] at hlength
    have := length_trim_le cs
    exact List.length_eq_zero_iff.mp (by omega)
  exact (hsplit.trans (List.append_nil _)).symm

theorem strip_eq_empty_iff {s : String} : strip s = "" ↔ Blanks s.toList := by
  have hempty : strip s = "" ↔ trim s.toList = [] := by
    rw [strip, ← String.toList_inj, String.toList_ofList]
    rfl
  rw [hempty]
  refine ⟨fun h => ?_, trim_blanks⟩
  by_contra hfull
  exact (trimmed_trim hfull).nonempty h

theorem exists_trimmed (cs : List Char) : Blanks cs ∨ ∃ lead xs trail,
    cs = lead ++ (xs ++ trail) ∧ Blanks lead ∧ Trimmed xs ∧ Blanks trail := by
  by_cases hblank : Blanks cs
  · exact .inl hblank
  obtain ⟨trail, hend, htrail⟩ := exists_dropped isBlank (cs.dropWhile isBlank)
  have hsplit := @List.takeWhile_append_dropWhile _ isBlank cs
  rw [hend] at hsplit
  exact .inr ⟨_, trim cs, trail, hsplit.symm, blanks_takeWhile cs, trimmed_trim hblank, htrail⟩

/-! ### White space in front of marks -/

/-- White space stands in front of the last of these marks, with something else in front of it.
Behind the marks there is white space, if anything. -/
def BlankBefore (mark : Char) (cs : List Char) : Prop :=
  ∃ front c marks trail, cs = front ++ c :: (marks ++ trail) ∧ ¬ Blanks front ∧ isBlank c = true ∧
    marks ≠ [] ∧ (∀ a ∈ marks, a = mark) ∧ Blanks trail

theorem dropEndWhile_append_cons {p : Char → Bool} {c : Char} (h : p c = false)
    (xs ys : List Char) :
    dropEndWhile p (xs ++ c :: ys) = xs ++ c :: dropEndWhile p ys := by
  have hcut : ((xs ++ c :: ys).reverse).dropWhile p = ys.reverse.dropWhile p ++
      c :: xs.reverse := by
    rw [List.reverse_append, List.reverse_cons, List.append_assoc, List.dropWhile_append]
    split
    · rename_i hnil
      rw [List.isEmpty_iff.mp hnil]
      simp [h]
    · simp
  rw [dropEndWhile, hcut]
  simp [dropEndWhile]

section Marks

variable {mark : Char} (hmark : isBlank mark = false)
include hmark

theorem trimmed_marks {marks : List Char} (hne : marks ≠ []) (hmarks : ∀ a ∈ marks, a = mark) :
    Trimmed marks := by
  have hsolid (a : Char) (ha : a ∈ marks) : isBlank a = false := hmarks a ha ▸ hmark
  exact ⟨hne, fun a ha => hsolid a (List.mem_of_mem_head? ha), fun a ha =>
    hsolid a (List.mem_of_getLast? ha)⟩

theorem blankBefore_iff {cs : List Char} : BlankBefore mark cs ↔
    ∃ kept c, dropEndWhile (· == mark) (trim cs) = kept ++ [c] ∧ isBlank c = true := by
  constructor
  · rintro ⟨front, c, marks, trail, rfl, hfront, hblank, hne, hmarks, htrail⟩
    obtain ⟨lead, xs, gap, rfl, hlead, hxs, -⟩ := (exists_trimmed front).resolve_left hfront
    have htrim : trim ((lead ++ (xs ++ gap)) ++ c :: (marks ++ trail)) =
        (xs ++ gap) ++ c :: marks := by
      have hbetween := (hxs.append (gap ++ [c]) (trimmed_marks hmark hne hmarks)).trim_between
        hlead htrail
      simpa using hbetween
    have hother : (c == mark) = false := by
      rw [beq_eq_false_iff_ne]
      rintro rfl
      simp [hmark] at hblank
    have hgone : dropEndWhile (· == mark) marks = [] := by
      have hall : marks.reverse.dropWhile (· == mark) = [] :=
        List.dropWhile_eq_nil_iff.mpr fun a ha => by simp [hmarks a (List.mem_reverse.mp ha)]
      rw [dropEndWhile, hall, List.reverse_nil]
    refine ⟨xs ++ gap, c, ?_, hblank⟩
    rw [htrim, dropEndWhile_append_cons (p := (· == mark)) hother, hgone]
  · rintro ⟨kept, c, h, hblank⟩
    obtain ⟨marks, hsplit, hmarks⟩ := exists_dropped (· == mark) (trim cs)
    rw [h, List.append_assoc] at hsplit
    rcases exists_trimmed cs with hblanks | ⟨lead, xs, trail, rfl, hlead, hxs, htrail⟩
    · rw [trim_blanks hblanks] at hsplit
      simp at hsplit
    rw [hxs.trim_between hlead htrail] at hsplit
    subst hsplit
    refine ⟨lead ++ kept, c, marks, trail, by simp, fun hfront => ?_, hblank, ?_,
      fun a ha => ?_, htrail⟩
    · -- the first character is none of the white space
      cases kept with
      | nil => exact absurd hblank (by simp [hxs.starts c rfl])
      | cons a kept => exact absurd (hfront a (by simp)) (by simp [hxs.starts a rfl])
    · rintro rfl
      exact absurd hblank (by simp [hxs.ends c (by simp)])
    · simpa using hmarks a ha

end Marks

/-! ### Words and lines of texts put together -/

theorem startsHere_behind {w : List Char} (hw : IsWord w) (h : StartsHere (w ++ ys)) :
    ys ≠ [] ∧ StartsHere ys := by
  have hne : ys ≠ [] := by
    rintro rfl
    rw [List.append_nil] at h
    have hlast := List.getLast?_eq_some_getLast hw.nonempty
    have hc := hw.unbroken _ (List.mem_of_getLast? hlast)
    simp [h _ hlast] at hc
  exact ⟨hne, (startsHere_append hne).mp h⟩

theorem wordsOf_append_of_endsHere (h : EndsHere ys) :
    wordsOf (xs ++ ys) = wordsOf xs ++ wordsOf ys := by
  induction xs using wordInduction with
  | nil => simp
  | blank c rest hc ih => rw [List.cons_append, wordsOf_cons_blank hc, wordsOf_cons_blank hc, ih]
  | word w rest hw hrest ih =>
    have hboth : EndsHere (rest ++ ys) := endsHere_append hrest fun _ => h
    rw [List.append_assoc, wordsOf_word_append hw hboth, wordsOf_word_append hw hrest, ih,
      List.cons_append]

theorem wordsOf_append_of_startsHere (h : StartsHere xs) :
    wordsOf (xs ++ ys) = wordsOf xs ++ wordsOf ys := by
  induction xs using wordInduction with
  | nil => simp
  | blank c rest hc ih =>
    rw [List.cons_append, wordsOf_cons_blank hc, wordsOf_cons_blank hc, ih h.of_cons]
  | word w rest hw hrest ih =>
    obtain ⟨hne, hstarts⟩ := startsHere_behind hw h
    have hboth : EndsHere (rest ++ ys) := endsHere_append hrest fun hnil => absurd hnil hne
    rw [List.append_assoc, wordsOf_word_append hw hboth, wordsOf_word_append hw hrest, ih hstarts,
      List.cons_append]

theorem wordsOf_blanks_append (h : Blanks lead) : wordsOf (lead ++ ys) = wordsOf ys := by
  induction lead with
  | nil => rfl
  | cons c lead ih => rw [List.cons_append, wordsOf_cons_blank h.of_cons.1, ih h.of_cons.2]

theorem wordsOf_blanks (h : Blanks xs) : wordsOf xs = [] := by
  simpa using @wordsOf_blanks_append [] xs h

theorem wordsOf_trim (cs : List Char) : wordsOf (trim cs) = wordsOf cs := by
  rcases exists_trimmed cs with hblank | ⟨lead, xs, trail, rfl, hlead, hxs, htrail⟩
  · rw [trim_blanks hblank, wordsOf_blanks hblank, wordsOf_nil]
  · rw [hxs.trim_between hlead htrail, wordsOf_blanks_append hlead,
      wordsOf_append_of_endsHere htrail.endsHere, wordsOf_blanks htrail, List.append_nil]

theorem splitWhen_append_cons {p : Char → Bool} {c : Char} (h : p c = true) (xs ys : List Char) :
    splitWhen p (xs ++ c :: ys) = splitWhen p xs ++ splitWhen p ys := by
  induction xs with
  | nil => simp [splitWhen, h]
  | cons a xs ih =>
    rw [List.cons_append]
    by_cases ha : p a = true
    · rw [splitWhen_cons_of_pos ha, splitWhen_cons_of_pos ha, ih, List.cons_append]
    · obtain ⟨first, others, hsplit⟩ := exists_splitWhen p xs
      simp [splitWhen, ha, ih, hsplit]

theorem splitWhen_of_notMem {a : Char} {cs : List Char} (h : a ∉ cs) :
    splitWhen (· == a) cs = [cs] := by
  have hunbroken : ∀ c ∈ cs, (c == a) = false := fun c hc => beq_eq_false_iff_ne.mpr
    fun heq => h (heq ▸ hc)
  have hwhole : splitWhen (· == a) (cs ++ []) = [cs ++ []] := splitWhen_append cs hunbroken rfl
  rwa [List.append_nil] at hwhole

theorem wordLines_append_lineFeed (xs ys : List Char) :
    wordLines (xs ++ '\n' :: ys) = wordLines xs ++ wordLines ys := by
  rw [wordLines, splitWhen_append_cons (by rfl), List.map_append, wordLines, wordLines]

def fullLines (cs : List Char) : List (List (List Char)) := (wordLines cs).filter (!·.isEmpty)

theorem fullLines_append_lineFeed (xs ys : List Char) :
    fullLines (xs ++ '\n' :: ys) = fullLines xs ++ fullLines ys := by
  rw [fullLines, wordLines_append_lineFeed, List.filter_append, fullLines, fullLines]

theorem fullLines_blanks_append (h : Blanks lead) : fullLines (lead ++ ys) = fullLines ys := by
  induction lead with
  | nil => rfl
  | cons c lead ih =>
    obtain ⟨hc, hlead⟩ := h.of_cons
    have htail := ih hlead
    by_cases hne : c = '\n'
    · subst hne
      simpa [fullLines] using htail
    · rw [fullLines, List.cons_append, wordLines_cons_blank hc hne]
      exact htail

theorem fullLines_blanks (h : Blanks xs) : fullLines xs = [] := by
  simpa [fullLines] using @fullLines_blanks_append [] xs h

theorem wordLines_append_blanks (xs : List Char) (h : Blanks trail) :
    ∃ n, wordLines (xs ++ trail) = wordLines xs ++ List.replicate n [] := by
  induction xs using wordInduction with
  | nil =>
    induction trail with
    | nil => exact ⟨0, by simp⟩
    | cons c trail ih =>
      obtain ⟨hc, htrail⟩ := h.of_cons
      obtain ⟨n, hn⟩ := ih htrail
      rw [List.nil_append] at hn
      by_cases hne : c = '\n'
      · subst hne
        refine ⟨n + 1, ?_⟩
        rw [List.nil_append, wordLines_lineFeed, hn, wordLines_nil, List.replicate_succ]
        rfl
      · exact ⟨n, by rw [List.nil_append, wordLines_cons_blank hc hne, hn]⟩
  | blank c rest hc ih =>
    obtain ⟨n, hn⟩ := ih
    refine ⟨n, ?_⟩
    by_cases hne : c = '\n'
    · subst hne
      rw [List.cons_append, wordLines_lineFeed, wordLines_lineFeed, hn, List.cons_append]
    · rw [List.cons_append, wordLines_cons_blank hc hne, wordLines_cons_blank hc hne, hn]
  | word w rest hw hrest ih =>
    obtain ⟨n, hn⟩ := ih
    obtain ⟨first, others, hlines⟩ := exists_wordLines rest
    have hboth : EndsHere (rest ++ trail) := endsHere_append hrest fun _ => h.endsHere
    rw [hlines, List.cons_append] at hn
    refine ⟨n, ?_⟩
    rw [List.append_assoc, wordLines_word_append hw hboth hn, wordLines_word_append hw hrest hlines,
      List.cons_append]

theorem fullLines_append_blanks (xs : List Char) (h : Blanks trail) :
    fullLines (xs ++ trail) = fullLines xs := by
  obtain ⟨n, hn⟩ := wordLines_append_blanks xs h
  simp [fullLines, hn]

theorem fullLines_trim (cs : List Char) : fullLines (trim cs) = fullLines cs := by
  rcases exists_trimmed cs with hblank | ⟨lead, xs, trail, rfl, hlead, hxs, htrail⟩
  · rw [trim_blanks hblank, fullLines_blanks hblank]
    simp [fullLines]
  · rw [hxs.trim_between hlead htrail, fullLines_blanks_append hlead,
      fullLines_append_blanks xs htrail]

theorem flatten_fullLines (cs : List Char) : (fullLines cs).flatten = wordsOf cs := by
  rw [fullLines, List.flatten_filter_not_isEmpty, flatten_wordLines]

theorem fullLines_map {f : Char → Char} (hf : ∀ c, isBlank (f c) = isBlank c)
    (hline : ∀ c, f c = '\n' ↔ c = '\n') (cs : List Char) :
    fullLines (cs.map f) = (fullLines cs).map (List.map (List.map f)) := by
  rw [fullLines, wordLines_map hf hline, List.filter_map, fullLines]
  exact congrArg _ (List.filter_congr fun ws _ => by simp)

/-! ### The first word that fails -/

variable {good : List Char → Prop} {before w after : List Char}

theorem FirstFailing.append (h : FirstFailing good xs before w after) (hys : EndsHere ys) :
    FirstFailing good (xs ++ ys) before w (after ++ ys) where
  split := by simp [h.split]
  word := h.word
  starts := h.starts
  ends := endsHere_append h.ends fun _ => hys
  passed := h.passed
  fails := h.fails

theorem FirstFailing.prepend (h : FirstFailing good ys before w after) (hstarts : StartsHere xs)
    (hgood : ∀ v ∈ wordsOf xs, good v) : FirstFailing good (xs ++ ys) (xs ++ before) w after where
  split := by simp [h.split]
  word := h.word
  starts := by
    cases before with
    | nil => simpa using hstarts
    | cons c before => exact (startsHere_append (by simp)).mpr h.starts
  ends := h.ends
  passed := by
    intro v hv
    rw [wordsOf_append_of_startsHere hstarts] at hv
    exact (List.mem_append.mp hv).elim (hgood v) (h.passed v)
  fails := h.fails

end Booru.Text
