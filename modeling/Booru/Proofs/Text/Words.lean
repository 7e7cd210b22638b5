import Booru.Text.Character

/-! Texts as words with white space between them: every text is built up from its end by putting a
blank or a whole word in front, and what cuts a text into words or lines follows that. -/

namespace Booru.Text

structure IsWord (w : List Char) : Prop where
  nonempty : w ≠ []
  unbroken : ∀ c ∈ w, isBlank c = false

def EndsHere (rest : List Char) : Prop := ∀ c ∈ rest.head?, isBlank c = true

def StartsHere (before : List Char) : Prop := ∀ c ∈ before.getLast?, isBlank c = true

theorem endsHere_nil : EndsHere [] := by simp [EndsHere]

theorem endsHere_cons {c : Char} {rest : List Char} : EndsHere (c :: rest) ↔ isBlank c = true := by
  simp [EndsHere]

theorem endsHere_append {xs ys : List Char} (hx : EndsHere xs) (hy : xs = [] → EndsHere ys) :
    EndsHere (xs ++ ys) := by
  cases xs with
  | nil => exact hy rfl
  | cons c xs => exact hx

theorem IsWord.cons {c : Char} {w : List Char} (hc : isBlank c = false)
    (hw : ∀ a ∈ w, isBlank a = false) :
    IsWord (c :: w) :=
  ⟨by simp, fun a ha => (List.mem_cons.mp ha).elim (· ▸ hc) (hw a)⟩

theorem IsWord.lineFeed_notMem {w : List Char} (h : IsWord w) : '\n' ∉ w := by
  intro hmem
  exact absurd (h.unbroken _ hmem) (by decide)

/-- Induction on a text by its blanks and whole words. -/
theorem wordInduction {motive : List Char → Prop} (nil : motive [])
    (blank : ∀ c rest, isBlank c = true → motive rest → motive (c :: rest))
    (word : ∀ w rest, IsWord w → EndsHere rest → motive rest → motive (w ++ rest))
    (cs : List Char) :
    motive cs := by
  induction hn : cs.length using Nat.strongRecOn generalizing cs with
  | _ n ih =>
    cases cs with
    | nil => exact nil
    | cons c rest =>
      by_cases hc : isBlank c = true
      · exact blank c rest hc (ih _ (by rw [← hn]; simp) rest rfl)
      · -- the first word, and what is left behind it
        have hsplit := @List.takeWhile_append_dropWhile _ (fun a => !isBlank a) rest
        have hdrop := (@List.dropWhile_sublist _ rest fun a => !isBlank a).length_le
        rw [← hsplit, ← List.cons_append]
        refine word _ _ (IsWord.cons (by simpa using hc) fun a ha => ?_) ?_ ?_
        · have hall : (rest.takeWhile fun a => !isBlank a).all (fun a => !isBlank a) = true :=
            List.all_takeWhile
          simpa using List.all_eq_true.mp hall a ha
        · intro a ha
          have := List.head?_dropWhile_not (fun a => !isBlank a) rest
          rw [Option.mem_def.mp ha] at this
          simpa using this
        · exact ih _ (by rw [← hn, List.length_cons]; omega) _ rfl

variable {w rest : List Char} {p : Char → Bool}

theorem dropWhile_eq_self {p : Char → Bool} {cs : List Char} (h : ∀ c ∈ cs.head?, p c = false) :
    cs.dropWhile p = cs := by
  cases cs with
  | nil => rfl
  | cons c rest => simp [h c rfl]

theorem dropEndWhile_eq_self {p : Char → Bool} {cs : List Char}
    (h : ∀ c ∈ cs.getLast?, p c = false) :
    dropEndWhile p cs = cs := by
  rw [dropEndWhile, dropWhile_eq_self (by simpa using h), List.reverse_reverse]

theorem takeWhile_append_endsHere (cs : List Char) (hp : ∀ c, isBlank c = true → p c = false)
    (h : EndsHere rest) : (cs ++ rest).takeWhile p = cs.takeWhile p := by
  rw [List.takeWhile_append]
  split
  · rename_i hall
    have hrest : rest.takeWhile p = [] := by
      cases rest with
      | nil => rfl
      | cons c rest => simp [hp c (endsHere_cons.mp h)]
    have hcs := (@List.takeWhile_prefix _ cs p).eq_of_length hall
    rw [hrest, List.append_nil, hcs]
  · rfl

theorem dropWhile_append_endsHere (cs : List Char) (hp : ∀ c, isBlank c = true → p c = false)
    (h : EndsHere rest) : (cs ++ rest).dropWhile p = cs.dropWhile p ++ rest := by
  have hboth := @List.takeWhile_append_dropWhile _ p (cs ++ rest)
  have hcs := @List.takeWhile_append_dropWhile _ p cs
  rw [takeWhile_append_endsHere cs hp h] at hboth
  refine @List.append_cancel_left _ (cs.takeWhile p) _ _ ?_
  rw [hboth, ← List.append_assoc, hcs]

/-! ### Cutting a text -/

theorem splitWhen_cons_of_pos {c : Char} (h : p c = true) :
    splitWhen p (c :: rest) = [] :: splitWhen p rest := by
  simp [splitWhen, h]

theorem splitWhen_append {first : List Char} {others : List (List Char)} (cs : List Char)
    (hcs : ∀ c ∈ cs, p c = false) (h : splitWhen p rest = first :: others) :
    splitWhen p (cs ++ rest) = (cs ++ first) :: others := by
  induction cs with
  | nil => exact h
  | cons c cs ih =>
    have hc := hcs c (by simp)
    have htail := ih fun a ha => hcs a (List.mem_cons_of_mem _ ha)
    simp [splitWhen, hc, htail]

theorem exists_splitWhen (p : Char → Bool) (cs : List Char) :
    ∃ first others, splitWhen p cs = first :: others :=
  List.exists_cons_of_ne_nil (splitWhen_ne_nil p cs)

theorem exists_mem_splitWhen {c : Char} {cs : List Char} (hc : c ∈ cs) (hp : p c = false) :
    ∃ w ∈ splitWhen p cs, c ∈ w := by
  induction cs with
  | nil => cases hc
  | cons a cs ih =>
    cases ha : p a with
    | true =>
      rw [splitWhen_cons_of_pos ha]
      have hcs : c ∈ cs := (List.mem_cons.mp hc).resolve_left fun heq => by simp [← heq, hp] at ha
      obtain ⟨w, hw, hcw⟩ := ih hcs
      exact ⟨w, List.mem_cons_of_mem _ hw, hcw⟩
    | false =>
      obtain ⟨first, others, hsplit⟩ := exists_splitWhen p cs
      have hcons : splitWhen p (a :: cs) = _ := splitWhen_append [a] (by simpa using ha) hsplit
      rw [hcons]
      rcases List.mem_cons.mp hc with rfl | hc
      · exact ⟨_, List.mem_cons_self, List.mem_cons_self⟩
      · obtain ⟨w, hw, hcw⟩ := ih hc
        rw [hsplit] at hw
        rcases List.mem_cons.mp hw with rfl | hw
        · exact ⟨_, List.mem_cons_self, List.mem_cons_of_mem a hcw⟩
        · exact ⟨w, List.mem_cons_of_mem _ hw, hcw⟩

theorem splitWhen_append_concat {xs ys first last : List Char} {front others : List (List Char)}
    (hx : splitWhen p xs = front ++ [last]) (hy : splitWhen p ys = first :: others) :
    splitWhen p (xs ++ ys) = front ++ (last ++ first) :: others := by
  induction xs generalizing front last with
  | nil =>
    obtain ⟨rfl, rfl⟩ : front = [] ∧ last = [] := by
      cases front <;> simp_all [splitWhen]
    exact hy
  | cons a xs ih =>
    cases ha : p a with
    | true =>
      rw [splitWhen_cons_of_pos ha] at hx
      rw [List.cons_append, splitWhen_cons_of_pos ha]
      cases front with
      | nil =>
        obtain ⟨-, hnil⟩ := List.cons.inj hx
        exact absurd hnil (splitWhen_ne_nil p xs)
      | cons w front =>
        obtain ⟨rfl, hrest⟩ := List.cons.inj hx
        rw [ih hrest, List.cons_append]
    | false =>
      obtain ⟨w, ws, hsplit⟩ := exists_splitWhen p xs
      have hcons : splitWhen p (a :: xs) = _ := splitWhen_append [a] (by simpa using ha) hsplit
      rw [hcons] at hx
      cases front with
      | nil =>
        obtain ⟨rfl, rfl⟩ := List.cons.inj hx
        exact splitWhen_append [a] (by simpa using ha)
          (ih (show splitWhen p xs = [] ++ [w] from hsplit))
      | cons v front =>
        obtain ⟨rfl, rfl⟩ := List.cons.inj hx
        exact splitWhen_append [a] (by simpa using ha)
          (ih (show splitWhen p xs = (w :: front) ++ [last] from hsplit))

theorem EndsHere.of_splitWhen {first : List Char} {others : List (List Char)} (h : EndsHere rest)
    (hsplit : splitWhen p rest = first :: others) : EndsHere first := by
  cases rest with
  | nil =>
    simp only [splitWhen, List.cons.injEq] at hsplit
    rw [← hsplit.1]
    exact endsHere_nil
  | cons c rest =>
    obtain ⟨first', others', htail⟩ := exists_splitWhen p rest
    by_cases hc : p c = true
    · simp only [splitWhen, hc, if_true, List.cons.injEq] at hsplit
      rw [← hsplit.1]
      exact endsHere_nil
    · have hcons : splitWhen p (c :: rest) = _ := splitWhen_append [c] (by simpa using hc) htail
      rw [hcons, List.cons.injEq] at hsplit
      rw [← hsplit.1]
      exact endsHere_cons.mpr (endsHere_cons.mp h)

@[simp] theorem wordsOf_nil : wordsOf [] = [] := by simp [wordsOf, splitWhen]

@[simp] theorem wordsOf_cons_blank {c : Char} (h : isBlank c = true) :
    wordsOf (c :: rest) = wordsOf rest := by
  simp [wordsOf, splitWhen, h]

theorem wordsOf_word_append (hw : IsWord w) (h : EndsHere rest) :
    wordsOf (w ++ rest) = w :: wordsOf rest := by
  cases rest with
  | nil =>
    have hsplit : splitWhen isBlank (w ++ []) = _ := splitWhen_append w hw.unbroken rfl
    simp only [List.append_nil] at hsplit
    simp [wordsOf, hsplit, hw.nonempty, splitWhen]
  | cons c rest =>
    have hc := endsHere_cons.mp h
    have hsplit := splitWhen_append w hw.unbroken (@splitWhen_cons_of_pos rest isBlank c hc)
    simp [wordsOf, hsplit, hw.nonempty, splitWhen, hc]

structure FirstFailing (good : List Char → Prop) (text before w after : List Char) : Prop where
  split : text = before ++ (w ++ after)
  word : IsWord w
  starts : StartsHere before
  ends : EndsHere after
  passed : ∀ v ∈ wordsOf before, good v
  fails : ¬ good w

theorem StartsHere.of_cons {c : Char} {before : List Char} (h : StartsHere (c :: before)) :
    StartsHere before := by
  intro a ha
  refine h a ?_
  cases before with
  | nil => simp at ha
  | cons b before => simpa using ha

theorem endsHere_before {before word after : List Char} (hword : IsWord word)
    (h : EndsHere (before ++ (word ++ after))) : EndsHere before ∧ before ≠ [] := by
  cases before with
  | cons c before => exact ⟨endsHere_cons.mpr (endsHere_cons.mp h), by simp⟩
  | nil =>
    cases word with
    | nil => exact absurd rfl hword.nonempty
    | cons c word =>
      have hc := hword.unbroken c (by simp)
      simp [endsHere_cons.mp h] at hc

theorem startsHere_append {v before : List Char} (hne : before ≠ []) :
    StartsHere (v ++ before) ↔ StartsHere before := by
  have hlast := List.getLast?_eq_some_getLast hne
  simp [StartsHere, List.getLast?_append, hlast]

theorem exists_firstFailing (good : List Char → Prop) (cs : List Char) :
    (∀ w ∈ wordsOf cs, good w) ∨ ∃ before w after, FirstFailing good cs before w after := by
  induction cs using wordInduction with
  | nil => simp
  | blank c rest hc ih =>
    rw [wordsOf_cons_blank hc]
    refine ih.imp id ?_
    rintro ⟨before, w, after, h⟩
    refine ⟨c :: before, w, after, by simp [h.split], h.word, ?_, h.ends, ?_, h.fails⟩
    · cases before with
      | nil => simp [StartsHere, hc]
      | cons b before => simpa [StartsHere] using h.starts
    · rw [wordsOf_cons_blank hc]
      exact h.passed
  | word v rest hv hrest ih =>
    rw [wordsOf_word_append hv hrest]
    by_cases hgood : good v
    · refine ih.imp (fun h => by simpa [hgood] using h) ?_
      rintro ⟨before, w, after, h⟩
      obtain ⟨hends, hne⟩ := endsHere_before h.word (h.split ▸ hrest)
      have hstarts := (@startsHere_append v before hne).mpr h.starts
      refine ⟨v ++ before, w, after, by simp [h.split], h.word, hstarts, h.ends, ?_, h.fails⟩
      rw [wordsOf_word_append hv hends]
      simpa [hgood] using h.passed
    · exact .inr ⟨[], v, rest, by simp, hv, by simp [StartsHere], hrest, by simp, hgood⟩

def wordLines (cs : List Char) : List (List (List Char)) := (splitWhen (· == '\n') cs).map wordsOf

@[simp] theorem wordLines_nil : wordLines [] = [[]] := by simp [wordLines, splitWhen]

@[simp] theorem wordLines_lineFeed : wordLines ('\n' :: rest) = [] :: wordLines rest := by
  simp [wordLines, splitWhen]

theorem wordLines_cons_blank {c : Char} (hc : isBlank c = true) (hne : c ≠ '\n') :
    wordLines (c :: rest) = wordLines rest := by
  obtain ⟨first, others, hsplit⟩ := exists_splitWhen (· == '\n') rest
  have hcons : splitWhen (· == '\n') (c :: rest) = _ := splitWhen_append [c] (by simp [hne]) hsplit
  simp [wordLines, hsplit, hcons, hc]

theorem wordLines_word_append {first : List (List Char)} {others : List (List (List Char))}
    (hw : IsWord w)
    (h : EndsHere rest) (hlines : wordLines rest = first :: others) :
    wordLines (w ++ rest) = (w :: first) :: others := by
  have hnl : ∀ c ∈ w, (c == '\n') = false := by
    intro c hc
    rw [beq_eq_false_iff_ne]
    rintro rfl
    exact hw.lineFeed_notMem hc
  obtain ⟨first', others', hsplit⟩ := exists_splitWhen (· == '\n') rest
  simp only [wordLines, hsplit, List.map_cons, List.cons.injEq] at hlines
  simp only [wordLines, splitWhen_append w hnl hsplit, List.map_cons]
  rw [wordsOf_word_append hw (h.of_splitWhen hsplit), hlines.1, hlines.2]

theorem exists_wordLines (cs : List Char) : ∃ first others, wordLines cs = first :: others := by
  obtain ⟨first, others, h⟩ := exists_splitWhen (· == '\n') cs
  exact ⟨_, _, by rw [wordLines, h, List.map_cons]⟩

theorem flatten_wordLines (cs : List Char) : (wordLines cs).flatten = wordsOf cs := by
  induction cs using wordInduction with
  | nil => simp
  | blank c rest hc ih =>
    by_cases hne : c = '\n'
    · subst hne
      simpa [hc] using ih
    · rw [wordLines_cons_blank hc hne, wordsOf_cons_blank hc, ih]
  | word w rest hw hrest ih =>
    obtain ⟨first, others, hlines⟩ := exists_wordLines rest
    rw [wordLines_word_append hw hrest hlines, wordsOf_word_append hw hrest, ← ih, hlines]
    simp

theorem isWord_of_mem_wordsOf {cs : List Char} (h : w ∈ wordsOf cs) : IsWord w := by
  induction cs using wordInduction with
  | nil => simp at h
  | blank c rest hc ih =>
    rw [wordsOf_cons_blank hc] at h
    exact ih h
  | word v rest hv hrest ih =>
    rw [wordsOf_word_append hv hrest] at h
    rcases List.mem_cons.mp h with rfl | h
    · exact hv
    · exact ih h

theorem exists_mem_wordsOf {c : Char} {cs : List Char} :
    (∃ w ∈ wordsOf cs, c ∈ w) ↔ c ∈ cs ∧ isBlank c = false := by
  induction cs using wordInduction with
  | nil => simp
  | blank b rest hb ih =>
    rw [wordsOf_cons_blank hb, ih, List.mem_cons]
    constructor
    · exact fun ⟨hmem, hc⟩ => ⟨.inr hmem, hc⟩
    · rintro ⟨rfl | hmem, hc⟩
      · simp [hb] at hc
      · exact ⟨hmem, hc⟩
  | word w rest hw hrest ih =>
    rw [wordsOf_word_append hw hrest, List.mem_append, or_and_right, ← ih]
    simp only [List.mem_cons, exists_eq_or_imp]
    exact or_congr_left ⟨fun hmem => ⟨hmem, hw.unbroken c hmem⟩, And.left⟩

/-! ### A text with its characters changed -/

variable {f : Char → Char}

theorem splitWhen_map (hf : ∀ c, p (f c) = p c) (cs : List Char) :
    splitWhen p (cs.map f) = (splitWhen p cs).map (List.map f) := by
  induction cs with
  | nil => rfl
  | cons c cs ih =>
    obtain ⟨first, others, hsplit⟩ := exists_splitWhen p cs
    rw [hsplit] at ih
    by_cases hc : p c = true
    · simp [splitWhen, hf, hc, hsplit, ih]
    · simp [splitWhen, hf, hc, hsplit, ih]

theorem wordsOf_map (hf : ∀ c, isBlank (f c) = isBlank c) (cs : List Char) :
    wordsOf (cs.map f) = (wordsOf cs).map (List.map f) := by
  rw [wordsOf, splitWhen_map hf, List.filter_map, wordsOf]
  exact congrArg _ (List.filter_congr fun w _ => by simp)

theorem wordLines_map (hf : ∀ c, isBlank (f c) = isBlank c) (hline : ∀ c, f c = '\n' ↔ c = '\n')
    (cs : List Char) : wordLines (cs.map f) = (wordLines cs).map (List.map (List.map f)) := by
  have hsame (c : Char) : (f c == '\n') = (c == '\n') := by
    rw [Bool.eq_iff_iff, beq_iff_eq, beq_iff_eq, hline]
  have hsplit := splitWhen_map (p := (· == '\n')) hsame cs
  rw [wordLines, hsplit, wordLines, List.map_map, List.map_map]
  exact List.map_congr_left fun part _ => wordsOf_map hf part

/-! ### Putting a text together -/

theorem wordLines_line_append {ws first : List (List Char)} {others : List (List (List Char))}
    (hne : ws ≠ [])
    (hws : ∀ v ∈ ws, IsWord v) (h : EndsHere rest) (hlines : wordLines rest = first :: others) :
    wordLines ([' '].intercalate ws ++ rest) = (ws ++ first) :: others := by
  induction ws with
  | nil => exact absurd rfl hne
  | cons w ws ih =>
    have hw := hws w (by simp)
    cases ws with
    | nil =>
      rw [List.intercalate_singleton]
      exact wordLines_word_append hw h hlines
    | cons w' ws =>
      have htail := ih (by simp) fun v hv => hws v (List.mem_cons_of_mem _ hv)
      have hblank : wordLines (' ' :: ([' '].intercalate (w' :: ws) ++ rest)) = _ :=
        (wordLines_cons_blank (by decide) (by decide)).trans htail
      rw [List.intercalate_cons_cons, List.append_assoc, List.append_assoc]
      exact wordLines_word_append hw (endsHere_cons.mpr (by decide)) hblank

theorem wordsOf_intercalate {ws : List (List Char)} (hws : ∀ v ∈ ws, IsWord v) :
    wordsOf ([' '].intercalate ws) = ws := by
  by_cases hne : ws = []
  · rw [hne]
    rfl
  · have hline := wordLines_line_append hne hws endsHere_nil wordLines_nil
    rw [List.append_nil, List.append_nil] at hline
    rw [← flatten_wordLines, hline, List.flatten_singleton]

theorem wordLines_intercalate (ls : List (List (List Char)))
    (hls : ∀ ws ∈ ls, ws ≠ [] ∧ ∀ v ∈ ws, IsWord v) :
    (wordLines (['\n'].intercalate (ls.map [' '].intercalate))).filter (!·.isEmpty) = ls := by
  induction ls with
  | nil => simp
  | cons ws ls ih =>
    obtain ⟨hne, hws⟩ := hls ws (by simp)
    have htail := ih fun ws hws => hls ws (List.mem_cons_of_mem _ hws)
    cases ls with
    | nil =>
      have hline := wordLines_line_append hne hws endsHere_nil wordLines_nil
      simp only [List.append_nil] at hline
      simp [hline, hne]
    | cons ws' ls =>
      have hline := wordLines_line_append hne hws (endsHere_cons.mpr (by decide))
        (@wordLines_lineFeed (['\n'].intercalate ((ws' :: ls).map [' '].intercalate)))
      rw [List.map_cons] at hline ⊢
      rw [List.map_cons, List.intercalate_cons_cons, List.append_assoc,
        List.singleton_append, hline, List.append_nil, List.filter_cons_of_pos (by simpa using hne),
        ← List.map_cons, htail]

structure Trimmed (cs : List Char) : Prop where
  nonempty : cs ≠ []
  starts : ∀ c ∈ cs.head?, isBlank c = false
  ends : ∀ c ∈ cs.getLast?, isBlank c = false

theorem IsWord.trimmed (h : IsWord w) : Trimmed w :=
  ⟨h.nonempty, fun c hc => h.unbroken c (List.mem_of_mem_head? hc),
    fun c hc => h.unbroken c (List.mem_of_getLast? hc)⟩

theorem Trimmed.trim_eq {cs : List Char} (h : Trimmed cs) : trim cs = cs := by
  rw [trim, dropWhile_eq_self h.starts, dropEndWhile_eq_self h.ends]

theorem Trimmed.append {xs ys : List Char} (hx : Trimmed xs) (between : List Char)
    (hy : Trimmed ys) :
    Trimmed (xs ++ (between ++ ys)) := by
  have hhead := List.head?_eq_some_head hx.nonempty
  have hlast := List.getLast?_eq_some_getLast hy.nonempty
  refine ⟨by simp [hx.nonempty], fun c hc => hx.starts c ?_, fun c hc => hy.ends c ?_⟩
  · simpa [List.head?_append, hhead] using hc
  · simpa [List.getLast?_append, hlast] using hc

theorem trimmed_intercalate {xss : List (List Char)} (between : List Char) (hne : xss ≠ [])
    (hxss : ∀ xs ∈ xss, Trimmed xs) : Trimmed (between.intercalate xss) := by
  induction xss with
  | nil => exact absurd rfl hne
  | cons xs xss ih =>
    have hx := hxss xs (by simp)
    cases xss with
    | nil => simpa using hx
    | cons ys xss =>
      have htail := ih (by simp) fun zs hzs => hxss zs (List.mem_cons_of_mem _ hzs)
      rw [List.intercalate_cons_cons]
      simpa using hx.append between htail

end Booru.Text
