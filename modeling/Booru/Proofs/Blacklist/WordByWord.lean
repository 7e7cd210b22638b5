import Booru.Proofs.Blacklist.Reading
import Mathlib.Data.List.Forall2

/-! A blacklist text is read word by word: its lines are the terms of the words on its lines, and a
text that is no blacklist is refused for its first bad word as that word alone is. -/

namespace Booru.Blacklist

open Text

def Reads (w : List Char) : Prop := (∃ t, Spells w t) ∧ ∀ n, ¬ Overlong w n

/-- The term that a word spells, and that the lexer makes of the word alone. -/
def Gives (w : List Char) (t : Token) : Prop := Spells w t ∧ lex (String.ofList w) = .ok [[t]]

def LexFailure.after (before : List Char) : LexFailure → LexFailure
  | .malformed e => .malformed ⟨e.problem, before.length + e.offset, before.count '\n'⟩
  | .integer e => .integer e

variable {w before after rest text : List Char} {line : Line} {t : Token} {c : Char}

theorem reads_iff : Reads w ↔ ∃ t, wordToken w = .ok t := by
  simp only [Reads, wordToken_eq_ok, exists_and_right]

theorem exists_stop (h : ¬ Reads w) : ∃ e, wordToken w = .error e := by
  cases hw : wordToken w with
  | error e => exact ⟨e, rfl⟩
  | ok t => exact absurd (reads_iff.mpr ⟨t, hw⟩) h

theorem wordToken_inside {p : Problem} {left : Nat} (h : wordToken w = .error (.problem p left)) :
    left ≤ w.length := by
  unfold wordToken at h
  split at h
  · rename_i e hread
    rw [Except.error.inj h] at hread
    exact (inside_lexToken w).stops _ _ hread
  · simp at h
  · rename_i t c behind hread
    have hsuffix := (inside_lexToken w).leaves _ _ hread
    simp only [stop, Except.error.injEq, Stop.problem.injEq] at h
    rw [← h.2]
    exact hsuffix.length_le

/-! ### Steps of the scan -/

theorem scan_nil (line : Line) : scan line [] = .ok (consLine line []) := by
  rw [scan]

theorem scan_lineFeed (line : Line) (rest : List Char) :
    scan line ('\n' :: rest) = (scan [] rest).map (consLine line) := by
  rw [scan, if_pos rfl]

theorem scan_blank (line : Line) (hc : isBlank c = true) (hne : c ≠ '\n') :
    scan line (c :: rest) = scan line rest := by
  rw [scan, if_neg hne, if_pos hc]

theorem scan_word (line : Line) (hw : IsWord w) (hrest : EndsHere rest) :
    scan line (w ++ rest) = match wordToken w with
      | .ok t => scan (line ++ [t]) rest
      | .error e => .error (e.behind rest.length) := by
  have happend : lexToken (w ++ rest) = _ := lexToken_append hw.nonempty hrest
  obtain ⟨c, v, rfl⟩ := List.exists_cons_of_ne_nil hw.nonempty
  have hblank := hw.unbroken c (by simp)
  have hne : c ≠ '\n' := by
    rintro rfl
    exact hw.lineFeed_notMem (by simp)
  rw [List.cons_append] at happend ⊢
  rw [scan, if_neg hne, if_neg (by simp [hblank])]
  unfold wordToken
  cases hread : lexToken (c :: v) with
  | error e =>
    rw [hread, extended] at happend
    split <;> simp_all
  | ok r =>
    obtain ⟨t, behind⟩ := r
    rw [hread, extended] at happend
    split
    · simp_all
    · rename_i t' after hread'
      obtain ⟨rfl, rfl⟩ : t' = t ∧ after = behind ++ rest := by
        rw [happend] at hread'
        simpa [eq_comm] using hread'
      cases behind with
      | cons d behind =>
        -- the rest of a word is no white space
        have hsuffix := (inside_lexToken (c :: v)).leaves _ _ hread
        have hd := hw.unbroken d (hsuffix.subset (by simp))
        simp [hd, stop, Stop.behind]
        omega
      | nil =>
        cases rest with
        | nil => simp [scan_nil]
        | cons d rest =>
          have hd := endsHere_cons.mp hrest
          simp [hd]

theorem lex_of_scan_ok {source : String} {lines : List Line}
    (h : scan [] (trim source.toList) = .ok lines) :
    lex source = .ok lines := by
  simp only [lex, h]
  rfl

theorem lex_of_scan_error {source : String} {e : Stop}
    (h : scan [] (trim source.toList) = .error e) :
    lex source = .error (e.located (trim source.toList)) := by
  simp only [lex, h]
  rfl

/-! ### A word alone -/

theorem lex_word (hw : IsWord w) : lex (String.ofList w) = match wordToken w with
    | .ok t => .ok [[t]]
    | .error e => .error (e.located w) := by
  have hscan := scan_word [] hw endsHere_nil
  rw [List.append_nil] at hscan
  have htrim : trim (String.ofList w).toList = w := by rw [String.toList_ofList, hw.trimmed.trim_eq]
  cases ht : wordToken w with
  | ok t =>
    rw [ht] at hscan
    exact lex_of_scan_ok (by rw [htrim, hscan]; exact scan_nil [t])
  | error e =>
    have hstop : e.behind 0 = e := by cases e <;> rfl
    have hfail : scan [] w = .error e := by
      rw [hscan, ht]
      exact congrArg Except.error hstop
    rw [← htrim] at hfail
    rw [lex_of_scan_error hfail, htrim]

theorem gives_of_wordToken (hw : IsWord w) (ht : wordToken w = .ok t) : Gives w t := by
  refine ⟨(wordToken_eq_ok.mp ht).1, ?_⟩
  rw [lex_word hw, ht]

theorem lex_word_integer {i : IntegerError} (hw : IsWord w) :
    lex (String.ofList w) = .error (.integer i) ↔ ∃ n, Overlong w n ∧ i = .tooLong n := by
  rw [lex_word hw, ← wordToken_eq_integer]
  cases wordToken w with
  | ok t => simp
  | error e => cases e <;> simp [Stop.located]

/-! ### Whole scans -/

theorem scan_good (hgood : ∀ v ∈ wordsOf text, Reads v) : ∃ first others,
    List.Forall₂ (List.Forall₂ Gives) (wordLines text) (first :: others) ∧
      ∀ line, scan line text = .ok (consLine (line ++ first) (others.filter (!·.isEmpty))) := by
  induction text using wordInduction with
  | nil => exact ⟨[], [], by simp, fun line => by simp [scan_nil]⟩
  | blank c rest hc ih =>
    rw [wordsOf_cons_blank hc] at hgood
    obtain ⟨first, others, hlines, hscan⟩ := ih hgood
    by_cases hne : c = '\n'
    · subst hne
      refine ⟨[], first :: others, by simpa using hlines, fun line => ?_⟩
      rw [scan_lineFeed, hscan]
      cases first <;> simp [Except.map, consLine]
    · refine ⟨first, others, by rwa [wordLines_cons_blank hc hne], fun line => ?_⟩
      rw [scan_blank line hc hne, hscan]
  | word v rest hv hrest ih =>
    rw [wordsOf_word_append hv hrest] at hgood
    obtain ⟨t, ht⟩ := reads_iff.mp (hgood v (by simp))
    obtain ⟨first, others, hlines, hscan⟩ := ih fun u hu => hgood u (List.mem_cons_of_mem _ hu)
    obtain ⟨ws, wss, hwords⟩ := exists_wordLines rest
    rw [hwords, List.forall₂_cons] at hlines
    refine ⟨t :: first, others, ?_, fun line => ?_⟩
    · rw [wordLines_word_append hv hrest hwords]
      exact .cons (.cons (gives_of_wordToken hv ht) hlines.1) hlines.2
    · rw [scan_word line hv hrest, ht]
      simp [hscan]

theorem scan_append {e : Stop} (hgood : ∀ v ∈ wordsOf before, Reads v) (hstarts : StartsHere before)
    (hrest : ∀ line, scan line rest = .error e) (line : Line) :
    scan line (before ++ rest) = .error e := by
  induction before using wordInduction generalizing line with
  | nil => exact hrest line
  | blank c before hc ih =>
    rw [wordsOf_cons_blank hc] at hgood
    have htail := ih hgood hstarts.of_cons
    by_cases hne : c = '\n'
    · subst hne
      rw [List.cons_append, scan_lineFeed, htail]
      rfl
    · rw [List.cons_append, scan_blank line hc hne, htail]
  | word v before hv hends ih =>
    rw [wordsOf_word_append hv hends] at hgood
    obtain ⟨t, ht⟩ := reads_iff.mp (hgood v (by simp))
    -- the text starts a word behind it, so it does not end with one
    have hne : before ≠ [] := by
      rintro rfl
      rw [List.append_nil] at hstarts
      have hlast := List.getLast?_eq_some_getLast hv.nonempty
      have hc := hv.unbroken _ (List.mem_of_getLast? hlast)
      simp [hstarts _ hlast] at hc
    have hboth : EndsHere (before ++ rest) := endsHere_append hends fun h => absurd h hne
    rw [List.append_assoc, scan_word line hv hboth, ht]
    exact ih (fun u hu => hgood u (List.mem_cons_of_mem _ hu))
      ((startsHere_append hne).mp hstarts) _

theorem scan_firstFailing {e : Stop} (h : FirstFailing Reads text before w after)
    (he : wordToken w = .error e)
    (line : Line) : scan line text = .error (e.behind after.length) := by
  rw [h.split]
  refine scan_append h.passed h.starts (fun line => ?_) line
  rw [scan_word line h.word h.ends, he]

/-! ### Places -/

theorem Stop.located_behind {e : Stop} (hw : IsWord w) (he : wordToken w = .error e)
    (before after : List Char) :
    (e.behind after.length).located (before ++ (w ++ after)) = (e.located w).after before := by
  cases e with
  | integer e => rfl
  | problem p left =>
    have hleft := wordToken_inside he
    have hlength : (before ++ (w ++ after)).length - (left + after.length) =
        before.length + (w.length - left) := by
      simp only [List.length_append]
      omega
    have htake : (before ++ (w ++ after)).take (before.length + (w.length - left)) =
        before ++ w.take (w.length - left) := by
      rw [List.take_length_add_append, List.take_append_of_le_length (by omega)]
    have hcount : (w.take (w.length - left)).count '\n' = 0 := by
      exact List.count_eq_zero.mpr fun hmem => hw.lineFeed_notMem (List.mem_of_mem_take hmem)
    simp only [Stop.behind, Stop.located, LexFailure.after, hlength, htake]
    simp only [List.length_append, List.count_append, hcount, Nat.add_zero]

/-! ### Texts -/

variable {source : String}

theorem lex_good (hgood : ∀ v ∈ wordsOf (trim source.toList), Reads v) :
    ∃ lines, lex source = .ok lines ∧
    List.Forall₂ (List.Forall₂ Gives)
      ((wordLines (trim source.toList)).filter (!·.isEmpty)) lines := by
  obtain ⟨first, others, hlines, hscan⟩ := scan_good hgood
  refine ⟨(first :: others).filter (!·.isEmpty), ?_, ?_⟩
  · rw [lex_of_scan_ok (hscan [])]
    cases first <;> simp [consLine]
  · refine List.rel_filter ?_ hlines
    intro ws ts hws
    cases hws <;> simp

theorem lex_firstFailing (h : FirstFailing Reads (trim source.toList) before w after) :
    ∃ e, lex (String.ofList w) = .error e ∧ lex source = .error (e.after before) := by
  obtain ⟨e, he⟩ := exists_stop h.fails
  refine ⟨e.located w, by rw [lex_word h.word, he], ?_⟩
  have hplace := Stop.located_behind h.word he before after
  rw [← h.split] at hplace
  rw [lex_of_scan_error (scan_firstFailing h he []), hplace]

theorem lex_eq_error_iff {e : LexFailure} : lex source = .error e ↔ ∃ before w after e₀,
    FirstFailing Reads (trim source.toList) before w after ∧ lex (String.ofList w) = .error e₀ ∧
      e = e₀.after before := by
  constructor
  · intro h
    rcases exists_firstFailing Reads (trim source.toList) with hgood | ⟨before, w, after, hfirst⟩
    · obtain ⟨lines, hlines, -⟩ := lex_good hgood
      simp [hlines] at h
    · obtain ⟨e₀, hword, htext⟩ := lex_firstFailing hfirst
      rw [htext, Except.error.injEq] at h
      exact ⟨before, w, after, e₀, hfirst, hword, h.symm⟩
  · rintro ⟨before, w, after, e₀, hfirst, hword, rfl⟩
    obtain ⟨e₁, hword', htext⟩ := lex_firstFailing hfirst
    rw [hword, Except.error.injEq] at hword'
    rw [htext, hword']

theorem lex_eq_ok_iff :
    (∃ lines, lex source = .ok lines) ↔ ∀ v ∈ wordsOf (trim source.toList), Reads v := by
  constructor
  · rintro ⟨lines, h⟩
    rcases exists_firstFailing Reads (trim source.toList) with hgood | ⟨before, w, after, hfirst⟩
    · exact hgood
    · obtain ⟨e, -, htext⟩ := lex_firstFailing hfirst
      simp [h] at htext
  · intro hgood
    obtain ⟨lines, hlines, -⟩ := lex_good hgood
    exact ⟨lines, hlines⟩

/-- The lexer is word by word. It takes a text if and only if it takes every word on every line;
then the lines are the terms of the words, each the one that the word spells and gives alone. Any
other text fails as its first bad word does alone, at the place of that word, and only a number with
too many digits makes that failure something else than a malformed term. -/
theorem lex_word_by_word (source : String) :
    ((∃ lines, lex source = .ok lines) ↔ ∀ ws ∈ wordLines (trim source.toList), ∀ w ∈ ws, Reads w) ∧
    (∀ lines, lex source = .ok lines →
      List.Forall₂ (List.Forall₂ Gives)
        ((wordLines (trim source.toList)).filter (!·.isEmpty)) lines) ∧
    ∀ e, lex source = .error e ↔ ∃ before w after e₀,
      FirstFailing Reads (trim source.toList) before w after ∧ lex (String.ofList w) = .error e₀ ∧
        e = e₀.after before ∧ ∀ i, e₀ = .integer i ↔ ∃ n, Overlong w n ∧ i = .tooLong n := by
  refine ⟨?_, fun lines h => ?_, fun e => ?_⟩
  · rw [lex_eq_ok_iff, ← flatten_wordLines]
    simp only [List.mem_flatten, forall_exists_index, and_imp]
    exact ⟨fun h ws hws w hw => h w ws hws hw, fun h w ws hws hw => h ws hws w hw⟩
  · obtain ⟨lines', hlines, htokens⟩ := lex_good (lex_eq_ok_iff.mp ⟨lines, h⟩)
    rw [h, Except.ok.injEq] at hlines
    rwa [hlines]
  · rw [lex_eq_error_iff]
    constructor
    · rintro ⟨before, w, after, e₀, hfirst, hword, he⟩
      refine ⟨before, w, after, e₀, hfirst, hword, he, fun i => ?_⟩
      rw [← lex_word_integer hfirst.word, hword, Except.error.injEq]
    · rintro ⟨before, w, after, e₀, hfirst, hword, he, -⟩
      exact ⟨before, w, after, e₀, hfirst, hword, he⟩

theorem LexFailure.after_eq_integer {e : LexFailure} {i : IntegerError} :
    e.after before = .integer i ↔ e = .integer i := by
  cases e <;> simp [LexFailure.after]

/-- A text that is no blacklist fails as a malformed term does, unless its first bad word starts
with a number of too many digits; the failure then is that of reading the number. -/
theorem lex_integer_iff (source : String) :
    (∀ i, lex source = .error (.integer i) ↔ ∃ before w after n,
      FirstFailing Reads (trim source.toList) before w after ∧ Overlong w n ∧ i = .tooLong n) ∧
    ((∃ lines, lex source = .ok lines) ∨ (∃ e, lex source = .error (.malformed e)) ↔
      ∀ before w after, FirstFailing Reads (trim source.toList) before w after →
        ∀ n, ¬ Overlong w n) := by
  have hinteger : ∀ i, lex source = .error (.integer i) ↔ ∃ before w after n,
      FirstFailing Reads (trim source.toList) before w after ∧ Overlong w n ∧ i = .tooLong n := by
    intro i
    rw [lex_eq_error_iff]
    constructor
    · rintro ⟨before, w, after, e₀, hfirst, hword, he⟩
      rw [LexFailure.after_eq_integer.mp he.symm] at hword
      obtain ⟨n, hlong, hi⟩ := (lex_word_integer hfirst.word).mp hword
      exact ⟨before, w, after, n, hfirst, hlong, hi⟩
    · rintro ⟨before, w, after, n, hfirst, hlong, hi⟩
      have hword := (lex_word_integer hfirst.word).mpr ⟨n, hlong, hi⟩
      exact ⟨before, w, after, .integer i, hfirst, hword, rfl⟩
  refine ⟨hinteger, ?_⟩
  constructor
  · intro h before w after hfirst n hlong
    have hfails := (hinteger (.tooLong n)).mpr ⟨before, w, after, n, hfirst, hlong, rfl⟩
    simp [hfails] at h
  · intro h
    cases htext : lex source with
    | ok lines => exact .inl ⟨lines, rfl⟩
    | error e =>
      cases e with
      | malformed e => exact .inr ⟨e, rfl⟩
      | integer i =>
        obtain ⟨before, w, after, n, hfirst, hlong, -⟩ := (hinteger i).mp htext
        exact absurd hlong (h before w after hfirst n)

end Booru.Blacklist
