import Booru.Proofs.Blacklist.RoundTrip
import Booru.Proofs.Text.Trimming

/-! Two blacklist texts with a line feed between them read as the one and the other, failures
included. -/

namespace Booru.Blacklist

open Text

/-- The failure in a text as the failure in the same text with more in front of it. -/
def LexFailure.behind (more : List Char) : LexFailure → LexFailure
  | .malformed e => .malformed ⟨e.problem, more.length + e.offset, more.count '\n' + e.line⟩
  | .integer e => .integer e

theorem LexFailure.after_append (more before : List Char) (e : LexFailure) :
    e.after (more ++ before) = (e.after before).behind more := by
  cases e with
  | malformed e =>
    simp only [LexFailure.after, LexFailure.behind, List.length_append,
      List.count_append, Nat.add_assoc]
  | integer e => rfl

variable {source : String} {xs ys : List Char}

theorem lex_ok_iff_reads : (∃ lines, lex source = .ok lines) ↔
    ∀ w ∈ wordsOf source.toList, Reads w := by
  rw [lex_eq_ok_iff, wordsOf_trim]

theorem lex_eq_of_gives {lines : List Line} (hgood : ∀ w ∈ wordsOf source.toList, Reads w)
    (hlines : List.Forall₂ (List.Forall₂ Gives) (fullLines source.toList) lines) :
    lex source = .ok lines := by
  rw [← wordsOf_trim] at hgood
  obtain ⟨lines', hlex, htokens⟩ := lex_good hgood
  have hfull : List.Forall₂ (List.Forall₂ Gives) (fullLines source.toList) lines' := by
    rw [← fullLines_trim]
    exact htokens
  rw [hlex, gives_rightUnique.forall₂.forall₂ hfull hlines]

theorem gives_fullLines {lines : List Line} (h : lex source = .ok lines) :
    List.Forall₂ (List.Forall₂ Gives) (fullLines source.toList) lines := by
  have htokens := (lex_word_by_word source).2.1 lines h
  rw [← fullLines_trim]
  exact htokens

theorem wordsOf_append_lineFeed (xs ys : List Char) :
    wordsOf (xs ++ '\n' :: ys) = wordsOf xs ++ wordsOf ys := by
  rw [wordsOf_append_of_endsHere (endsHere_cons.mpr (by decide)), wordsOf_cons_blank (by decide)]

/-! ### Where the joined text is cut off -/

theorem blanks_lineFeed : Blanks ['\n'] := by
  intro c hc
  rw [List.mem_singleton.mp hc]
  decide

theorem trim_joined_left (hx : Blanks xs) : trim (xs ++ '\n' :: ys) = trim ys := by
  have hlead : Blanks (xs ++ ['\n']) := hx.append blanks_lineFeed
  rw [← List.singleton_append, ← List.append_assoc, trim, List.dropWhile_append_of_pos hlead, trim]

def joint (xs ys : List Char) : List Char := xs.dropWhile isBlank ++ '\n' :: ys.takeWhile isBlank

theorem trim_joined (hx : ¬ Blanks xs) (hy : ¬ Blanks ys) :
    trim (xs ++ '\n' :: ys) = joint xs ys ++ trim ys := by
  obtain ⟨lead, body, trail, rfl, hlead, hbody, htrail⟩ := (exists_trimmed xs).resolve_left hx
  obtain ⟨lead', body', trail', rfl, hlead', hbody', htrail'⟩ := (exists_trimmed ys).resolve_left hy
  have htake : (lead' ++ (body' ++ trail')).takeWhile isBlank = lead' := by
    have hdrop : (lead' ++ (body' ++ trail')).dropWhile isBlank = body' ++ trail' := by
      rw [List.dropWhile_append_of_pos hlead', hbody'.dropWhile_append]
    have hsplit := @List.takeWhile_append_dropWhile _ isBlank (lead' ++ (body' ++ trail'))
    rw [hdrop] at hsplit
    exact List.append_cancel_right hsplit
  have hwhole := hbody.append (trail ++ '\n' :: lead') hbody'
  have htrim := hwhole.trim_between hlead htrail'
  rw [hbody'.trim_between hlead' htrail', joint, htake, List.dropWhile_append_of_pos hlead,
    hbody.dropWhile_append]
  simpa using htrim

theorem exists_trim_joined (hx : ¬ Blanks xs) :
    ∃ more, EndsHere more ∧ trim (xs ++ '\n' :: ys) = trim xs ++ more := by
  obtain ⟨lead, body, trail, rfl, hlead, hbody, htrail⟩ := (exists_trimmed xs).resolve_left hx
  have hbreak : Blanks (trail ++ ['\n']) := htrail.append blanks_lineFeed
  rw [hbody.trim_between hlead htrail]
  by_cases hy : Blanks ys
  · have htrim := hbody.trim_between hlead (hbreak.append hy)
    exact ⟨[], endsHere_nil, by simpa using htrim⟩
  · refine ⟨(trail ++ ['\n']) ++ (ys.takeWhile isBlank ++ trim ys), ?_, ?_⟩
    · exact endsHere_append hbreak.endsHere fun h => by simp at h
    · rw [trim_joined (fun h => hx h) hy, joint, List.dropWhile_append_of_pos hlead,
        hbody.dropWhile_append]
      simp

/-! ### Failures -/

theorem not_blanks_of_error {e : LexFailure} (h : lex source = .error e) :
    ¬ Blanks source.toList := by
  intro hblank
  have hwords : ∀ w ∈ wordsOf source.toList, Reads w := by simp [wordsOf_blanks hblank]
  obtain ⟨lines, hlines⟩ := lex_ok_iff_reads.mpr hwords
  simp [hlines] at h

variable {a b : String}

theorem toList_joined (a b : String) : (a ++ "\n" ++ b).toList = a.toList ++ '\n' :: b.toList := by
  simp

theorem lex_joined_first {e : LexFailure} (h : lex a = .error e) :
    lex (a ++ "\n" ++ b) = .error e := by
  obtain ⟨more, hmore, htrim⟩ := @exists_trim_joined a.toList b.toList (not_blanks_of_error h)
  obtain ⟨before, w, after, e₀, hfirst, hword, he⟩ := lex_eq_error_iff.mp h
  have hjoined := hfirst.append hmore
  rw [← htrim, ← toList_joined] at hjoined
  exact lex_eq_error_iff.mpr ⟨before, w, _, e₀, hjoined, hword, he⟩

theorem lex_joined_blank (ha : Blanks a.toList) : lex (a ++ "\n" ++ b) = lex b := by
  have htrim : trim (a ++ "\n" ++ b).toList = trim b.toList := by
    rw [toList_joined, trim_joined_left ha]
  simp only [lex, htrim]

theorem lex_joined_second {e : LexFailure} (hgood : ∀ w ∈ wordsOf a.toList, Reads w)
    (ha : ¬ Blanks a.toList) (h : lex b = .error e) :
    lex (a ++ "\n" ++ b) = .error (e.behind (joint a.toList b.toList)) := by
  obtain ⟨before, w, after, e₀, hfirst, hword, he⟩ := lex_eq_error_iff.mp h
  have hbreak : Blanks ('\n' :: b.toList.takeWhile isBlank) :=
    blanks_lineFeed.append (blanks_takeWhile _)
  have hstarts : StartsHere (joint a.toList b.toList) :=
    (startsHere_append (by simp)).mpr hbreak.startsHere
  have hwords : wordsOf (joint a.toList b.toList) = wordsOf a.toList := by
    obtain ⟨lead, body, trail, hsplit, hlead, hbody, htrail⟩ :=
      (exists_trimmed a.toList).resolve_left ha
    rw [joint, wordsOf_append_of_endsHere hbreak.endsHere, wordsOf_blanks hbreak, List.append_nil,
      hsplit, List.dropWhile_append_of_pos hlead, hbody.dropWhile_append,
      wordsOf_blanks_append hlead]
  have hjoined := hfirst.prepend hstarts (by rwa [hwords])
  rw [← trim_joined ha (not_blanks_of_error h), ← toList_joined] at hjoined
  refine lex_eq_error_iff.mpr ⟨_, w, after, e₀, hjoined, hword, ?_⟩
  rw [he, LexFailure.after_append]

/-! ### Both texts -/

theorem lex_joined_ok {first second : List Line} (ha : lex a = .ok first)
    (hb : lex b = .ok second) :
    lex (a ++ "\n" ++ b) = .ok (first ++ second) := by
  refine lex_eq_of_gives (fun w hw => ?_) ?_
  · rw [toList_joined, wordsOf_append_lineFeed] at hw
    rcases List.mem_append.mp hw with hfirst | hsecond
    · exact lex_ok_iff_reads.mp ⟨first, ha⟩ w hfirst
    · exact lex_ok_iff_reads.mp ⟨second, hb⟩ w hsecond
  · rw [toList_joined, fullLines_append_lineFeed]
    exact List.rel_append (gives_fullLines ha) (gives_fullLines hb)

theorem lex_joined_parts {lines : List Line} (h : lex (a ++ "\n" ++ b) = .ok lines) :
    ∃ first second, lex a = .ok first ∧ lex b = .ok second ∧ lines = first ++ second := by
  have hgood := lex_ok_iff_reads.mp ⟨lines, h⟩
  rw [toList_joined, wordsOf_append_lineFeed] at hgood
  obtain ⟨first, ha⟩ := lex_ok_iff_reads.mpr fun w hw => hgood w (List.mem_append_left _ hw)
  obtain ⟨second, hb⟩ := lex_ok_iff_reads.mpr fun w hw => hgood w (List.mem_append_right _ hw)
  rw [lex_joined_ok ha hb, Except.ok.injEq] at h
  exact ⟨first, second, ha, hb, h.symm⟩

theorem parse_eq_ok {x : Blacklist} : parse source = .ok x ↔ lex source = .ok x.lines := by
  unfold parse
  cases hlex : lex source with
  | ok lines =>
    cases x
    simp
  | error e => simp

/-- Joining texts with a line feed joins what they read as. Of two texts, the first that fails makes
the joined text fail: the first one exactly as it does alone, the second one further down by what
stands in front of it, and not at all if the first text is blank. -/
theorem lex_append_lineFeed (a b : String) :
    (∀ lines, lex (a ++ "\n" ++ b) = .ok lines ↔
      ∃ first second, lex a = .ok first ∧ lex b = .ok second ∧ lines = first ++ second) ∧
    (∀ e, lex a = .error e → lex (a ++ "\n" ++ b) = .error e) ∧
    (∀ first e, lex a = .ok first → lex b = .error e →
      lex (a ++ "\n" ++ b) = .error (if (trim a.toList).isEmpty then e else
        e.behind (a.toList.dropWhile isBlank ++ '\n' :: b.toList.takeWhile isBlank))) ∧
    ∀ z, parse (a ++ "\n" ++ b) = .ok z ↔
      ∃ x y, parse a = .ok x ∧ parse b = .ok y ∧ z = x.extend y := by
  have hok : ∀ lines, lex (a ++ "\n" ++ b) = .ok lines ↔
      ∃ first second, lex a = .ok first ∧ lex b = .ok second ∧ lines = first ++ second := by
    refine fun lines => ⟨lex_joined_parts, ?_⟩
    rintro ⟨first, second, ha, hb, rfl⟩
    exact lex_joined_ok ha hb
  refine ⟨hok, fun e => lex_joined_first, fun first e ha hb => ?_, fun z => ?_⟩
  · have hgood := lex_ok_iff_reads.mp ⟨first, ha⟩
    by_cases hblank : Blanks a.toList
    · rw [lex_joined_blank hblank, hb, trim_blanks hblank]
      rfl
    · have hne := (trimmed_trim hblank).nonempty
      rw [lex_joined_second hgood hblank hb, if_neg (by simpa using hne), joint]
  · rw [parse_eq_ok, hok]
    constructor
    · rintro ⟨first, second, ha, hb, hlines⟩
      refine ⟨⟨first⟩, ⟨second⟩, parse_eq_ok.mpr ha, parse_eq_ok.mpr hb, ?_⟩
      cases z
      simpa [extend] using hlines
    · rintro ⟨x, y, hx, hy, rfl⟩
      exact ⟨x.lines, y.lines, parse_eq_ok.mp hx, parse_eq_ok.mp hy, rfl⟩

end Booru.Blacklist
