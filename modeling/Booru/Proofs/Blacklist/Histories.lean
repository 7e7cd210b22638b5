import Booru.Proofs.Blacklist.RoundTrip
import Booru.Proofs.Blacklist.Rounds
import Booru.Proofs.Blacklist.Shelves

/-! Blacklists over a whole history: texts are read, blacklists joined, and users resolved with
look-ups that may fail, in any order. Whatever comes of it is made of terms as they are read and of
users with a number, and can be written down and read again at any time. -/

namespace Booru.Blacklist

open Run

variable {σ : Type}

/-- What is done with the blacklists made so far, each named by its place among them. -/
inductive Deed (σ : Type)
  | read (source : String)
  | join (first second : Nat)
  | resolve (which : Nat) (lookup : UserLookup σ)

def Deed.perform (s : σ × Shelf) : Deed σ → σ × Shelf
  | .read source =>
    match parse source with
    | .ok b => (s.1, s.2.add b)
    | .error _ => s
  | .join first second => (s.1, (s.2.join? first second).getD s.2)
  | .resolve which lookup => (Shelf.resolve which lookup s).2

def madeBy (deeds : List (Deed σ)) (s : σ) : List Blacklist :=
  let shelf := (deeds.foldl Deed.perform (s, .empty)).2
  shelf.blacklists.map shelf.shown

/-- A term as it is read, or a user with a number. -/
inductive Token.Regular : Token → Prop
  | canonical {t : Token} : t.Canonical → Regular t
  | numbered {n : Int} {negated : Bool} : fitsWord n = true →
      Regular { kind := .user, payload := toString n, negated, value := some n, resolved := true }

def Regular (b : Blacklist) : Prop := ∀ l ∈ b.lines, l ≠ [] ∧ ∀ t ∈ l, t.Regular

/-- The term with a user's number taken for the user's name. -/
def Token.named (t : Token) : Token :=
  match t.kind, t.resolved, t.value with
  | .user, true, some n => .ofUser (toString n) t.negated
  | _, _, _ => t

variable {a b : Blacklist} {t u : Token}

/-! ### One deed -/

theorem regular_parse {source : String} (h : parse source = .ok b) : b.Regular := by
  unfold parse at h
  cases hlex : lex source with
  | error e => simp [hlex] at h
  | ok lines =>
    obtain rfl : ⟨lines⟩ = b := by simpa [hlex] using h
    intro l hl
    obtain ⟨hne, hterms⟩ := canonical_of_lex hlex l hl
    exact ⟨hne, fun t ht => .canonical (hterms t ht)⟩

def Line.Regular (l : Line) : Prop := l ≠ [] ∧ ∀ t ∈ l, t.Regular

theorem Token.regular_numbered {numbers : List (String × Int)}
    (hfit : ∀ e ∈ numbers, fitsWord e.2 = true)
    (h : t.numbered numbers = .ok u) : u.Regular := by
  unfold Token.numbered at h
  split at h
  · cases h
  · rename_i n hn
    have hu := mapError_eq_ok.mp h
    unfold withUser at hu
    split at hu
    · cases hu
      exact .numbered (hfit _ (mem_of_lookup_eq_some hn))
    · cases hu

theorem Line.regular_numbered {numbers : List (String × Int)}
    (hfit : ∀ e ∈ numbers, fitsWord e.2 = true) {l : Line} (h : ∀ t ∈ l, t.Regular) :
    ∀ t ∈ (Line.numbered numbers l).2, t.Regular := by
  induction l with
  | nil => exact h
  | cons t rest ih =>
    obtain ⟨ht, hrest⟩ := List.forall_mem_cons.mp h
    rw [Line.numbered]
    split
    · split
      · exact h
      · rename_i u hu
        exact List.forall_mem_cons.mpr ⟨Token.regular_numbered hfit hu, ih hrest⟩
    · exact List.forall_mem_cons.mpr ⟨ht, ih hrest⟩

theorem Line.numbered_ne_nil (numbers : List (String × Int)) {l : Line} (h : l ≠ []) :
    (Line.numbered numbers l).2 ≠ [] := by
  obtain ⟨t, rest, rfl⟩ := List.exists_cons_of_ne_nil h
  rw [Line.numbered]
  split
  · split <;> exact List.cons_ne_nil _ _
  · exact List.cons_ne_nil _ _

theorem regular_numberedAt {numbers : List (String × Int)}
    (hfit : ∀ e ∈ numbers, fitsWord e.2 = true) {places : List Nat} {lines : List Line}
    (hplaces : ∀ k ∈ places, k < lines.length)
    (h : ∀ l ∈ lines, l.Regular) : ∀ l ∈ (numberedAt numbers places lines).2, l.Regular := by
  induction places generalizing lines with
  | nil => exact h
  | cons k rest ih =>
    obtain ⟨hk, hrest⟩ := List.forall_mem_cons.mp hplaces
    have hold := h _ (getD_mem hk)
    have hset {l : Line} (hl : l.Regular) : ∀ m ∈ lines.set k l, m.Regular := by
      intro m hm
      rcases List.mem_or_eq_of_mem_set hm with hm | rfl
      · exact h m hm
      · exact hl
    have hnew : Line.Regular (Line.numbered numbers (lines.getD k [])).2 :=
      ⟨Line.numbered_ne_nil numbers hold.1, Line.regular_numbered hfit hold.2⟩
    rw [numberedAt]
    rcases hline : Line.numbered numbers (lines.getD k []) with ⟨f | n, l⟩ <;> rw [hline] at hnew
    · exact hset hnew
    · exact ih (by simpa using hrest) (hset hnew)

theorem fits_lookUpNumbers {lookup : UserLookup σ} {tokens : List Token} {s s' : σ}
    {numbers : List (String × Int)} (h : lookUpNumbers lookup tokens [] s = (.ok numbers, s')) :
    ∀ e ∈ numbers, fitsWord e.2 = true := by
  have hshadow := shadows_lookUpNumbers lookup tokens [] (s, [])
  rw [h] at hshadow
  obtain ⟨found, _, -, hfit, hrun⟩ | ⟨_, _, _, _, _, _, -, -, -, hrun⟩ :=
    lookUpNumbers_recorded lookup tokens [] s []
  · rw [hrun] at hshadow
    cases hshadow
    exact hfit
  · rw [hrun] at hshadow
    cases hshadow

namespace Shelf

variable {s : Shelf}

def Regular (s : Shelf) : Prop := ∀ l ∈ s.lines, l.Regular

theorem Regular.shown (h : s.Regular) {places : List Nat} (hplaces : places ∈ s.blacklists) :
    (s.shown places).Regular := by
  intro l hl
  obtain ⟨k, hk, rfl⟩ := List.mem_map.mp hl
  exact h _ (getD_mem (s.placed places hplaces k hk))

theorem Regular.blacklist? (h : s.Regular) {which : Nat} (hb : s.blacklist? which = some b) :
    b.Regular := by
  obtain ⟨places, hplaces, rfl⟩ := Option.map_eq_some_iff.mp hb
  exact h.shown (List.mem_of_getElem? hplaces)

theorem Regular.add (h : s.Regular) (hb : b.Regular) : (s.add b).Regular :=
  List.forall_mem_append.mpr ⟨h, hb⟩

theorem Regular.join? (h : s.Regular) {first second : Nat} {t : Shelf}
    (ht : s.join? first second = some t) :
    t.Regular := by
  obtain ⟨a, ha, ht⟩ := Option.bind_eq_some_iff.mp ht
  obtain ⟨b, hb, ht⟩ := Option.bind_eq_some_iff.mp ht
  cases ht
  exact h.add (List.forall_mem_append.mpr ⟨h.blacklist? ha, h.blacklist? hb⟩)

theorem Regular.resolve (h : s.Regular) (which : Nat) (lookup : UserLookup σ) (t : σ) :
    (resolve which lookup (t, s)).2.2.Regular := by
  unfold Shelf.resolve
  rcases hnumbers : lookUpNumbers lookup (s.shown (s.places which)).tokens [] t
    with ⟨f | numbers, u⟩
  · exact h
  · exact regular_numberedAt (fits_lookUpNumbers hnumbers) (fun k => lt_of_mem_places) h

end Shelf

theorem Deed.regular_perform (d : Deed σ) {s : σ × Shelf} (h : s.2.Regular) :
    (d.perform s).2.Regular := by
  cases d with
  | read source =>
    simp only [perform]
    split
    · rename_i b hb
      exact h.add (regular_parse hb)
    · exact h
  | join first second =>
    simp only [perform]
    cases hjoin : s.2.join? first second with
    | none => exact h
    | some t => exact h.join? hjoin
  | resolve which lookup => exact h.resolve which lookup s.1

/-! ### A whole history -/

theorem regular_foldl (deeds : List (Deed σ)) {s : σ × Shelf} (h : s.2.Regular) :
    (deeds.foldl Deed.perform s).2.Regular := by
  induction deeds generalizing s with
  | nil => exact h
  | cons d deeds ih => exact ih (d.regular_perform h)

/-! ### What regular blacklists are good for -/

theorem foldChar_numeral {c : Char} (h : c = '-' ∨ c.isDigit = true) :
    isTagChar c = true ∧ foldChar c = c := by
  have hascii : c.toNat < 128 := by
    rcases h with rfl | hdigit
    · decide
    · have := Text.toNat_of_isDigit hdigit
      omega
  refine Text.forall_ascii (motive := fun c =>
    c = '-' ∨ c.isDigit = true → isTagChar c = true ∧ foldChar c = c) ?_ hascii h
  decide

theorem isFolded_toString (n : Int) : IsFolded (toString n) := by
  have hchars : ∀ c ∈ (toString n).toList, c = '-' ∨ c.isDigit = true := by
    intro c hc
    rw [toList_toString] at hc
    rcases List.mem_append.mp hc with hsign | hdigit
    · unfold signMark at hsign
      split at hsign
      · exact .inl (List.mem_singleton.mp hsign)
      · simp at hsign
    · exact .inr ((isNumeral_toDigits n.natAbs).digits c hdigit)
  refine ⟨⟨?_, fun c hc => (foldChar_numeral (hchars c hc)).1⟩, ?_⟩
  · intro hnil
    rw [toList_toString] at hnil
    exact (isNumeral_toDigits n.natAbs).nonempty (List.append_eq_nil_iff.mp hnil).2
  · rw [← String.toList_inj, toList_foldName]
    exact (List.map_congr_left fun c hc => (foldChar_numeral (hchars c hc)).2).trans (List.map_id _)

theorem Token.Regular.canonical_named (h : t.Regular) : t.named.Canonical := by
  cases h with
  | canonical h =>
    have hsame : t.named = t := by cases h <;> rfl
    rwa [hsame]
  | numbered hfit => exact .user (isFolded_toString _)

theorem Token.Regular.render_named (h : t.Regular) : t.named.render = t.render := by
  cases h with
  | canonical h => cases h <;> rfl
  | numbered hfit => rfl

theorem Regular.canonical_named (h : b.Regular) :
    Canonical (b.lines.map fun l => l.map Token.named) := by
  intro l' hl'
  obtain ⟨l, hl, rfl⟩ := List.mem_map.mp hl'
  obtain ⟨hne, hterms⟩ := h l hl
  refine ⟨by simpa using hne, fun t' ht' => ?_⟩
  obtain ⟨t, ht, rfl⟩ := List.mem_map.mp ht'
  exact (hterms t ht).canonical_named

theorem Regular.render_named (h : b.Regular) :
    Blacklist.render ⟨b.lines.map fun l => l.map Token.named⟩ = b.render := by
  simp only [Blacklist.render, List.map_map]
  congr 1
  refine List.map_congr_left fun l hl => ?_
  simp only [Function.comp_apply, Line.render, List.map_map]
  congr 1
  exact List.map_congr_left fun t ht => ((h l hl).2 t ht).render_named

theorem Regular.lex_render (h : b.Regular) :
    lex b.render = .ok (b.lines.map fun l => l.map Token.named) := by
  rw [← h.render_named]
  exact Blacklist.lex_render h.canonical_named

theorem filter_eq_error {posts : List Post} {f : Failure} : b.filter posts = .error f ↔
    f = .unresolvedUsers ∧ ∃ t ∈ b.tokens, t.kind = .user ∧ t.resolved = false := by
  have husers : b.hasUnresolvedUsers = true ↔ ∃ t ∈ b.tokens, t.kind = .user ∧
      t.resolved = false := by
    simp [hasUnresolvedUsers, Token.isUnresolvedUser]
  rw [← husers]
  unfold Blacklist.filter
  split
  · rename_i h
    simp [h, eq_comm]
  · rename_i h
    simp [h]

/-- After any history, each blacklist has full lines of regular terms, filtering with it
fails exactly if a user in it has no number, and its written form reads as the same terms
with numbers for names. -/
theorem regular_throughout (deeds : List (Deed σ)) (s : σ) : ∀ b ∈ madeBy deeds s,
    b.Regular ∧
    (∀ posts,
      ((∃ f, b.filter posts = .error f) ↔
        ∃ t ∈ b.tokens, t.kind = .user ∧ t.resolved = false) ∧
      ∀ f, b.filter posts = .error f → f.kind = .precondition) ∧
    lex b.render = .ok (b.lines.map fun l => l.map Token.named) := by
  intro b hb
  obtain ⟨places, hplaces, rfl⟩ := List.mem_map.mp hb
  have hregular := (regular_foldl deeds (s := (s, .empty)) (List.forall_mem_nil _)).shown hplaces
  refine ⟨hregular, fun posts => ⟨?_, fun f hf => ?_⟩, hregular.lex_render⟩
  · simp [filter_eq_error]
  · rw [(filter_eq_error.mp hf).1]
    rfl

def hiddenUser : Line := [.ofUser "bob" true, .ofTag "a" false]

def numberedUser : Line := [(Token.ofUser "bob" true).resolvedTo (-5), .ofTag "a" false]

def twoRounds : List (Deed Unit) :=
  [.read (Blacklist.render ⟨[hiddenUser]⟩), .join 0 0, .resolve 1 fun _ => throw .unresolvedUsers,
    .resolve 1 fun _ => pure (.int (-5))]

theorem regular_throughout_two_rounds :
    ⟨[numberedUser, numberedUser]⟩ ∈ madeBy twoRounds () ∧ Regular ⟨[numberedUser, numberedUser]⟩ ∧
    lex (Blacklist.render ⟨[numberedUser, numberedUser]⟩) =
      .ok [[.ofUser "-5" true, .ofTag "a" false], [.ofUser "-5" true, .ofTag "a" false]] := by
  have hcanonical : Canonical [hiddenUser] := by
    have htag : IsFolded "a" := ⟨⟨by decide, List.all_eq_true.mp (by decide)⟩, by decide⟩
    have hname : IsFolded "bob" := ⟨⟨by decide, List.all_eq_true.mp (by decide)⟩, by decide⟩
    intro l hl
    rw [List.mem_singleton.mp hl]
    refine ⟨by simp [hiddenUser], fun t ht => ?_⟩
    simp only [hiddenUser, List.mem_cons, List.not_mem_nil, or_false] at ht
    rcases ht with rfl | rfl
    · exact .user hname
    · exact .plain htag (by decide)
  have hread : parse (Blacklist.render ⟨[hiddenUser]⟩) = .ok ⟨[hiddenUser]⟩ := by
    simp only [parse, lex_render hcanonical]
  have hmade : madeBy twoRounds () = [⟨[hiddenUser]⟩, ⟨[numberedUser, numberedUser]⟩] := by
    simp only [madeBy, twoRounds, List.foldl_cons, List.foldl_nil, Deed.perform, hread]
    rfl
  have hmem : ⟨[numberedUser, numberedUser]⟩ ∈ madeBy twoRounds () := by simp [hmade]
  obtain ⟨hregular, -, hlex⟩ := regular_throughout twoRounds () _ hmem
  exact ⟨hmem, hregular, hlex⟩

end Booru.Blacklist
