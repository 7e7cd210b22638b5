import Booru.Proofs.Grabber.Keeping

/-! What a grab adds to a haul. Over a board whose answers depend on nothing but the question, a
grab comes to the same whenever it is made: it fails and leaves the haul as it is, or adds its
collection or its post and what it has left out. -/

namespace Booru

open Run

variable {σ α β ι : Type}

namespace Haul

def plus (h d : Haul) : Haul :=
  ⟨h.single ++ d.single, h.others ++ d.others, h.blacklisted + d.blacklisted, h.invalid + d.invalid⟩

def union (hauls : List Haul) : Haul := hauls.foldr plus {}

@[simp] theorem plus_empty (h : Haul) : h.plus {} = h := by simp [plus]

@[simp] theorem empty_plus (h : Haul) : plus {} h = h := by simp [plus]

theorem plus_assoc (h d e : Haul) : (h.plus d).plus e = h.plus (d.plus e) := by
  simp only [plus, List.append_assoc, Nat.add_assoc]

theorem union_append (hauls more : List Haul) :
    union (hauls ++ more) = (union hauls).plus (union more) := by
  induction hauls with
  | nil => simp [union]
  | cons h hauls ih => simp [union, plus_assoc] at ih ⊢; rw [ih]

theorem single_union (hauls : List Haul) : (union hauls).single = hauls.flatMap (·.single) := by
  induction hauls with
  | nil => rfl
  | cons h hauls ih => exact congrArg (h.single ++ ·) ih

theorem others_union (hauls : List Haul) : (union hauls).others = hauls.flatMap (·.others) := by
  induction hauls with
  | nil => rfl
  | cons h hauls ih => exact congrArg (h.others ++ ·) ih

/-- The same up to the order of single posts and of collections. -/
structure Rearranged (h d : Haul) : Prop where
  single : h.single.Perm d.single
  others : h.others.Perm d.others
  blacklisted : h.blacklisted = d.blacklisted
  invalid : h.invalid = d.invalid

theorem Rearranged.refl (h : Haul) : h.Rearranged h := ⟨.refl _, .refl _, rfl, rfl⟩

theorem Rearranged.trans {h d e : Haul} (hd : h.Rearranged d) (de : d.Rearranged e) :
    h.Rearranged e :=
  ⟨hd.single.trans de.single, hd.others.trans de.others, hd.blacklisted.trans de.blacklisted,
    hd.invalid.trans de.invalid⟩

theorem Rearranged.plus {h h' d d' : Haul} (hh : h.Rearranged h') (hd : d.Rearranged d') :
    (h.plus d).Rearranged (h'.plus d') :=
  ⟨hh.single.append hd.single, hh.others.append hd.others,
    congrArg₂ (· + ·) hh.blacklisted hd.blacklisted,
    congrArg₂ (· + ·) hh.invalid hd.invalid⟩

theorem rearranged_plus_comm (h d : Haul) : (h.plus d).Rearranged (d.plus h) :=
  ⟨List.perm_append_comm, List.perm_append_comm, Nat.add_comm _ _, Nat.add_comm _ _⟩

theorem rearranged_union {hauls more : List Haul} (h : hauls.Perm more) :
    (union hauls).Rearranged (union more) := by
  induction h with
  | nil => exact .refl _
  | cons d _ ih => exact (Rearranged.refl d).plus ih
  | swap d e hauls =>
    have hswapped := (rearranged_plus_comm e d).plus (.refl (union hauls))
    rwa [plus_assoc, plus_assoc] at hswapped
  | trans _ _ ih ih' => exact ih.trans ih'

end Haul

namespace Gathering

/-- Whenever the operation is run, it comes to `r` and adds `d` to the haul. -/
def Adds (x : Gathering σ α) (r : Except Failure α) (d : Haul) : Prop :=
  ∀ s h, ∃ t, x (s, h) = (r, (t, h.plus d))

theorem Adds.pure (a : α) : Adds (pure a : Gathering σ α) (.ok a) {} :=
  fun s h => ⟨s, by rw [Haul.plus_empty]; rfl⟩

theorem Adds.throw (f : Failure) : Adds (throw f : Gathering σ α) (.error f) {} :=
  fun s h => ⟨s, by rw [Haul.plus_empty]; rfl⟩

theorem Adds.lift (r : Except Failure α) : Adds (Run.lift r : Gathering σ α) r {} :=
  fun s h => ⟨s, by rw [Haul.plus_empty]; rfl⟩

theorem Adds.change {f : Haul → Haul} {d : Haul} (hf : ∀ h, f h = h.plus d) :
    Adds (change f : Gathering σ Unit) (.ok ()) d :=
  fun s h => ⟨s, by rw [← hf]; rfl⟩

theorem Adds.congr {x : Gathering σ α} {r : Except Failure α} {d e : Haul}
    (hx : Adds x r d) (h : d = e) :
    Adds x r e := h ▸ hx

theorem Adds.outside {x : Run σ α} (hx : Alike (fun _ _ => True) x x) (u : σ) :
    Adds (outside x) (x u).1 {} := by
  intro s h
  refine ⟨(x s).2, ?_⟩
  rw [Haul.plus_empty, ← (hx s u trivial).1]
  rfl

theorem Adds.bind {x : Gathering σ α} {k : α → Gathering σ β} {a : α}
    {r : Except Failure β} {d e : Haul} (hx : Adds x (.ok a) d) (hk : Adds (k a) r e) :
    Adds (x >>= k) r (d.plus e) := by
  intro s h
  obtain ⟨t, ht⟩ := hx s h
  obtain ⟨u, hu⟩ := hk t (h.plus d)
  exact ⟨u, by rw [bind_apply, ht, ← Haul.plus_assoc]; exact hu⟩

theorem Adds.bind_error {x : Gathering σ α} {f : Failure} {d : Haul} (k : α → Gathering σ β)
    (hx : Adds x (.error f) d) : Adds (x >>= k) (.error f) d := by
  intro s h
  obtain ⟨t, ht⟩ := hx s h
  exact ⟨t, by rw [bind_apply, ht]⟩

theorem Adds.discarded {x : Gathering σ α} {a : α} {d : Haul} (hx : Adds x (.ok a) d) :
    Adds (discard x) (.ok ()) d := by
  have hboth : Adds (discard x) (.ok ()) (d.plus {}) := hx.bind (.pure ())
  rwa [Haul.plus_empty] at hboth

/-- A failure adds nothing, and a result what `held` says of it, with what
was counted on the way. -/
def Yields (held : α → Haul) (x : Gathering σ α) : Prop :=
  (∃ f, Adds x (.error f) {}) ∨ ∃ a m n,
    Adds x (.ok a) { held a with blacklisted := m, invalid := n }

variable {held : α → Haul} {x : Gathering σ α} {u : σ}

theorem Adds.start_ok {a : α} {d : Haul} (hx : Adds x (.ok a) d) (u : σ) :
    (start x u).1 = .ok (a, d) := by
  obtain ⟨t, ht⟩ := hx u {}
  simp only [start, ht, Haul.empty_plus]
  rfl

theorem Adds.start_error {f : Failure} {d : Haul} (hx : Adds x (.error f) d) (u : σ) :
    (start x u).1 = .error f := by
  obtain ⟨t, ht⟩ := hx u {}
  simp only [start, ht]
  rfl

theorem Yields.adds_of_ok (hx : Yields held x) {a : α} {d : Haul} (h : (start x u).1 = .ok (a, d)) :
    Adds x (.ok a) d ∧ ∃ m n, d = { held a with blacklisted := m, invalid := n } := by
  obtain ⟨f, hf⟩ | ⟨b, m, n, hb⟩ := hx
  · rw [hf.start_error u] at h
    cases h
  · rw [hb.start_ok u] at h
    cases h
    exact ⟨hb, m, n, rfl⟩

theorem Yields.adds_of_error (hx : Yields held x) {f : Failure} (h : (start x u).1 = .error f) :
    Adds x (.error f) {} := by
  obtain ⟨g, hg⟩ | ⟨b, m, n, hb⟩ := hx
  · rw [hg.start_error u] at h
    cases h
    exact hg
  · rw [hb.start_ok u] at h
    cases h

theorem Yields.after {y : Gathering σ β} {k : β → Gathering σ α} {b : β} (hy : Adds y (.ok b) {})
    (hk : Yields held (k b)) : Yields held (y >>= k) := by
  obtain ⟨f, hf⟩ | ⟨a, m, n, ha⟩ := hk
  · exact .inl ⟨f, hy.bind hf⟩
  · exact .inr ⟨a, m, n, .congr (.bind hy ha) (by simp)⟩

theorem Yields.lift {r : Except Failure β} {k : β → Gathering σ α} (hk : ∀ b, Yields held (k b)) :
    Yields held (Run.lift r >>= k) := by
  cases r with
  | error f => exact .inl ⟨f, (Adds.lift _).bind_error k⟩
  | ok b => exact .after (.lift _) (hk b)

theorem Yields.ask {y : Run σ β} {k : β → Gathering σ α}
    (hy : Alike (fun _ _ => True) y y) [Nonempty σ]
    (hk : ∀ b, Yields held (k b)) : Yields held (outside y >>= k) := by
  obtain ⟨u⟩ := ‹Nonempty σ›
  have hasked := Adds.outside hy u
  cases hr : (y u).1 with
  | error f => exact .inl ⟨f, (hr ▸ hasked).bind_error k⟩
  | ok b => exact .after (hr ▸ hasked) (hk b)

variable {f : ι → Gathering σ α} {xs : List ι} {rs : List (α × Haul)}

theorem Yields.held_of_mapM (hf : ∀ i, Yields held (f i))
    (h : xs.mapM (fun i => (start (f i) u).1) = .ok rs) (r : α × Haul) (hr : r ∈ rs) :
    r.2.single = (held r.1).single ∧ r.2.others = (held r.1).others := by
  obtain ⟨i, -, hi⟩ := exists_of_mapM h r hr
  obtain ⟨-, m, n, hd⟩ := (hf i).adds_of_ok hi
  rw [hd]
  exact ⟨rfl, rfl⟩

theorem adds_forM (hf : ∀ i, Yields held (f i))
    (h : xs.mapM (fun i => (start (f i) u).1) = .ok rs) :
    Adds (xs.forM fun i => discard (f i)) (.ok ()) (Haul.union (rs.map (·.2))) := by
  replace h := mapM_eq_ok_iff.mp h
  induction h with
  | nil => exact .pure ()
  | cons hi _ ih => exact ((hf _).adds_of_ok hi).1.discarded.bind ih

theorem adds_forM_error (hf : ∀ i, Yields held (f i)) {i : ι} {e : Failure} (later : List ι)
    (h : xs.mapM (fun i => (start (f i) u).1) = .ok rs) (hi : (start (f i) u).1 = .error e) :
    Adds ((xs ++ i :: later).forM fun i => discard (f i)) (.error e)
      (Haul.union (rs.map (·.2))) := by
  replace h := mapM_eq_ok_iff.mp h
  induction h with
  | nil => exact (((hf i).adds_of_error hi).bind_error _).bind_error _
  | cons hj _ ih => exact ((hf _).adds_of_ok hj).1.discarded.bind ih

end Gathering

/-! ### One declaration -/

def Board.Steady (b : Board σ) : Prop := b.Alike (fun _ _ => True) b

def Journal.Open (j : Journal σ) : Prop := ∀ level event fields s,
    (j.tell level event fields s).1 = .ok ()

structure Grabber.Steady (g : Grabber σ) : Prop where
  board : g.board.Steady
  journal : g.journal.Open

theorem Journal.Open.alike {j : Journal σ} (h : j.Open) : Journal.Alike (fun _ _ => True) j j :=
  fun level event fields s t _ =>
    ⟨(h level event fields s).trans (h level event fields t).symm, trivial⟩

/-- Posts that are admitted by replies of whatever kind. -/
def Admissible (b : Option Blacklist) (posts : List Post) : Prop := ∃ replies, ∀ p ∈ posts,
    p.Admitted b replies

theorem Admissible.append {b : Option Blacklist} {posts more : List Post} (h : Admissible b posts)
    (h' : Admissible b more) : Admissible b (posts ++ more) := by
  obtain ⟨replies, hposts⟩ := h
  obtain ⟨further, hmore⟩ := h'
  refine ⟨replies ++ further, List.forall_mem_append.mpr ⟨fun p hp => ?_, fun p hp => ?_⟩⟩
  · exact (hposts p hp).mono (List.subset_append_left replies further)
  · exact (hmore p hp).mono (List.subset_append_right replies further)

theorem SearchResult.admissible_ofItems {b : Option Blacklist}
    {items : List Json} {r : SearchResult}
    (h : ofItems b items = .ok r) : Admissible b r.posts :=
  ⟨items.map Reply.item, admitted_ofItems h fun _ => List.mem_map_of_mem⟩

namespace SearchPlan

theorem admissible_pagesFrom (plan : SearchPlan σ) (board : Board σ)
    (tags : String) (left page : Nat) {found : SearchResult}
    (hfound : Admissible plan.blacklist found.posts) :
    Upholds (fun _ => True) (plan.pagesFrom board tags left page found)
      (fun r => Admissible plan.blacklist r.posts) fun _ => True := by
  induction left generalizing page found with
  | zero =>
    rw [pagesFrom]
    split
    · exact .throw trivial
    · exact .pure hfound
  | succ left ih =>
    rw [pagesFrom]
    refine .bind (.any _) fun items _ => ?_
    split
    · exact .pure hfound
    · exact .bind (.lift (fun r hr => SearchResult.admissible_ofItems hr) fun _ _ => trivial)
        fun r hr =>
        .bind (.any _) fun _ _ => ih (page + 1) (hfound.append hr)

theorem admissible_run (plan : SearchPlan σ) (board : Board σ) (tags : String) :
    Upholds (fun _ => True) (plan.run board tags) (fun r => Admissible plan.blacklist r.posts)
      fun _ => True := by
  rw [run_eq]
  split
  · exact .throw trivial
  · exact .bind (plan.admissible_pagesFrom board tags _ 1 ⟨[], List.forall_mem_nil _⟩) fun r hr =>
      .bind (.any _) fun _ _ => .pure hr

end SearchPlan

namespace Grabber

open Gathering

variable {g : Grabber σ}

theorem adds_count (blacklisted invalid : Nat) :
    Adds (change fun h =>
        { h with blacklisted := h.blacklisted + blacklisted, invalid := h.invalid + invalid } :
      Gathering σ Unit) (.ok ()) { blacklisted, invalid } :=
  .change fun _ => by simp [Haul.plus]

theorem Steady.postsOf (h : g.Steady) [Nonempty σ] (tags : String) (exhaustive : Bool) :
    (∃ f, Adds (g.postsOf tags exhaustive) (.error f) {}) ∨
    ∃ posts m n, Adds (g.postsOf tags exhaustive) (.ok posts) { blacklisted := m, invalid := n } ∧
      Admissible g.blacklist posts := by
  obtain ⟨u⟩ := ‹Nonempty σ›
  have hplan : SearchPlan.Alike (fun _ _ => True) g.search g.search :=
    ⟨rfl, rfl, rfl, rfl, h.journal.alike⟩
  unfold Grabber.postsOf
  generalize hp : (if exhaustive then { g.search with maxPages := 0 } else g.search) = plan
  have hsame : Run.Alike (fun _ _ => True) (plan.run g.board tags) (plan.run g.board tags) := by
    subst hp
    cases exhaustive
    · exact hplan.run h.board tags
    · exact hplan.exhaustive.run h.board tags
  have hblacklist : plan.blacklist = g.blacklist := by subst hp; cases exhaustive <;> rfl
  have hasked := Adds.outside hsame u
  rcases hr : plan.run g.board tags u with ⟨f | r, t⟩ <;> rw [hr] at hasked
  · exact .inl ⟨f, hasked.bind_error _⟩
  · refine .inr ⟨r.posts, r.blacklisted, r.invalid, ?_,
      hblacklist ▸ (plan.admissible_run g.board tags).ok trivial hr⟩
    exact .congr (.bind hasked (.bind (adds_count _ _) (.pure _))) (by simp)

theorem Steady.tell (h : g.Steady) [Nonempty σ] (level : Level) (event : String)
    (fields : Json.Members) :
    Adds (outside (g.journal.tell level event fields)) (.ok ()) {} := by
  obtain ⟨u⟩ := ‹Nonempty σ›
  exact h.journal level event fields u ▸ .outside (h.journal.alike level event fields) u

theorem Steady.add (h : g.Steady) [Nonempty σ] (c : Collection) :
    Adds (g.add c) (.ok c) { others := [c] } := by
  have hput : Adds (change fun h => { h with others := h.others ++ [c] } : Gathering σ Unit)
      (.ok ())
      { others := [c] } := .change fun _ => by simp [Haul.plus]
  exact .congr (.bind hput (.bind (h.tell _ _ _) (.pure c))) (by simp)

theorem Steady.collect (h : g.Steady) [Nonempty σ] (tags name category : String) (exhaustive : Bool)
    {made : List Post → Except Failure (List GrabbedPost)}
    (hmade : ∀ posts, Admissible g.blacklist posts → ∃ qs, made posts = .ok qs) :
    Yields (fun c => { others := [c] }) (do
      let posts ← g.postsOf tags exhaustive
      let grabbed ← Run.lift (made posts)
      g.add ⟨name, category, grabbed⟩) := by
  obtain ⟨f, hf⟩ | ⟨posts, m, n, hposts, hadmissible⟩ := h.postsOf tags exhaustive
  · exact .inl ⟨f, hf.bind_error _⟩
  · obtain ⟨qs, hqs⟩ := hmade posts hadmissible
    have hlift : Adds (Run.lift (made posts) : Gathering σ _) (.ok qs) {} := hqs ▸ .lift _
    refine .inr ⟨_, m, n, .congr (.bind hposts (.bind hlift (h.add ⟨name, category, qs⟩))) ?_⟩
    simp [Haul.plus]

theorem Steady.grabSearch (h : g.Steady) [Nonempty σ] (tags name category : String)
    (exhaustive : Bool) :
    Yields (fun c => { others := [c] }) (g.grabSearch tags name category exhaustive) :=
  h.collect tags name category exhaustive fun _ ⟨_, hadmitted⟩ =>
    (Post.mapM_grabbed hadmitted g.naming).imp fun _ => And.left

theorem Steady.grabPool (h : g.Steady) [Nonempty σ] (id : Int) :
    Yields (fun c => { others := [c] }) (g.grabPool id) :=
  .ask (h.board.fetchPool _) fun _ => h.collect _ _ _ _ fun _ ⟨_, hadmitted⟩ =>
    (Post.grabbedPages_eq (fun p hp => hadmitted p (Post.mem_of_mem_orderPool hp)) _ 1).imp
      fun _ => And.left

theorem Steady.grabSet (h : g.Steady) [Nonempty σ] (id : Int) :
    Yields (fun c => { others := [c] }) (g.grabSet id) :=
  .ask (h.board.fetchSet _) fun _ => h.grabSearch _ _ _ _

theorem adds_countSkip (reason : Skip) : ∃ m n,
    Adds (change (countSkip reason) : Gathering σ Unit) (.ok ())
      { blacklisted := m, invalid := n } := by
  cases reason with
  | notSafe => exact ⟨0, 0, .change fun h => (Haul.plus_empty h).symm⟩
  | blacklisted => exact ⟨1, 0, .change fun _ => by simp [Haul.plus, countSkip]⟩
  | invalid => exact ⟨0, 1, .change fun _ => by simp [Haul.plus, countSkip]⟩

theorem Steady.grabPost (h : g.Steady) [Nonempty σ] (id : Int) :
    Yields (fun q => { single := q.toList }) (g.grabPost id) := by
  unfold Grabber.grabPost
  refine .ask (h.board.fetchPost _) fun item => .lift fun post? => ?_
  cases post? with
  | none => exact .inl ⟨_, .throw _⟩
  | some post =>
    refine .lift fun skip? => ?_
    cases skip? with
    | some reason =>
      obtain ⟨m, n, hcount⟩ := adds_countSkip (σ := σ) reason
      exact .inr ⟨none, m, n, .congr (.bind hcount (.bind (h.tell _ _ _) (.pure _))) (by simp)⟩
    | none =>
      refine .lift fun q => ?_
      have hput : Adds (change fun h => { h with single := h.single ++ [q] } : Gathering σ Unit)
          (.ok ())
        { single := [q] } := .change fun _ => by simp [Haul.plus]
      exact .inr ⟨some q, 0, 0, .congr (.bind hput (.bind (h.tell _ _ _) (.pure _))) (by simp)⟩

end Grabber
end Booru
