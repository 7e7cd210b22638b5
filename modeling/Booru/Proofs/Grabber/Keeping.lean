import Booru.Proofs.Grabber.Admission

/-! What the calls of a grabber keep, also those that fail: any statement about the haul and the
replies so far that outlasts further replies, other counters, and one more collection or single post
that is made of admitted posts. No call fails for want of a post's address. All of this is carried
through the operations on a grabber with notes and then read off for the grabber itself. -/

namespace Booru

open Run
open Reply (Blamed)

variable {σ α : Type}

/-- A statement about the replies so far that no further reply undoes. -/
def Lasting (K : List Reply → Prop) : Prop := ∀ replies more, K replies → K (replies ++ more)

theorem Reply.blamed_of_ne {f : Failure} (h : ∀ id, f ≠ .argument (.noFileUrl id))
    (replies : List Reply) :
    Blamed f replies :=
  fun id hf => absurd hf (h id)

theorem Lasting.admitted {K : List Reply → Prop} (hK : Lasting K) (b : Option Blacklist)
    (earlier : List Reply) (posts : List Post) :
    Lasting fun replies => K replies ∧ ∀ p ∈ posts, p.Admitted b (earlier ++ replies) := by
  intro replies more h
  refine ⟨hK _ _ h.1, fun p hp => (h.2 p hp).mono ?_⟩
  rw [← List.append_assoc]
  exact List.subset_append_left _ _

namespace Run

variable {K : List Reply → Prop}

theorem ensures_noted (items : α → List Json) (x : Run σ α) (hK : Lasting K) :
    Ensures (fun s => K s.2) (x.noted items) (fun a s => K s.2 ∧ ∀ item ∈ items a, .item item ∈ s.2)
      fun f s => K s.2 ∧ Blamed f s.2 := by
  refine .noted (fun s hs a t => ⟨hK _ _ hs, fun item hitem => ?_⟩) fun s hs f t => ⟨hK _ _ hs, ?_⟩
  · exact List.mem_append_right _ (List.mem_map_of_mem hitem)
  · intro _ _
    simp

theorem ensures_tell (j : Journal σ) (level : Level) (event : String) (fields : Json.Members)
    (hK : Lasting K) :
    Ensures (fun s => K s.2) (j.noted.tell level event fields) (fun _ s => K s.2)
      fun f s => K s.2 ∧ Blamed f s.2 := by
  cases j with
  | none => exact .pure fun _ hs => hs
  | some write => exact (ensures_noted _ _ hK).weaken (fun _ hs => hs) fun _ _ hs => hs.1

end Run

namespace SearchResult

theorem admitted_ofItems {b : Option Blacklist} {items : List Json} {r : SearchResult}
    (h : ofItems b items = .ok r) {replies : List Reply}
    (hitems : ∀ item ∈ items, .item item ∈ replies) :
    ∀ p ∈ r.posts, p.Admitted b replies := by
  simp only [ofItems, bind, Except.bind, pure, Except.pure] at h
  cases hbatch : Post.ofPayload (.array items) with
  | error e => simp [hbatch] at h
  | ok batch =>
    simp only [hbatch, Run.mapError_ok] at h
    have horigin := @Post.mem_ofEntries items _ _ hbatch
    -- what is kept of the posts that the blacklist shows
    have hkept : ∀ (visible : List Post) (hidden : Nat) (p : Post),
        p ∈ (Post.removeInvalid visible).1.reverse → p ∈ visible ∧ p.isInvalid = false := by
      intro visible hidden p hp
      simpa [Post.removeInvalid] using hp
    intro p hp
    cases b with
    | none =>
      simp only [Except.ok.injEq] at h
      rw [← h] at hp
      obtain ⟨hmem, hvalid⟩ := hkept batch.1 0 p hp
      obtain ⟨item, hitem, hof⟩ := horigin p hmem
      obtain ⟨hpresent, hlocated⟩ := Post.isInvalid_eq_false hvalid
      exact ⟨⟨item, hitems item hitem, hof⟩, hpresent, hlocated, by simp⟩
    | some b =>
      cases hfilter : b.filter batch.1 with
      | error e => simp [hfilter] at h
      | ok shown =>
        simp only [hfilter, Except.ok.injEq] at h
        rw [← h] at hp
        obtain ⟨hmem, hvalid⟩ := hkept shown.1 0 p hp
        obtain ⟨hbatchmem, hshown⟩ := Blacklist.mem_filter hfilter p hmem
        obtain ⟨item, hitem, hof⟩ := horigin p hbatchmem
        obtain ⟨hpresent, hlocated⟩ := Post.isInvalid_eq_false hvalid
        refine ⟨⟨item, hitems item hitem, hof⟩, hpresent, hlocated, ?_⟩
        rintro _ ⟨⟩
        exact hshown

theorem ofItems_error_ne {b : Option Blacklist} {items : List Json} {f : Failure}
    (h : ofItems b items = .error f) (id : Int) : f ≠ .argument (.noFileUrl id) := by
  rintro rfl
  simp only [ofItems, bind, Except.bind, pure, Except.pure] at h
  cases hbatch : Post.ofPayload (.array items) with
  | error e => simp [hbatch] at h
  | ok batch =>
    simp only [hbatch, Run.mapError_ok] at h
    cases b with
    | none => simp at h
    | some b =>
      cases hfilter : b.filter batch.1 with
      | error e =>
        have := Blacklist.filter_error hfilter
        simp_all
      | ok shown => simp [hfilter] at h

end SearchResult

namespace SearchPlan

variable {K : List Reply → Prop}

theorem ensures_pagesFrom (plan : SearchPlan σ) (board : Board σ) (tags : String)
    (earlier : List Reply)
    (hK : Lasting K) (left page : Nat) (found : SearchResult) :
    Ensures (fun s => K s.2 ∧ ∀ p ∈ found.posts, p.Admitted plan.blacklist (earlier ++ s.2))
      (plan.noted.pagesFrom board.noted tags left page found)
      (fun r s => K s.2 ∧ ∀ p ∈ r.posts, p.Admitted plan.blacklist (earlier ++ s.2))
      fun f s => K s.2 ∧ Blamed f s.2 := by
  induction left generalizing page found with
  | zero =>
    simp only [pagesFrom]
    split
    · exact .throw fun s hs => ⟨hs.1, Reply.blamed_of_ne (by simp) _⟩
    · exact .pure fun s hs => hs
  | succ left ih =>
    simp only [pagesFrom]
    have hfound := hK.admitted plan.blacklist earlier found.posts
    refine ((ensures_noted _ _ hfound).weakenError fun f s hs => ⟨hs.1.1, hs.2⟩).bind fun items =>
      ?_
    split
    · exact .pure fun s hs => hs.1
    · refine .bind (Q := fun r s => K s.2 ∧
        ∀ p ∈ (found.append r).posts, p.Admitted plan.blacklist (earlier ++ s.2)) ?_ fun r => ?_
      · refine .lift (fun r hr s hs => ⟨hs.1.1, fun p hp => ?_⟩) fun f hf s hs => ⟨hs.1.1, ?_⟩
        · rcases List.mem_append.mp hp with hold | hnew
          · exact hs.1.2 p hold
          · exact SearchResult.admitted_ofItems hr
              (fun item hitem => List.mem_append_right _ (hs.2 item hitem)) p hnew
        · exact Reply.blamed_of_ne (SearchResult.ofItems_error_ne hf) _
      · have hboth := hK.admitted plan.blacklist earlier (found.append r).posts
        exact ((ensures_tell plan.journal _ _ _ hboth).weakenError fun f s hs =>
          ⟨hs.1.1, hs.2⟩).bind
          fun _ => ih _ _

theorem ensures_run (plan : SearchPlan σ) (board : Board σ) (tags : String) (earlier : List Reply)
    (hK : Lasting K) :
    Ensures (fun s => K s.2) (plan.noted.run board.noted tags)
      (fun r s => K s.2 ∧ ∀ p ∈ r.posts, p.Admitted plan.blacklist (earlier ++ s.2))
      fun f s => K s.2 ∧ Blamed f s.2 := by
  rw [run_eq]
  split
  · exact .throw fun s hs => ⟨hs, Reply.blamed_of_ne (by simp) _⟩
  · refine .bind ((ensures_pagesFrom plan board tags earlier hK _ _ _).weaken
      (fun s hs => ⟨hs, by simp⟩) fun _ _ hs => hs) fun r => ?_
    have hfound := hK.admitted plan.blacklist earlier r.posts
    exact ((ensures_tell plan.journal _ _ _ hfound).weakenError fun f s hs => ⟨hs.1.1, hs.2⟩).bind
      fun _ => .pure fun s hs => hs

end SearchPlan

inductive Collection.Searched : String → String → Prop
  | general (name : String) : Searched name Collection.general
  | set (name : String) : Searched name Collection.sets
  | favorites (username : String) : Searched ("fav:" ++ username) Collection.atRoot

/-- How a collection is made of admitted posts. -/
inductive Collection.Formed (g : Grabber σ) (replies : List Reply) : Collection → Prop
  | search {name category : String} {posts : List Post} {qs : List GrabbedPost}
      (place : Searched name category) (admitted : ∀ p ∈ posts, p.Admitted g.blacklist replies)
      (grabbed : posts.mapM (fun p => p.grabbed g.naming) = .ok qs) :
        Formed g replies ⟨name, category, qs⟩
  | pool {name : String} {posts : List Post} {qs : List GrabbedPost}
      (admitted : ∀ p ∈ posts, p.Admitted g.blacklist replies)
      (grabbed : grabbedPool posts name = .ok qs) : Formed g replies ⟨name, Collection.pools, qs⟩

def GrabbedPost.Chosen (g : Grabber σ) (replies : List Reply) (q : GrabbedPost) : Prop :=
  ∃ p : Post, p.Admitted g.blacklist replies ∧ p.grabbed g.naming = .ok q ∧
    (g.safeMode = true → p.rating = "s")

/-- What a statement about the replies so far and the haul has to outlast. -/
structure Grabber.Keeps (g : Grabber σ) (K : List Reply → Haul → Prop) : Prop where
  replied : ∀ {before after : List Reply} {h : Haul}, before ⊆ after → K before h → K after h
  counted : ∀ {replies : List Reply} {h : Haul} (blacklisted invalid : Nat), K replies h →
    K replies { h with blacklisted, invalid }
  collected : ∀ {replies : List Reply} {h : Haul} {c : Collection},
    c.Formed g replies → K replies h → K replies { h with others := h.others ++ [c] }
  chosen : ∀ {replies : List Reply} {h : Haul} {q : GrabbedPost}, q.Chosen g replies → K replies h →
    K replies { h with single := h.single ++ [q] }

theorem Grabber.Keeps.lasting {g : Grabber σ} {K : List Reply → Haul → Prop} (hK : g.Keeps K)
    (earlier : List Reply) (h : Haul) : Lasting fun replies => K (earlier ++ replies) h := by
  intro replies more hs
  refine hK.replied ?_ hs
  rw [← List.append_assoc]
  exact List.subset_append_left _ _

namespace Grabber

open Gathering

variable (K : List Reply → Haul → Prop) (earlier : List Reply)

def Intact (s : Noted σ × Haul) : Prop := K (earlier ++ s.1.2) s.2

/-- How a call may fail: what it has to keep still holds, and a missing address
is not its own finding. -/
def Broken (f : Failure) (s : Noted σ × Haul) : Prop := Intact K earlier s ∧ Blamed f s.1.2

variable {K} {g : Grabber σ}

theorem ensures_fetch (hK : g.Keeps K) {x : Run σ α} (items : α → List Json) :
    Ensures (Intact K earlier) (outside (x.noted items))
      (fun a s => Intact K earlier s ∧ ∀ item ∈ items a, .item item ∈ s.1.2) (Broken K earlier) :=
  ensures_outside fun h => ensures_noted _ _ (hK.lasting earlier h)

theorem ensures_journal (hK : g.Keeps K) (level : Level) (event : String) (fields : Json.Members) :
    Ensures (Intact K earlier) (outside (g.noted.journal.tell level event fields))
      (fun _ => Intact K earlier) (Broken K earlier) :=
  ensures_outside fun h => ensures_tell _ _ _ _ (hK.lasting earlier h)

theorem ensures_postsOf (hK : g.Keeps K) (tags : String) (exhaustive : Bool) :
    Ensures (Intact K earlier) (g.noted.postsOf tags exhaustive)
      (fun posts s => Intact K earlier s ∧ ∀ p ∈ posts, p.Admitted g.blacklist (earlier ++ s.1.2))
      (Broken K earlier) := by
  unfold postsOf
  refine .bind (Q := fun r s =>
    Intact K earlier s ∧ ∀ p ∈ r.posts, p.Admitted g.blacklist (earlier ++ s.1.2)) ?_ fun r => ?_
  · refine ensures_outside fun h => ?_
    cases exhaustive
    · exact SearchPlan.ensures_run g.search g.board tags earlier (hK.lasting earlier h)
    · exact SearchPlan.ensures_run { g.search with maxPages := 0 } g.board tags earlier
        (hK.lasting earlier h)
  · refine .bind (.modify (Q := fun _ s =>
      Intact K earlier s ∧ ∀ p ∈ r.posts, p.Admitted g.blacklist (earlier ++ s.1.2)) ?_) fun _ =>
        .pure fun s hs => hs
    exact fun s hs => ⟨hK.counted _ _ hs.1, hs.2⟩

theorem ensures_add (hK : g.Keeps K) (c : Collection) :
    Ensures (fun s => Intact K earlier s ∧ c.Formed g (earlier ++ s.1.2)) (g.noted.add c)
      (fun _ => Intact K earlier) (Broken K earlier) := by
  refine .bind (.modify (Q := fun _ => Intact K earlier) ?_) fun _ =>
    (ensures_journal earlier hK _ _ _).bind fun _ => .pure fun s hs => hs
  exact fun s hs => hK.collected hs.2 hs.1

theorem ensures_grabSearch (hK : g.Keeps K) (tags : String) {name category : String}
    (hplace : Collection.Searched name category) (exhaustive : Bool) :
    Ensures (Intact K earlier) (g.noted.grabSearch tags name category exhaustive)
      (fun _ => Intact K earlier) (Broken K earlier) := by
  refine (ensures_postsOf earlier hK tags exhaustive).bind fun posts => ?_
  refine .bind (Q := fun qs s => Intact K earlier s ∧
    Collection.Formed g (earlier ++ s.1.2) ⟨name, category, qs⟩) (.lift ?_ ?_) fun qs =>
      ensures_add earlier hK ⟨name, category, qs⟩
  · exact fun qs hqs s hs => ⟨hs.1, .search hplace hs.2 hqs⟩
  · intro f hf s hs
    obtain ⟨_, hok, _⟩ := Post.mapM_grabbed hs.2 g.naming
    exact absurd (hf.symm.trans hok) (by simp)

theorem ensures_grabPool (hK : g.Keeps K) (id : Int) :
    Ensures (Intact K earlier) (g.noted.grabPool id) (fun _ => Intact K earlier)
      (Broken K earlier) := by
  have hentry := (@ensures_fetch _ _ _ earlier g hK (g.board.fetchPool (.ofInt id))
    fun _ => []).weaken
    (fun _ hs => hs) fun _ _ hs => hs.1
  refine hentry.bind fun entry => (ensures_postsOf earlier hK _ true).bind fun posts => ?_
  have hordered {replies : List Reply} (h : ∀ p ∈ posts, p.Admitted g.blacklist replies) :
      ∀ p ∈ orderPool (entryPostIds entry) posts, p.Admitted g.blacklist replies :=
    fun p hp => h p (Post.mem_of_mem_orderPool hp)
  refine .bind (Q := fun qs s => Intact K earlier s ∧
    Collection.Formed g (earlier ++ s.1.2) ⟨_, Collection.pools, qs⟩) (.lift ?_ ?_) fun qs =>
      ensures_add earlier hK ⟨_, _, qs⟩
  · exact fun qs hqs s hs => ⟨hs.1, .pool (hordered hs.2) hqs⟩
  · intro f hf s hs
    obtain ⟨_, hok, _⟩ := Post.grabbedPages_eq (hordered hs.2) _ 1
    exact absurd (hf.symm.trans hok) (by simp)

theorem ensures_grabSet (hK : g.Keeps K) (id : Int) :
    Ensures (Intact K earlier) (g.noted.grabSet id) (fun _ => Intact K earlier)
      (Broken K earlier) := by
  have hentry := (@ensures_fetch _ _ _ earlier g hK (g.board.fetchSet (.ofInt id))
    fun _ => []).weaken
    (fun _ hs => hs) fun _ _ hs => hs.1
  exact hentry.bind fun entry => ensures_grabSearch earlier hK _ (.set _) _

theorem passed_of_skip {g : Grabber σ} {p : Post} (h : g.skip? p = .ok none) :
    p.isInvalid = false ∧ (∀ b, g.blacklist = some b → ∀ l ∈ b.lines,
      Blacklist.Line.fires l p = false) ∧
      (g.safeMode = true → p.rating = "s") := by
  unfold skip? at h
  split at h
  · simp at h
  rename_i hsafe
  have hrating : g.safeMode = true → p.rating = "s" := by
    intro hmode
    exact Decidable.byContradiction fun hne => hsafe (by simp [hmode, hne])
  cases hb : g.blacklist with
  | none =>
    simp only [hb, bind, Except.bind, pure, Except.pure, Except.ok.injEq] at h
    refine ⟨?_, by simp, hrating⟩
    cases hinvalid : p.isInvalid with
    | false => rfl
    | true => simp [hinvalid] at h
  | some b =>
    simp only [hb, bind, Except.bind, pure, Except.pure] at h
    cases hfilter : b.filter [p] with
    | error e => simp [hfilter, Except.map] at h
    | ok result =>
      obtain ⟨kept, hidden⟩ := result
      simp only [hfilter, Except.map, Except.ok.injEq] at h
      have hzero : hidden = 0 := Nat.eq_zero_of_not_pos fun hpos => by simp [hpos] at h
      subst hzero
      have hkept : p ∈ kept := by simp [Blacklist.filter_nothing_hidden hfilter]
      refine ⟨?_, ?_, hrating⟩
      · cases hinvalid : p.isInvalid with
        | false => rfl
        | true => simp [hinvalid] at h
      · rintro _ ⟨⟩
        exact (Blacklist.mem_filter hfilter p hkept).2

theorem skip_error {g : Grabber σ} {p : Post} {f : Failure} (h : g.skip? p = .error f) :
    f = .unresolvedUsers := by
  unfold skip? at h
  split at h
  · simp at h
  cases hb : g.blacklist with
  | none => simp [hb, bind, Except.bind, pure, Except.pure] at h
  | some b =>
    simp only [hb, bind, Except.bind, pure, Except.pure] at h
    cases hfilter : b.filter [p] with
    | error e =>
      simp only [hfilter, Except.map, Except.error.injEq] at h
      exact h ▸ Blacklist.filter_error hfilter
    | ok result => simp [hfilter, Except.map] at h

theorem ensures_ofItem (item : Json) :
    Ensures (fun s => Intact K earlier s ∧ .item item ∈ s.1.2)
      (Run.lift ((Post.ofItem? item).mapError .integer) : Gathering (Noted σ) _)
      (fun post? s => Intact K earlier s ∧ ∀ p, post? = some p →
        ∃ item, .item item ∈ earlier ++ s.1.2 ∧ Post.ofItem? item = .ok (some p))
      (Broken K earlier) := by
  refine .lift ?_ ?_
  · intro post? hpost s hs
    refine ⟨hs.1, ?_⟩
    rintro p rfl
    refine ⟨item, List.mem_append_right _ hs.2, ?_⟩
    cases hof : Post.ofItem? item with
    | error e => simp [hof] at hpost
    | ok found => simpa [hof] using hpost
  · intro f hf s hs
    refine ⟨hs.1, Reply.blamed_of_ne ?_ _⟩
    cases hof : Post.ofItem? item with
    | error e =>
      simp only [hof, mapError_error, Except.error.injEq] at hf
      simp [← hf]
    | ok found => simp [hof] at hf

/-- A post that may go among the single posts. -/
def Suitable (g : Grabber σ) (replies : List Reply) (p : Post) : Prop :=
  p.Admitted g.blacklist replies ∧ (g.safeMode = true → p.rating = "s")

theorem ensures_skip (p : Post) :
    Ensures (fun s => Intact K earlier s ∧
        ∃ item, .item item ∈ earlier ++ s.1.2 ∧ Post.ofItem? item = .ok (some p))
      (Run.lift (g.skip? p) : Gathering (Noted σ) _)
      (fun reason s => Intact K earlier s ∧ (reason = none → Suitable g (earlier ++ s.1.2) p))
      (Broken K earlier) := by
  refine .lift ?_ ?_
  · rintro reason hskip s ⟨hs, horigin⟩
    refine ⟨hs, ?_⟩
    rintro rfl
    obtain ⟨hvalid, hshown, hrating⟩ := passed_of_skip hskip
    obtain ⟨hpresent, hlocated⟩ := Post.isInvalid_eq_false hvalid
    exact ⟨⟨horigin, hpresent, hlocated, hshown⟩, hrating⟩
  · intro f hf s hs
    exact ⟨hs.1, Reply.blamed_of_ne (by simp [skip_error hf]) _⟩

theorem ensures_grabbed (p : Post) :
    Ensures (fun s => Intact K earlier s ∧ Suitable g (earlier ++ s.1.2) p)
      (Run.lift (p.grabbed g.naming) : Gathering (Noted σ) _)
      (fun q s => Intact K earlier s ∧ q.Chosen g (earlier ++ s.1.2)) (Broken K earlier) := by
  refine .lift ?_ ?_
  · exact fun q hq s hs => ⟨hs.1, p, hs.2.1, hq, hs.2.2⟩
  · rintro f hf s ⟨-, hp⟩
    obtain ⟨_, hok, _⟩ := hp.1.grabbed_eq g.naming
    exact absurd (hf.symm.trans hok) (by simp)

theorem ensures_grabPost (hK : g.Keeps K) (id : Int) :
    Ensures (Intact K earlier) (g.noted.grabPost id) (fun _ => Intact K earlier)
      (Broken K earlier) := by
  unfold grabPost
  refine (ensures_fetch earlier hK fun item => [item]).bind fun item => ?_
  refine .bind ((ensures_ofItem earlier item).weaken
    (fun s hs => ⟨hs.1, hs.2 item (by simp)⟩) fun _ _ hs => hs) fun post? => ?_
  cases post? with
  | none => exact .throw fun s hs => ⟨hs.1, Reply.blamed_of_ne (by simp) _⟩
  | some p =>
    refine .bind ((ensures_skip earlier p).weaken
      (fun s hs => ⟨hs.1, hs.2 p rfl⟩) fun _ _ hs => hs) fun reason => ?_
    cases reason with
    | some reason =>
      refine .bind (.modify (Q := fun _ => Intact K earlier) ?_) fun _ =>
        (ensures_journal earlier hK _ _ _).bind fun _ => .pure fun s hs => hs
      rintro s ⟨hs, -⟩
      cases reason <;> exact hK.counted _ _ hs
    | none =>
      refine .bind ((ensures_grabbed earlier p).weaken
        (fun s hs => ⟨hs.1, hs.2 rfl⟩) fun _ _ hs => hs) fun q => ?_
      refine .bind (.modify (Q := fun _ => Intact K earlier) ?_) fun _ =>
        (ensures_journal earlier hK _ _ _).bind fun _ => .pure fun s hs => hs
      exact fun s hs => hK.chosen hs.2 hs.1

theorem ensures_grabAll (hK : g.Keeps K) (d : Settings.Download) (username : String) :
    Ensures (Intact K earlier) (g.noted.grabAll d username) (fun _ => Intact K earlier)
      (Broken K earlier) := by
  rw [grabAll_eq]
  refine .bind (Q := fun _ => Intact K earlier) ?_ fun _ => ?_
  · split
    · exact .discard (ensures_grabSearch earlier hK _ (.favorites username) _)
    · exact .pure fun s hs => hs
  refine .bind (.forM _ fun artist => .discard (ensures_grabSearch earlier hK _ (.general _) _))
    fun _ => ?_
  refine .bind (.forM _ fun tags => .discard (ensures_grabSearch earlier hK _ (.general _) _))
    fun _ => ?_
  refine .bind (.forM _ fun id => .discard (ensures_grabPool earlier hK id)) fun _ => ?_
  refine .bind (.forM _ fun id => .discard (ensures_grabSet earlier hK id)) fun _ => ?_
  refine .bind (.forM _ fun id => .discard (ensures_grabPost earlier hK id)) fun _ => ?_
  exact fun s hs => hs

theorem ensures_perform (hK : g.Keeps K) (c : Call) :
    Ensures (Intact K earlier) (c.perform g.noted) (fun _ => Intact K earlier)
      (Broken K earlier) := by
  cases c with
  | general tags => exact .discard (ensures_grabSearch earlier hK _ (.general tags) _)
  | artist name => exact .discard (ensures_grabSearch earlier hK _ (.general name) _)
  | favorites username => exact .discard (ensures_grabSearch earlier hK _ (.favorites username) _)
  | pool id => exact .discard (ensures_grabPool earlier hK id)
  | set id => exact .discard (ensures_grabSet earlier hK id)
  | post id => exact .discard (ensures_grabPost earlier hK id)
  | all declared username => exact .discard (ensures_grabAll earlier hK declared username)

variable {earlier}

theorem perform_eq (s : σ × Haul) (c : Call) :
    c.perform g s = ((c.perform g.noted ((s.1, []), s.2)).1,
      forget (c.perform g.noted ((s.1, []), s.2)).2) :=
  shadows_perform g c ((s.1, []), s.2)

theorem intact_start {s : σ × Haul} (h : K earlier s.2) : Intact K earlier ((s.1, []), s.2) := by
  simpa [Intact] using h

theorem kept_after (hK : g.Keeps K) {s : σ × Haul} (h : K earlier s.2) (c : Call) :
    K (earlier ++ g.repliesTo s c) (g.after s c).2 := by
  have hend := ensures_perform earlier hK c _ (intact_start h)
  rw [after, repliesTo, perform_eq (g := g) s c]
  rcases hr : c.perform g.noted ((s.1, []), s.2) with ⟨f | _, t⟩ <;> simp only [hr] at hend
  · exact hend.1
  · exact hend

theorem kept_afterAll (hK : g.Keeps K) {s : σ × Haul} (h : K earlier s.2) (calls : List Call) :
    K (earlier ++ g.replies s calls) (g.afterAll s calls).2 := by
  induction calls generalizing s earlier with
  | nil => simpa [afterAll, replies] using h
  | cons c calls ih =>
    have hnext := ih (kept_after hK h c)
    rwa [List.append_assoc] at hnext

end Grabber
end Booru
