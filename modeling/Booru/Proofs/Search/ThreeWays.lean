import Booru.Command.Handlers
import Booru.Proofs.Grabber.Replies
import Booru.Proofs.Grabber.Admission
import Booru.Proofs.Search.Paging

/-! The three ways in which posts are filtered: all saved ones at once, page by page in a search,
and one by one as single posts. They keep the same posts of the same entries and leave out as
many for each reason. -/

namespace Booru

open Run

variable {σ τ : Type} {b : Blacklist}

/-! ### Saved posts -/

namespace Command

def filterInputs (task : FilterTask) : Run World (Blacklist × Json) := do
  let blacklist ← Run.lift (Blacklist.parse (← readFile .blacklist task.blacklist))
  let (blacklist, _) ← blacklist.resolve (Blacklist.UserTable.ofList task.users).lookup
  let payload ← readJsonFile .posts task.posts
  pure (blacklist, payload)

def tellSifting (task : FilterTask) (total : Nat) (r : Sifting) : Run World Unit := do
  match task.out with
  | none => pure ()
  | some out => writePosts (Path.ofString out) r.kept
  printCount "total" total
  printCount "skipped" r.skipped
  printCount "blacklisted" r.blacklisted
  printCount "invalid" r.invalid
  printCount "kept" r.kept.length
  World.printLine ("kept_ids=" ++ ",".intercalate (r.kept.map fun p => toString p.id))

end Command

theorem Sifting.of_filters (hresolved : b.isResolved = true) (payload : Json)
    (hreadable : ∀ entry ∈ Post.itemsOf payload, Post.Readable entry) :
    ∃ posts visible, posts = (Post.itemsOf payload).filterMap Post.normal? ∧
      Post.ofPayload payload = .ok (posts, (sift (some b) (Post.itemsOf payload)).skipped) ∧
      b.filter posts = .ok (visible, (sift (some b) (Post.itemsOf payload)).blacklisted) ∧
      Post.removeInvalid visible = ((sift (some b) (Post.itemsOf payload)).kept,
        (sift (some b) (Post.itemsOf payload)).invalid) := by
  refine ⟨_, _, rfl, Post.Readable.ofEntries hreadable, Blacklist.filter_resolved hresolved _, ?_⟩
  simp [Post.removeInvalid_eq, sift, Post.hiddenBy, List.filter_filter,
    List.countP_filter, Bool.and_comm]

theorem Command.runFilter_of_inputs {task : FilterTask} {w t : World} {payload : Json}
    (hkeep : task.keepInvalid = false) (hinputs : filterInputs task w = (.ok (b, payload), t))
    (hresolved : b.isResolved = true)
    (hreadable : ∀ entry ∈ Post.itemsOf payload, Post.Readable entry) :
    runFilter task w = tellSifting task ((Post.itemsOf payload).filterMap Post.normal?).length
      (sift (some b) (Post.itemsOf payload)) t := by
  have hsplit : runFilter task = (do
      let inputs ← filterInputs task
      let read ← Run.lift ((Post.ofPayload inputs.2).mapError .integer)
      let shown ← Run.lift (inputs.1.filter read.1)
      let sifted := if task.keepInvalid then (shown.1, 0) else Post.removeInvalid shown.1
      tellSifting task read.1.length ⟨sifted.1, read.2, shown.2, sifted.2⟩) := by
    simp only [filterInputs, bind_assoc, pure_bind]
    rfl
  obtain ⟨posts, visible, rfl, hposts, hvisible, hkept⟩ :=
    Sifting.of_filters hresolved payload hreadable
  rw [hsplit, bind_apply, hinputs]
  simp only [bind_apply, Run.lift, hposts, hvisible, mapError_ok, hkept, hkeep,
    Bool.false_eq_true, if_false]

/-! ### A search -/

namespace SearchPlan

variable {plan : SearchPlan σ} {board : Board σ} {source : Nat → List Json}
  {asked : σ → List (String × Nat × Int)}

theorem run_single_page (hplan : plan.blacklist = some b) (hresolved : b.isResolved = true)
    (hboard : board.Serves source asked) (hjournal : plan.journal.Quiet asked)
    (hmax : 0 ≤ plan.maxPages) (hbudget : plan.maxPages = 0 → 2 ≤ plan.budget)
    (hreadable : ∀ entry ∈ source 1, Post.Readable entry) (hsecond : source 2 = []) (tags : String)
    (s : σ) :
    ∃ pages t, plan.run board tags s = (.ok ⟨(sift (some b) (source 1)).kept.reverse, pages,
      (sift (some b) (source 1)).blacklisted, (sift (some b) (source 1)).invalid,
      (sift (some b) (source 1)).skipped⟩, t) := by
  have hall : ∀ c, plan.blacklist = some c → c.isResolved = true := by
    rintro c hc
    rwa [← Option.some.inj (hplan.symm.trans hc)]
  by_cases hempty : source 1 = []
  · have hreads : plan.Reads source 0 := ⟨by omega, fun _ => hmax, .inl hempty⟩
    obtain ⟨t, hrun, -⟩ := run_serves plan hboard hjournal hall tags s hmax hreads
      (by omega) (by omega)
    exact ⟨0, t, by rw [hrun, hplan, hempty]; rfl⟩
  · have hreads : plan.Reads source 1 := by
      refine ⟨fun p hp hle => ?_, fun hpos => by omega, .inl hsecond⟩
      rwa [Nat.le_antisymm hle hp]
    obtain ⟨t, hrun, -⟩ := run_serves plan hboard hjournal hall tags s hmax hreads
      (fun p hp hle => Nat.le_antisymm hle hp ▸ hreadable) (by omega)
    refine ⟨1, t, ?_⟩
    rw [hrun, hplan]
    simp [SearchResult.ofPages]

end SearchPlan

/-! ### Single posts -/

namespace Haul

/-- The haul with what is kept of some entries among its single posts, and the rest counted. -/
def receive (h : Haul) (r : Sifting) (qs : List GrabbedPost) : Haul :=
  { h with
    single := h.single ++ qs
    blacklisted := h.blacklisted + r.blacklisted
    invalid := h.invalid + r.invalid }

theorem receive_append (h : Haul) (r r' : Sifting) (qs qs' : List GrabbedPost) :
    h.receive (r.append r') (qs ++ qs') = (h.receive r qs).receive r' qs' := by
  simp only [receive, Sifting.append, List.append_assoc, Nat.add_assoc]

end Haul

namespace Grabber

open Gathering

variable {g : Grabber σ}

theorem discard_snd {α : Type} (x : Run σ α) (s : σ) : (discard x s).2 = (x s).2 := by
  change ((x >>= fun _ => pure ()) s).2 = (x s).2
  rw [bind_apply]
  rcases x s with ⟨_ | _, _⟩ <;> rfl

theorem haul_change {α β : Type} (f : Haul → Haul) (x : Run σ α) (k : α → Gathering σ β)
    (hk : ∀ a s, (k a s).2 = s) (s : σ × Haul) :
    ((change f >>= fun _ => outside x >>= k) s).2.2 = f s.2 := by
  have hchange : change f s = (.ok (), (s.1, f s.2)) := rfl
  simp only [bind_apply, hchange, outside]
  rcases x s.1 with ⟨_ | a, t⟩
  · rfl
  · exact congrArg Prod.snd (hk a _)

theorem skip_resolved (hsafe : g.safeMode = false) (hb : g.blacklist = some b)
    (hresolved : b.isResolved = true)
    (p : Post) : g.skip? p = .ok (if b.hides p then some .blacklisted
      else if p.isInvalid then some .invalid else none) := by
  simp only [skip?, hsafe, hb, Blacklist.filter_resolved hresolved, Bool.false_and,
    Bool.false_eq_true, if_false]
  cases hhidden : b.hides p <;> simp [hhidden, Except.map, bind, Except.bind, pure, Except.pure]

theorem after_post (hsafe : g.safeMode = false) (hb : g.blacklist = some b)
    (hresolved : b.isResolved = true)
    {s : σ × Haul} {id : Int} {item : Json} {t : σ} {p : Post}
    (hfetch : g.board.fetchPost (.ofInt id) s.1 = (.ok item, t))
    (hitem : Post.ofItem? item = .ok (some p)) (hnormal : Post.normal? item = some p) :
    ∃ qs, (sift (some b) [item]).kept.mapM (fun p => p.grabbed g.naming) = .ok qs ∧
      (g.after s (.post id)).2 = s.2.receive (sift (some b) [item]) qs := by
  have hfetched : outside (g.board.fetchPost (.ofInt id)) s = (.ok item, (t, s.2)) := by
    simp only [outside, hfetch]
  have hskip := skip_resolved hsafe hb hresolved p
  simp only [after, Call.perform, discard_snd, grabPost,
    bind_apply (outside (g.board.fetchPost _)), hfetched,
    bind_apply (Run.lift _), hitem, Run.lift, mapError_ok, hskip]
  cases hhidden : b.hides p with
  | true =>
    have hsift : sift (some b) [item] = ⟨[], 0, 1, 0⟩ := by
      simp [sift, hnormal, Post.hiddenBy, hhidden]
    refine ⟨[], by rw [hsift]; rfl, ?_⟩
    refine (haul_change (countSkip .blacklisted) _ (fun _ => pure none)
      (fun _ _ => rfl) (t, s.2)).trans ?_
    simp [countSkip, Haul.receive, hsift]
  | false =>
    cases hinvalid : p.isInvalid with
    | true =>
      have hsift : sift (some b) [item] = ⟨[], 0, 0, 1⟩ := by
        simp [sift, hnormal, Post.hiddenBy, hhidden, hinvalid]
      refine ⟨[], by rw [hsift]; rfl, ?_⟩
      refine (haul_change (countSkip .invalid) _ (fun _ => pure none)
        (fun _ _ => rfl) (t, s.2)).trans ?_
      simp [countSkip, Haul.receive, hsift]
    | false =>
      obtain ⟨q, hq, -⟩ := Post.grabbed_of_located (Post.isInvalid_eq_false hinvalid).2 g.naming
      have hsift : sift (some b) [item] = ⟨[p], 0, 0, 0⟩ := by
        simp [sift, hnormal, Post.hiddenBy, hhidden, hinvalid]
      refine ⟨[q], by rw [hsift, List.mapM_cons, hq]; rfl, ?_⟩
      simp only [Bool.false_eq_true, if_false, hq]
      refine (haul_change (fun h => { h with single := h.single ++ [q] }) _ (fun _ => pure (some q))
        (fun _ _ => rfl) (t, s.2)).trans ?_
      simp [Haul.receive, hsift]

inductive Handed (g : Grabber σ) : σ × Haul → List (Int × Json) → Prop
  | nil {s : σ × Haul} : Handed g s []
  | cons {s : σ × Haul} {id : Int} {item : Json} {t : σ} {rest : List (Int × Json)}
      (fetched : g.board.fetchPost (.ofInt id) s.1 = (.ok item, t))
      (later : Handed g (g.after s (.post id)) rest) : Handed g s ((id, item) :: rest)

theorem afterAll_handed (hsafe : g.safeMode = false) (hb : g.blacklist = some b)
    (hresolved : b.isResolved = true) {s : σ × Haul} {handed : List (Int × Json)}
    (hgiven : g.Handed s handed)
    (hposts : ∀ d ∈ handed, Post.Readable d.2 ∧ (Post.normal? d.2).isSome = true) :
    ∃ qs, (sift (some b) (handed.map (·.2))).kept.mapM (fun p => p.grabbed g.naming) = .ok qs ∧
      (g.afterAll s (handed.map fun d => .post d.1)).2 =
        s.2.receive (sift (some b) (handed.map (·.2))) qs := by
  induction hgiven with
  | nil => exact ⟨[], rfl, by simp [afterAll, Haul.receive, sift]⟩
  | @cons s id item t rest fetched later ih =>
    obtain ⟨hreadable, hsome⟩ := hposts (id, item) List.mem_cons_self
    obtain ⟨p, hnormal⟩ := Option.isSome_iff_exists.mp hsome
    have hitem : Post.ofItem? item = .ok (some p) := by
      have hentry := hreadable.ofEntry
      rw [hnormal] at hentry
      cases item with
      | object ms => exact hentry
      | _ => cases hentry
    obtain ⟨qs, hqs, hfirst⟩ := after_post hsafe hb hresolved fetched hitem hnormal
    obtain ⟨qs', hqs', hrest⟩ := ih fun d hd => hposts d (List.mem_cons_of_mem _ hd)
    have hsift : sift (some b) (item :: rest.map (·.2)) =
        (sift (some b) [item]).append (sift (some b) (rest.map (·.2))) :=
          Sifting.sift_append _ [item] _
    refine ⟨qs ++ qs', ?_, ?_⟩
    · simp only [List.map_cons, hsift, Sifting.append, List.mapM_append, hqs, hqs']
      rfl
    · simp only [List.map_cons, hsift, Haul.receive_append, ← hfirst]
      exact hrest

end Grabber

/-- Whatever way the same entries take, the same posts of them are kept. The offline command and a
search count what they leave out alike; the single posts are grabbed of the entries that give one,
and count alike what they leave out of these. -/
theorem three_ways_agree {υ : Type} (b : Blacklist) (items : List Json)
    (hresolved : b.isResolved = true) (hreadable : ∀ entry ∈ items, Post.Readable entry)
    (plan : SearchPlan σ) (board : Board σ) (source : Nat → List Json)
    (asked : σ → List (String × Nat × Int)) (tags : String) (s : σ)
    (hplan : plan.blacklist = some b) (hboard : board.Serves source asked)
    (hjournal : plan.journal.Quiet asked) (hmax : 0 ≤ plan.maxPages)
    (hbudget : plan.maxPages = 0 → 2 ≤ plan.budget) (hfirst : source 1 = items)
    (hsecond : source 2 = []) (g : Grabber υ) (u : υ) (h : Haul) (handed : List (Int × Json))
    (hb : g.blacklist = some b) (hsafe : g.safeMode = false) (hgiven : g.Handed (u, h) handed)
    (hitems : handed.map (·.2) = items.filter fun entry => (Post.normal? entry).isSome) :
    ∃ (posts visible kept : List Post) (skipped blacklisted invalid : Nat),
      Post.ofPayload (.array items) = .ok (posts, skipped) ∧
      b.filter posts = .ok (visible, blacklisted) ∧
      Post.removeInvalid visible = (kept, invalid) ∧
      (∀ task w t payload, task.keepInvalid = false → Command.filterInputs task w =
        (.ok (b, payload), t) → Post.itemsOf payload = items →
        Command.runFilter task w =
          Command.tellSifting task posts.length ⟨kept, skipped, blacklisted, invalid⟩ t) ∧
      (∃ pages t, plan.run board tags s =
        (.ok ⟨kept.reverse, pages, blacklisted, invalid, skipped⟩, t)) ∧
      ∃ qs, kept.mapM (fun p => p.grabbed g.naming) = .ok qs ∧
        (g.afterAll (u, h) (handed.map fun d => .post d.1)).2 =
          { h with
            single := h.single ++ qs
            blacklisted := h.blacklisted + blacklisted
            invalid := h.invalid + invalid } := by
  obtain ⟨posts, visible, hposts, hoffline, hvisible, hkept⟩ :=
    Sifting.of_filters hresolved (.array items) hreadable
  refine ⟨posts, visible, _, _, _, _, hoffline, hvisible, hkept, ?_, ?_, ?_⟩
  · rintro task w t payload hkeep hinputs rfl
    have htell := Command.runFilter_of_inputs hkeep hinputs hresolved hreadable
    rw [hposts]
    exact htell
  · subst hfirst
    exact SearchPlan.run_single_page hplan hresolved hboard hjournal hmax hbudget
      hreadable hsecond tags s
  · have hall : ∀ d ∈ handed, Post.Readable d.2 ∧ (Post.normal? d.2).isSome = true := by
      intro d hd
      have hmem : d.2 ∈ items.filter fun entry => (Post.normal? entry).isSome :=
        hitems ▸ List.mem_map_of_mem hd
      obtain ⟨hin, hsome⟩ := List.mem_filter.mp hmem
      exact ⟨hreadable _ hin, hsome⟩
    obtain ⟨qs, hqs, hhaul⟩ := Grabber.afterAll_handed hsafe hb hresolved hgiven hall
    rw [hitems, Sifting.sift_normal] at hqs hhaul
    exact ⟨qs, hqs, hhaul⟩

def queueBoard : Board (List Json) where
  isAuthenticated := false
  fetchBlacklist := pure ""
  lookupUser := fun _ => pure .null
  searchPosts := fun _ _ _ => pure []
  fetchPost := fun _ queue => (.ok (queue.headD .null), queue.tail)
  fetchPool := fun _ => pure []
  fetchSet := fun _ => pure []

def fourEntries : List Json :=
  [.object [("id", .int 1), ("file", .object [("url", .string "u")])], .object [("id", .int 2)],
    .object [("id", .int 3)], .object []]

theorem readable_fourEntries : ∀ entry ∈ fourEntries, Post.Readable entry := by
  simp only [fourEntries, List.forall_mem_cons, List.not_mem_nil, false_imp_iff,
    implies_true, and_true]
  exact ⟨⟨_, rfl⟩, ⟨_, rfl⟩, ⟨_, rfl⟩, ⟨_, rfl⟩⟩

def queueGrabber : Grabber (List Json) :=
  { board := queueBoard, search := { blacklist := some ⟨[[.ofId 2 false]]⟩, budget := 2 } }

def fourSource (page : Nat) : List Json := if page = 1 then fourEntries else []

theorem three_ways_agree_fourEntries :
    ∃ (kept : List Post) (pages : Nat) (t : List (String × Nat × Int)),
    kept.map (·.id) = [1] ∧
    SearchPlan.unlimited.run (SearchPlan.pagedBoard fourSource) "a" [] =
      (.ok ⟨kept.reverse, pages, 1, 1, 1⟩, t) ∧
    ∃ qs, kept.mapM (fun p => p.grabbed queueGrabber.naming) = .ok qs ∧
      (queueGrabber.afterAll (fourEntries, {}) [.post 1, .post 2, .post 3]).2 = ⟨qs, [], 1, 1⟩ := by
  have hgiven : queueGrabber.Handed (fourEntries, {})
      [(1, fourEntries[0]), (2, fourEntries[1]), (3, fourEntries[2])] :=
    .cons rfl (.cons rfl (.cons rfl .nil))
  obtain ⟨posts, visible, kept, skipped, blacklisted, invalid, hposts, hvisible, hkept, -,
      ⟨pages, t, hrun⟩, qs, hqs, hhaul⟩ :=
    three_ways_agree ⟨[[.ofId 2 false]]⟩ fourEntries (by decide) readable_fourEntries
      SearchPlan.unlimited
      (SearchPlan.pagedBoard fourSource) fourSource id "a" [] rfl (SearchPlan.serves_pagedBoard _)
      (Journal.quiet_silent id) (by decide) (by decide) rfl rfl queueGrabber fourEntries
        {} _ rfl rfl hgiven rfl
  cases hposts
  cases hvisible
  cases hkept
  exact ⟨_, pages, t, rfl, hrun, qs, hqs, hhaul⟩

end Booru
