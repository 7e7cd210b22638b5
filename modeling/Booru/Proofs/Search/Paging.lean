import Mathlib.Data.Nat.Find
import Booru.Proofs.Grabber.Replies
import Booru.Proofs.Search.Alike
import Booru.Proofs.Post.Sifting

/-! Searches page by page. Which pages are asked for, and what becomes of the entries on them, does
not depend on how the pages are walked through: the pages are those in front of the first empty one,
as far as the limit goes, and each of them is sifted for itself. -/

namespace Booru

open Run

variable {σ τ : Type}

/-- The board gives the pages of `source` and puts on record what it is asked for: the tags, the
page, and the number of posts to a page. -/
def Board.Serves (board : Board σ) (source : Nat → List Json)
    (asked : σ → List (String × Nat × Int)) : Prop :=
  ∀ (tags : String) (page : Nat) (limit : Int) (s : σ), ∃ t,
    board.searchPosts tags page limit s = (.ok (source page), t) ∧
      asked t = asked s ++ [(tags, page, limit)]

/-- `k` is the number of pages in front of the first empty one, or the limit where that is less. -/
structure SearchPlan.Reads (plan : SearchPlan σ) (source : Nat → List Json) (k : Nat) : Prop where
  full : ∀ p, 1 ≤ p → p ≤ k → source p ≠ []
  within : 0 < plan.maxPages → (k : Int) ≤ plan.maxPages
  stopped : source (k + 1) = [] ∨ 0 < plan.maxPages ∧ (k : Int) = plan.maxPages

namespace SearchResult

def ofPages (blacklist : Option Blacklist) (pages : List (List Json)) : SearchResult where
  posts := pages.flatMap fun items => (sift blacklist items).kept.reverse
  pages := pages.length
  blacklisted := (sift blacklist pages.flatten).blacklisted
  invalid := (sift blacklist pages.flatten).invalid
  skipped := (sift blacklist pages.flatten).skipped

variable {b : Option Blacklist}

theorem append_assoc (x y z : SearchResult) : (x.append y).append z = x.append (y.append z) := by
  simp only [append, List.append_assoc, Nat.add_assoc]

theorem append_ofPages_nil (x : SearchResult) : x.append (ofPages b []) = x := by
  simp [append, ofPages, sift]

theorem empty_append (x : SearchResult) : append {} x = x := by simp [append]

theorem ofPages_cons (items : List Json) (pages : List (List Json)) :
    ofPages b (items :: pages) = (ofPages b [items]).append (ofPages b pages) := by
  simp [ofPages, append, sift, Nat.add_comm]

theorem ofItems_eq {items : List Json} (hreadable : ∀ entry ∈ items, Post.Readable entry)
    (hresolved : ∀ c, b = some c → c.isResolved = true) :
    ofItems b items = .ok (ofPages b [items]) := by
  have hbatch : Post.ofPayload (.array items) =
      .ok (items.filterMap Post.normal?, items.countP fun entry => (Post.normal? entry).isNone) :=
    Post.Readable.ofEntries hreadable
  simp only [ofItems, hbatch, mapError_ok, bind, Except.bind, pure, Except.pure]
  cases b with
  | none => simp [ofPages, sift, Post.removeInvalid_eq, Post.hiddenBy]
  | some c =>
    simp [ofPages, sift, Post.removeInvalid_eq, Post.hiddenBy,
      Blacklist.filter_resolved (hresolved c rfl), List.filter_filter,
      List.countP_filter, Bool.and_comm]

end SearchResult

namespace SearchPlan

variable {plan : SearchPlan σ} {board : Board σ} {source : Nat → List Json}
  {asked : σ → List (String × Nat × Int)} {k : Nat}

theorem exists_reads (hmax : 0 ≤ plan.maxPages)
    (hend : plan.maxPages = 0 → ∃ p, 1 ≤ p ∧ source p = []) :
    ∃ k, plan.Reads source k := by
  have hstop : ∃ k : Nat, source (k + 1) = [] ∨ 0 < plan.maxPages ∧ (k : Int) = plan.maxPages := by
    by_cases hlimit : plan.maxPages = 0
    · obtain ⟨p, hp, hempty⟩ := hend hlimit
      exact ⟨p - 1, .inl (by rwa [Nat.sub_add_cancel hp])⟩
    · exact ⟨plan.maxPages.toNat, .inr (by omega)⟩
  classical
  refine ⟨Nat.find hstop, fun p hp hle hempty => ?_, fun hpos => ?_, Nat.find_spec hstop⟩
  · refine Nat.find_min hstop (m := p - 1) (by omega) (.inl ?_)
    rwa [Nat.sub_add_cancel hp]
  · by_contra hbeyond
    exact Nat.find_min hstop (m := plan.maxPages.toNat) (by omega) (.inr (by omega))

theorem Reads.unique {k' : Nat} (h : plan.Reads source k) (h' : plan.Reads source k') : k = k' := by
  have hle {k k' : Nat} (h : plan.Reads source k) (h' : plan.Reads source k') : k ≤ k' := by
    by_contra hlt
    rcases h'.stopped with hempty | ⟨hpos, hlimit⟩
    · exact h.full (k' + 1) (by omega) (by omega) hempty
    · have hwithin := h.within hpos
      omega
  exact Nat.le_antisymm (hle h h') (hle h' h)

/-- The loop gets over pages that have entries on them, all of which can be sifted. `I n` holds when
`n` of them have been asked for. -/
theorem pagesFrom_walk {I : Nat → σ → Prop} {tags : String} {pages : List (List Json)}
    {page : Nat} {s : σ}
    (hsearch : ∀ n items, pages[n]? = some items → ∀ s, I n s → ∃ t,
      board.searchPosts tags (page + n) plan.postsPerPage s = (.ok items, t) ∧ I (n + 1) t)
    (htell : ∀ n level event fields s, I n s → ∃ t, plan.journal.tell level event fields s =
      (.ok (), t) ∧ I n t)
    (hpages : ∀ items ∈ pages, items ≠ [] ∧
      SearchResult.ofItems plan.blacklist items = .ok (.ofPages plan.blacklist [items]))
    (left : Nat) (found : SearchResult) (h : I 0 s) :
    ∃ t, plan.pagesFrom board tags (left + pages.length) page found s =
        plan.pagesFrom board tags left (page + pages.length)
          (found.append (.ofPages plan.blacklist pages)) t ∧
      I pages.length t := by
  induction pages generalizing I page found s with
  | nil => exact ⟨s, by rw [SearchResult.append_ofPages_nil]; rfl, h⟩
  | cons items pages ih =>
    obtain ⟨⟨hne, hitems⟩, hpages⟩ := List.forall_mem_cons.mp hpages
    obtain ⟨t, hpage, ht⟩ := hsearch 0 items rfl s h
    obtain ⟨u, hprocessed, hu⟩ := htell 1 .debug "search_page_processed"
      (pageEvent tags page items.length (.ofPages plan.blacklist [items])) t ht
    have hlater (n : Nat) (items : List Json) (hn : pages[n]? = some items) (s : σ)
        (hs : I (n + 1) s) : ∃ t, board.searchPosts tags (page + 1 + n) plan.postsPerPage s =
          (.ok items, t) ∧ I (n + 1 + 1) t := by
      rw [Nat.add_assoc, Nat.add_comm 1 n]
      exact hsearch (n + 1) items hn s hs
    obtain ⟨v, hrest, hv⟩ := ih (I := fun n => I (n + 1)) hlater (fun n => htell (n + 1)) hpages
      (found.append (.ofPages plan.blacklist [items])) hu
    refine ⟨v, ?_, hv⟩
    rw [List.length_cons, ← Nat.add_assoc, pagesFrom, bind_apply,
      show board.searchPosts tags page _ s = _ from hpage]
    simp only [hne, List.isEmpty_iff, if_false, bind_apply, hitems, Run.lift, hprocessed, hrest]
    rw [SearchResult.append_assoc, ← SearchResult.ofPages_cons, Nat.add_assoc, Nat.add_comm 1]

def AskedFrom (plan : SearchPlan σ) (asked : σ → List (String × Nat × Int)) (tags : String)
    (page : Nat) (s : σ) (n : Nat) (t : σ) : Prop :=
  asked t = asked s ++ (List.range' page n).map fun p => (tags, p, plan.postsPerPage)

theorem AskedFrom.next {tags : String} {page n : Nat} {s t : σ} (hboard : board.Serves source asked)
    (h : plan.AskedFrom asked tags page s n t) : ∃ u,
      board.searchPosts tags (page + n) plan.postsPerPage t = (.ok (source (page + n)), u) ∧
        plan.AskedFrom asked tags page s (n + 1) u := by
  obtain ⟨u, hsearch, hasked⟩ := hboard tags (page + n) plan.postsPerPage t
  refine ⟨u, hsearch, ?_⟩
  rw [AskedFrom, hasked, h, List.range'_1_concat, List.map_append, List.append_assoc]
  rfl

theorem pagesFrom_serves (hboard : board.Serves source asked) (hjournal : plan.journal.Quiet asked)
    (hresolved : ∀ b, plan.blacklist = some b → b.isResolved = true) (tags : String)
    (left page : Nat) (found : SearchResult) (s : σ)
    (hfull : ∀ p, page ≤ p → p < page + k → source p ≠ [] ∧ ∀ entry ∈ source p, Post.Readable entry)
    (hstop : source (page + k) = [] ∧ k < left ∨ k = left ∧ plan.maxPages ≠ 0) :
    ∃ t, plan.pagesFrom board tags left page found s =
        (.ok (found.append (.ofPages plan.blacklist ((List.range' page k).map source))), t) ∧
      asked t = asked s ++
        (List.range' page (min left (k + 1))).map fun p => (tags, p, plan.postsPerPage) := by
  have hsearch (n : Nat) (items : List Json) (hn : ((List.range' page k).map source)[n]? =
      some items) (t : σ)
      (ht : plan.AskedFrom asked tags page s n t) : ∃ u,
      board.searchPosts tags (page + n) plan.postsPerPage t = (.ok items, u) ∧
        plan.AskedFrom asked tags page s (n + 1) u := by
    obtain ⟨hin, rfl⟩ := List.getElem?_eq_some_iff.mp hn
    simpa using ht.next hboard
  have htell (n : Nat) (level : Level) (event : String) (fields : Json.Members) (t : σ)
      (ht : plan.AskedFrom asked tags page s n t) : ∃ u,
        plan.journal.tell level event fields t = (.ok (), u) ∧
        plan.AskedFrom asked tags page s n u := by
    obtain ⟨u, htell, hu⟩ := hjournal level event fields t
    exact ⟨u, htell, hu.trans ht⟩
  have hpages (items : List Json) (hitems : items ∈ (List.range' page k).map source) : items ≠ [] ∧
      SearchResult.ofItems plan.blacklist items = .ok (.ofPages plan.blacklist [items]) := by
    obtain ⟨p, hp, rfl⟩ := List.mem_map.mp hitems
    obtain ⟨hlow, hhigh⟩ := List.mem_range'_1.mp hp
    obtain ⟨hne, hreadable⟩ := hfull p hlow hhigh
    exact ⟨hne, SearchResult.ofItems_eq hreadable hresolved⟩
  obtain ⟨spare, rfl⟩ : ∃ spare, left = spare + k := ⟨left - k, by omega⟩
  have hstart : plan.AskedFrom asked tags page s 0 s := (List.append_nil _).symm
  obtain ⟨t, hwalk, ht⟩ := pagesFrom_walk hsearch htell hpages spare found hstart
  rw [List.length_map, List.length_range'] at hwalk ht
  rw [hwalk]
  obtain ⟨hempty, hspare⟩ | ⟨hnone, hlimit⟩ := hstop
  · obtain ⟨u, hlast, hu⟩ := ht.next hboard
    obtain ⟨rest, rfl⟩ : ∃ rest, spare = rest + 1 := ⟨spare - 1, by omega⟩
    refine ⟨u, ?_, ?_⟩
    · rw [pagesFrom, bind_apply, hlast, hempty]
      rfl
    · rwa [Nat.min_eq_right (by omega)]
  · obtain rfl : spare = 0 := by omega
    refine ⟨t, ?_, ?_⟩
    · rw [pagesFrom, if_neg hlimit]
      rfl
    · rwa [Nat.min_eq_left (by omega), Nat.zero_add]

def allowed (plan : SearchPlan σ) : Nat := if plan.maxPages = 0 then plan.budget
    else plan.maxPages.toNat

theorem Reads.ends (hk : plan.Reads source k) (hmax : 0 ≤ plan.maxPages)
    (hbudget : plan.maxPages = 0 → k < plan.budget) :
    source (k + 1) = [] ∧ k < plan.allowed ∧ ¬ (0 < plan.maxPages ∧ (k : Int) = plan.maxPages) ∨
      k = plan.allowed ∧ 0 < plan.maxPages ∧ (k : Int) = plan.maxPages := by
  by_cases hlimit : plan.maxPages = 0
  · have hlt : k < plan.allowed := by simpa [allowed, hlimit] using hbudget hlimit
    have hpos : ¬ 0 < plan.maxPages := by omega
    exact .inl ⟨hk.stopped.resolve_right fun h => hpos h.1, hlt, fun h => hpos h.1⟩
  · have hwithin := hk.within (by omega)
    have hallowed : plan.allowed = plan.maxPages.toNat := if_neg hlimit
    by_cases hlast : (k : Int) = plan.maxPages
    · exact .inr ⟨by omega, by omega, hlast⟩
    · exact .inl ⟨hk.stopped.resolve_right fun h => hlast h.2, by omega, fun h => hlast h.2⟩

variable (plan) in
theorem run_serves (hboard : board.Serves source asked) (hjournal : plan.journal.Quiet asked)
    (hresolved : ∀ b, plan.blacklist = some b → b.isResolved = true) (tags : String) (s : σ)
    (hmax : 0 ≤ plan.maxPages) (hk : plan.Reads source k)
    (hreadable : ∀ p, 1 ≤ p → p ≤ k → ∀ entry ∈ source p, Post.Readable entry)
    (hbudget : plan.maxPages = 0 → k < plan.budget) :
    ∃ t, plan.run board tags s = (.ok (.ofPages plan.blacklist ((List.range' 1 k).map source)), t) ∧
      asked t = asked s ++
        (List.range' 1 (if 0 < plan.maxPages ∧ (k : Int) = plan.maxPages then k else k + 1)).map
          fun p => (tags, p, plan.postsPerPage) := by
  have hends := hk.ends hmax hbudget
  have hstop : source (1 + k) = [] ∧ k < plan.allowed ∨ k = plan.allowed ∧ plan.maxPages ≠ 0 := by
    rw [Nat.add_comm]
    rcases hends with ⟨hempty, hlt, -⟩ | ⟨heq, hpos, -⟩
    · exact .inl ⟨hempty, hlt⟩
    · exact .inr ⟨heq, by omega⟩
  have hcount : min plan.allowed (k + 1) =
      if 0 < plan.maxPages ∧ (k : Int) = plan.maxPages then k else k + 1 := by
    rcases hends with ⟨-, hlt, hnot⟩ | ⟨heq, hlast⟩
    · rw [if_neg hnot]
      omega
    · rw [if_pos hlast]
      omega
  obtain ⟨t, hpages, hasked⟩ := pagesFrom_serves hboard hjournal hresolved tags plan.allowed 1 {} s
    (fun p hp hlt => ⟨hk.full p hp (by omega), hreadable p hp (by omega)⟩) hstop
  rw [SearchResult.empty_append] at hpages
  obtain ⟨u, htell, hquiet⟩ := hjournal .info "search_completed"
    (completedEvent tags (.ofPages plan.blacklist ((List.range' 1 k).map source))) t
  refine ⟨u, ?_, by rw [hquiet, hasked, hcount]⟩
  rw [run_eq, if_neg (by omega), bind_apply, ← allowed, hpages]
  simp only [bind_apply, htell]
  rfl

end SearchPlan

/-! ### The whole search -/

namespace SearchResult

variable {b : Option Blacklist}

theorem length_ofPages (b : Option Blacklist) (pages : List (List Json)) :
    (ofPages b pages).posts.length + (ofPages b pages).blacklisted + (ofPages b pages).invalid +
      (ofPages b pages).skipped = pages.flatten.length := by
  have hposts : (ofPages b pages).posts.length = (sift b pages.flatten).kept.length := by
    induction pages with
    | nil => rfl
    | cons items pages ih =>
      rw [List.flatten_cons, Sifting.sift_append, Sifting.append, List.length_append, ← ih]
      simp [ofPages]
  rw [hposts]
  exact Sifting.total b pages.flatten

theorem filter_ofPages (b : Blacklist) (pages : List (List Json)) :
    (ofPages none pages).posts.filter (!b.hides ·) = (ofPages (some b) pages).posts := by
  simp only [ofPages, List.filter_flatMap, List.filter_reverse, Sifting.filter_kept]

end SearchResult

namespace SearchPlan

variable {plan : SearchPlan σ} {board : Board σ} {source : Nat → List Json}
  {asked : σ → List (String × Nat × Int)}

/-- A search asks for the pages in front of the first empty one, as far as its limit goes, and for
that one if it has no limit or does not reach it. What it finds is what is kept of each page,
oldest first. All entries of these pages are accounted for, and to filter what a search without a
blacklist finds comes to the same. A search without a limit has to be given as many pages as there
are up to the first empty one. -/
theorem run_page_by_page (plan : SearchPlan σ) (board : Board σ) (source : Nat → List Json)
    (asked : σ → List (String × Nat × Int)) (tags : String) (s : σ)
    (hboard : board.Serves source asked) (hjournal : plan.journal.Quiet asked)
    (hreadable : ∀ p, ∀ entry ∈ source p, Post.Readable entry)
    (hresolved : ∀ b, plan.blacklist = some b → b.isResolved = true) (hmax : 0 ≤ plan.maxPages)
    (hend : plan.maxPages = 0 → ∃ p, 1 ≤ p ∧ p ≤ plan.budget ∧ source p = []) :
    ∃ k r t, plan.Reads source k ∧ plan.run board tags s = (.ok r, t) ∧
      asked t = asked s ++
        (List.range' 1 (if 0 < plan.maxPages ∧ (k : Int) = plan.maxPages then k else k + 1)).map
          (fun p => (tags, p, plan.postsPerPage)) ∧
      r.pages = k ∧
      r.posts = (List.range' 1 k).flatMap (fun p => (sift plan.blacklist (source p)).kept.reverse) ∧
      r.posts.length + r.blacklisted + r.invalid + r.skipped =
        ((List.range' 1 k).flatMap source).length ∧
      ∃ r₀ t₀, { plan with blacklist := none }.run board tags s = (.ok r₀, t₀) ∧
        ∀ b, plan.blacklist = some b → ∃ hidden, b.filter r₀.posts = .ok (r.posts, hidden) := by
  obtain ⟨k, hk⟩ := exists_reads hmax fun hlimit => (hend hlimit).imp fun p hp => ⟨hp.1, hp.2.2⟩
  have hbudget : plan.maxPages = 0 → k < plan.budget := by
    intro hlimit
    obtain ⟨p, hpos, hle, hempty⟩ := hend hlimit
    by_contra hlt
    exact hk.full p hpos (by omega) hempty
  have hread := fun p (_ : 1 ≤ p) (_ : p ≤ k) => hreadable p
  obtain ⟨t, hrun, hasked⟩ := run_serves plan hboard hjournal hresolved tags s hmax hk hread hbudget
  obtain ⟨t₀, hrun₀, -⟩ := run_serves { plan with blacklist := none } hboard
    hjournal nofun tags s hmax
    ⟨hk.full, hk.within, hk.stopped⟩ hread hbudget
  refine ⟨k, _, t, hk, hrun, hasked, by simp [SearchResult.ofPages], ?_, ?_, _, t₀,
    hrun₀, fun b hb => ?_⟩
  · simp [SearchResult.ofPages, List.flatMap_map]
  · exact SearchResult.length_ofPages plan.blacklist ((List.range' 1 k).map source)
  · exact ⟨_, by rw [Blacklist.filter_resolved (hresolved b hb), SearchResult.filter_ofPages, hb]⟩

def pagedBoard (source : Nat → List Json) : Board (List (String × Nat × Int)) where
  isAuthenticated := false
  fetchBlacklist := pure ""
  lookupUser := fun _ => pure .null
  searchPosts := fun tags page limit asked => (.ok (source page), asked ++ [(tags, page, limit)])
  fetchPost := fun _ => pure .null
  fetchPool := fun _ => pure []
  fetchSet := fun _ => pure []

theorem serves_pagedBoard (source : Nat → List Json) : (pagedBoard source).Serves source id :=
  fun _ _ _ _ => ⟨_, rfl, rfl⟩

def threePages : Nat → List Json
  | 1 => [.object [("id", .int 1), ("file", .object [("url", .string "u")])],
      .object [("id", .int 2), ("file", .object [("url", .string "u")])], .object []]
  | 2 => [.object [("id", .int 3), ("file", .object [("url", .string "u")])],
    .object [("id", .int 4)]]
  | _ => []

def unlimited : SearchPlan (List (String × Nat × Int)) :=
  { blacklist := some ⟨[[.ofId 2 false]]⟩, maxPages := 0, budget := 3 }

theorem readable_threePages (p : Nat) : ∀ entry ∈ threePages p, Post.Readable entry := by
  unfold threePages
  split <;> simp only [List.forall_mem_cons, List.not_mem_nil, false_imp_iff,
    implies_true, and_true]
  · exact ⟨⟨_, rfl⟩, ⟨_, rfl⟩, ⟨_, rfl⟩⟩
  · exact ⟨⟨_, rfl⟩, ⟨_, rfl⟩⟩

theorem run_page_by_page_unlimited : ∃ r t,
    unlimited.run (pagedBoard threePages) "a" [] = (.ok r, t) ∧
      t = [("a", 1, 320), ("a", 2, 320), ("a", 3, 320)] ∧ r.pages = 2 ∧
      r.posts.map (·.id) = [1, 3] ∧
      r.posts.length + r.blacklisted + r.invalid + r.skipped = 5 := by
  obtain ⟨k, r, t, hk, hrun, hasked, hpages, hposts, htotal, -⟩ := run_page_by_page unlimited
    (pagedBoard threePages) threePages id "a" [] (serves_pagedBoard threePages)
      (Journal.quiet_silent id)
    readable_threePages (by rintro _ ⟨⟩; decide) (by decide) fun _ => ⟨3, by decide, by decide, rfl⟩
  have htwo : unlimited.Reads threePages 2 := by
    refine ⟨fun p hp hle => ?_, fun hpos => absurd hpos (by decide), .inl rfl⟩
    obtain rfl | rfl : p = 1 ∨ p = 2 := by omega
    · exact List.cons_ne_nil _ _
    · exact List.cons_ne_nil _ _
  obtain rfl := hk.unique htwo
  exact ⟨r, t, hrun, hasked, hpages, by rw [hposts]; rfl, htotal⟩

def endless : SearchPlan (List (String × Nat × Int)) := { maxPages := 0, budget := 1 }

/-- Where no page has anything on it, none is read, and zero is also what stands for no limit. The
first page is asked for nevertheless: the end of the search is not the limit. -/
theorem empty_search_asks_once :
    endless.Reads (fun _ => []) 0 ∧
    endless.run (pagedBoard fun _ => []) "a" [] = (.ok {}, [("a", 1, 320)]) ∧
    [("a", 1, 320)] ≠
      (List.range' 1 (if ((0 : Nat) : Int) = endless.maxPages then 0 else 0 + 1)).map
        fun p => ("a", p, endless.postsPerPage) := by
  refine ⟨⟨fun p hp hle => ?_, fun hpos => absurd hpos (by decide), .inl rfl⟩, rfl, by decide⟩
  omega

end SearchPlan
end Booru
