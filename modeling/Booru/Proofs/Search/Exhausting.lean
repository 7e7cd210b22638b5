import Booru.Proofs.Client.Contract
import Booru.Proofs.Client.Delays
import Booru.Proofs.Post.Forms
import Booru.Proofs.Search.Paging

/-! Searches without a limit, as a client makes them. The client leaves out of a page all that is no
object before the search looks whether anything is on it. So a page without an object ends the
search, whatever there is on the pages behind it. -/

namespace Booru

open Run

def Json.objects (entries : List Json) : List Json := entries.filter fun entry =>
    entry.members?.isSome

def Answer.entries? (a : Answer) : Option (List Json) :=
  match (a.response 0 "").json with
  | .ok data => (data.member "posts").array?
  | .error _ => none

/-- A successful answer to the request for a page, with these entries on it. -/
structure Answer.Lists (a : Answer) (entries : List Json) : Prop where
  success : a.isError = false
  listed : a.entries? = some entries

theorem Answer.Lists.exists_json {a : Answer} {entries : List Json} (h : a.Lists entries)
    (index : Nat) (url : String) :
    ∃ data, (a.response index url).json = .ok data ∧ data.member "posts" = .array entries := by
  have hlisted := h.listed
  unfold entries? at hlisted
  split at hlisted
  · rename_i data hdata
    refine ⟨data, hdata, ?_⟩
    cases hposts : data.member "posts" <;> rw [hposts] at hlisted <;> cases hlisted
    rfl
  · cases hlisted

def World.Lists (w : World) (pages : List (List Json)) : Prop :=
  ∃ answers rest otherwise, w.session.script = .inOrder (answers.map .ok ++ rest) otherwise ∧
    List.Forall₂ Answer.Lists answers pages

/-! ### One page -/

def World.answered (w : World) (r : Request) (script : Script) : World :=
  { w with session := { w.session with
      script, requests := w.session.requests ++ [r], released := w.session.released ++ [false] } }

namespace Client

variable {c : Client} {w t : World} {a : Answer} {script : Script} {tags : String} {limit : Int}
  {pages : List (List Json)} {entries : List Json} {n : Nat}

def pageRequest (c : Client) (tags : String) (limit : Int) (page : Nat) : Request :=
  c.request "/posts.json"
    [("tags", Text.strip tags), ("page", toString (page : Int)), ("limit", toString limit)]

theorem send_answered (c : Client) (operation : String) {r : Request}
    (hnext : w.session.script.next r.key = (.ok a, script)) (hsuccess : a.isError = false) :
    c.send operation r w = (.ok (a.response w.session.released.length r.url),
      w.answered r script) := by
  have herror := a.isError_response w.session.released.length r.url
  rw [Answer.response, hsuccess] at herror
  refine Retry.Surroundings.attempts_of_ok ?_
  simp only [Retry.Surroundings.attempt, bind_apply, World.surroundings, World.onSession,
    World.within, Session.get, hnext, herror]
  rfl

theorem searchPosts_listed (c : Client) (tags : String) {page : Nat} (hpage : 1 ≤ page)
    (hlimit : 1 ≤ limit ∧ limit ≤ maxPageSize)
    (hnext : w.session.script.next (c.pageRequest tags limit page).key = (.ok a, script))
    (hlists : a.Lists entries) :
    c.board.searchPosts tags page limit w =
      (.ok (Json.objects entries), w.answered (c.pageRequest tags limit page) script) := by
  obtain ⟨data, hjson, hposts⟩ :=
    hlists.exists_json w.session.released.length (c.pageRequest tags limit page).url
  have hsend := send_answered c "posts.index" hnext hlists.success
  have hlow : ¬ (page : Int) < 1 := by omega
  rw [pageRequest] at hsend hjson
  simp only [board, searchPosts, Option.getD_some, hlow, hlimit, if_false, decide_true,
    Bool.and_self, Bool.not_true, Bool.false_eq_true, explaining, getJson, bind_apply,
    tryCatch_apply, hsend, Run.lift, hjson]
  rw [hposts]
  rfl

/-- From `w` on the first `n` of these pages were asked for and given. -/
structure Turned (c : Client) (tags : String) (limit : Int) (pages : List (List Json))
    (w : World) (n : Nat)
    (t : World) : Prop where
  left : t.Lists (pages.drop n)
  requests : t.session.requests = w.session.requests ++ (List.range' 1 n).map
    (c.pageRequest tags limit)

theorem Turned.next (h : c.Turned tags limit pages w n t) (hlimit : 1 ≤ limit ∧ limit ≤ maxPageSize)
    (hentries : pages[n]? = some entries) : ∃ u,
      c.board.searchPosts tags (1 + n) limit t = (.ok (Json.objects entries), u) ∧
        c.Turned tags limit pages w (n + 1) u := by
  obtain ⟨answers, rest, otherwise, hscript, hlists⟩ := h.left
  obtain ⟨hin, rfl⟩ := List.getElem?_eq_some_iff.mp hentries
  rw [List.drop_eq_getElem_cons hin] at hlists
  obtain ⟨a, answers, ha, hlater, rfl⟩ := List.forall₂_cons_right_iff.mp hlists
  have hnext (key : String) : t.session.script.next key =
      (.ok a, .inOrder (answers.map .ok ++ rest) otherwise) := by
    rw [hscript]
    rfl
  refine ⟨_, searchPosts_listed c tags (Nat.le_add_right 1 n) hlimit (hnext _) ha, ?_, ?_⟩
  · exact ⟨answers, rest, otherwise, rfl, hlater⟩
  · rw [List.range'_1_concat, List.map_append, ← List.append_assoc, ← h.requests]
    rfl

theorem Turned.of_session {u : World} (h : c.Turned tags limit pages w n t)
    (hsession : u.session = t.session) :
    c.Turned tags limit pages w n u := by
  obtain ⟨hleft, hrequests⟩ := h
  rw [World.Lists, ← hsession] at hleft
  exact ⟨hleft, hsession ▸ hrequests⟩

end Client

/-! ### Pages that are taken in -/

structure SearchPlan.Takes (plan : SearchPlan World) (entries : List Json) : Prop where
  full : Json.objects entries ≠ []
  readable : ∀ entry ∈ Json.objects entries, Post.Readable entry
  resolved : ∀ b, plan.blacklist = some b → b.isResolved = true

theorem SearchResult.exists_error {b : Option Blacklist} {items : List Json}
    (h : ¬ ((∀ entry ∈ items, Post.Readable entry) ∧ ∀ c, b = some c → c.isResolved = true)) :
    ∃ f, ofItems b items = .error f := by
  cases hbatch : Post.ofPayload (.array items) with
  | error e => exact ⟨.integer e, by simp [ofItems, hbatch, bind, Except.bind]⟩
  | ok batch =>
    have hreadable : ∀ entry ∈ items, Post.Readable entry := by
      obtain ⟨results, hresults, -⟩ := Post.exists_results hbatch
      intro entry hentry
      obtain ⟨i, hi, rfl⟩ := List.mem_iff_getElem.mp hentry
      exact ⟨_, hresults.get hi (hresults.length_eq ▸ hi)⟩
    obtain ⟨c, hc, hunresolved⟩ : ∃ c, b = some c ∧ ¬ c.isResolved = true := by
      by_contra hnone
      exact h ⟨hreadable, fun c hc => by_contra fun hunresolved => hnone ⟨c, hc, hunresolved⟩⟩
    have hunknown : c.hasUnresolvedUsers = true := by simpa [Blacklist.isResolved] using hunresolved
    have hfailed : ofItems b items = .error .unresolvedUsers := by
      simp [ofItems, hbatch, hc, Blacklist.filter, hunknown, bind, Except.bind]
    exact ⟨_, hfailed⟩

namespace SearchPlan

variable {plan : SearchPlan World} {c : Client} {tags : String} {w : World}
  {front back : List (List Json)}
  {entries : List Json}

theorem run_of_ok (hlimit : plan.maxPages = 0) (hquiet : plan.journal.Quiet (·.session))
    {r : SearchResult} {t : World}
    (h : plan.pagesFrom c.board tags plan.budget 1 {} w = (.ok r, t)) :
    ∃ u, plan.run c.board tags w = (.ok r, u) ∧ u.session = t.session := by
  obtain ⟨u, htell, hsession⟩ := hquiet .info "search_completed" (completedEvent tags r) t
  refine ⟨u, ?_, hsession⟩
  rw [run_eq, if_neg (by omega), if_pos hlimit, bind_apply, h]
  simp only [bind_apply, htell]
  rfl

theorem run_of_error (hlimit : plan.maxPages = 0) {f : Failure} {t : World}
    (h : plan.pagesFrom c.board tags plan.budget 1 {} w = (.error f, t)) :
    plan.run c.board tags w = (.error f, t) := by
  rw [run_eq, if_neg (by omega), if_pos hlimit, bind_apply, h]

def Ends (plan : SearchPlan World) (c : Client) (tags : String) (w : World) (pages : Nat)
    (result : Except Failure SearchResult) : Prop :=
  ∃ t, plan.run c.board tags w = (result, t) ∧ t.session.requests = w.session.requests ++
    (List.range' 1 pages).map (c.pageRequest tags plan.postsPerPage)

theorem Ends.unique {n m : Nat} {result result' : Except Failure SearchResult}
    (h : plan.Ends c tags w n result)
    (h' : plan.Ends c tags w m result') : n = m ∧ result = result' := by
  obtain ⟨t, hrun, hrequests⟩ := h
  obtain ⟨u, hrun', hrequests'⟩ := h'
  obtain ⟨rfl, rfl⟩ := Prod.mk.inj (hrun.symm.trans hrun')
  have hlength := congrArg List.length (hrequests.symm.trans hrequests')
  exact ⟨by simpa using hlength, rfl⟩

section Walk

variable (hlists : w.Lists (front ++ entries :: back))
  (hsize : 1 ≤ plan.postsPerPage ∧ plan.postsPerPage ≤ Client.maxPageSize)
    (hquiet : plan.journal.Quiet (·.session))
  (htakes : ∀ entries ∈ front, plan.Takes entries)
include hlists hsize hquiet htakes

theorem pagesFrom_front (c : Client) (tags : String) (left : Nat) : ∃ t u,
    plan.pagesFrom c.board tags (left + front.length) 1 {} w =
        plan.pagesFrom c.board tags left (1 + front.length)
          (.ofPages plan.blacklist (front.map Json.objects)) t ∧
      c.board.searchPosts tags (1 + front.length) plan.postsPerPage t =
        (.ok (Json.objects entries), u) ∧
      c.Turned tags plan.postsPerPage (front ++ entries :: back) w (front.length + 1) u := by
  have hsearch (n : Nat) (items : List Json) (hn : (front.map Json.objects)[n]? =
      some items) (t : World)
      (ht : c.Turned tags plan.postsPerPage (front ++ entries :: back) w n t) : ∃ u,
      c.board.searchPosts tags (1 + n) plan.postsPerPage t = (.ok items, u) ∧
        c.Turned tags plan.postsPerPage (front ++ entries :: back) w (n + 1) u := by
    rw [List.getElem?_map, Option.map_eq_some_iff] at hn
    obtain ⟨page, hpage, rfl⟩ := hn
    have hin := (List.getElem?_eq_some_iff.mp hpage).1
    exact ht.next hsize (by rwa [List.getElem?_append_left hin])
  have htell (n : Nat) (level : Level) (event : String) (fields : Json.Members) (t : World)
      (ht : c.Turned tags plan.postsPerPage (front ++ entries :: back) w n t) : ∃ u,
      plan.journal.tell level event fields t = (.ok (), u) ∧
        c.Turned tags plan.postsPerPage (front ++ entries :: back) w n u := by
    obtain ⟨u, htell, hsession⟩ := hquiet level event fields t
    exact ⟨u, htell, ht.of_session hsession⟩
  have hpages (items : List Json) (hitems : items ∈ front.map Json.objects) : items ≠ [] ∧
      SearchResult.ofItems plan.blacklist items = .ok (.ofPages plan.blacklist [items]) := by
    obtain ⟨page, hpage, rfl⟩ := List.mem_map.mp hitems
    have htaken := htakes page hpage
    exact ⟨htaken.full, SearchResult.ofItems_eq htaken.readable htaken.resolved⟩
  have hstart : c.Turned tags plan.postsPerPage (front ++ entries :: back) w 0 w :=
    ⟨hlists, (List.append_nil _).symm⟩
  obtain ⟨t, hwalk, ht⟩ := pagesFrom_walk hsearch htell hpages left {} hstart
  rw [List.length_map, SearchResult.empty_append] at hwalk
  rw [List.length_map] at ht
  have hbehind : (front ++ entries :: back)[front.length]? = some entries := by simp
  obtain ⟨u, hnext, hu⟩ := ht.next hsize hbehind
  exact ⟨t, u, hwalk, hnext, hu⟩

variable (hlimit : plan.maxPages = 0) (hbudget : front.length < plan.budget)
include hlimit hbudget

theorem ends_hollow (c : Client) (tags : String) (hhollow : Json.objects entries = []) :
    plan.Ends c tags w (front.length + 1)
      (.ok (.ofPages plan.blacklist (front.map Json.objects))) := by
  obtain ⟨spare, hspare⟩ : ∃ spare, plan.budget = spare + 1 + front.length :=
    ⟨plan.budget - 1 - front.length, by omega⟩
  obtain ⟨t, u, hwalk, hnext, hu⟩ := pagesFrom_front hlists hsize hquiet htakes c tags (spare + 1)
  rw [pagesFrom, bind_apply, hnext, hhollow, ← hspare] at hwalk
  obtain ⟨v, hrun, hsession⟩ := run_of_ok hlimit hquiet hwalk
  exact ⟨v, hrun, hsession ▸ hu.requests⟩

theorem ends_refused (c : Client) (tags : String) {f : Failure} (hfull : Json.objects entries ≠ [])
    (hrefused : SearchResult.ofItems plan.blacklist (Json.objects entries) = .error f) :
    plan.Ends c tags w (front.length + 1) (.error f) := by
  obtain ⟨spare, hspare⟩ : ∃ spare, plan.budget = spare + 1 + front.length :=
    ⟨plan.budget - 1 - front.length, by omega⟩
  obtain ⟨t, u, hwalk, hnext, hu⟩ := pagesFrom_front hlists hsize hquiet htakes c tags (spare + 1)
  rw [pagesFrom, bind_apply, hnext, ← hspare] at hwalk
  simp only [hfull, List.isEmpty_iff, if_false, bind_apply, hrefused, Run.lift] at hwalk
  exact ⟨u, run_of_error hlimit hwalk, hu.requests⟩

end Walk

theorem stops_behind {full : List (List Json)} (hlists : w.Lists (full ++ [[]]))
    (hlimit : plan.maxPages = 0) (hbudget : full.length < plan.budget)
    (hsize : 1 ≤ plan.postsPerPage ∧ plan.postsPerPage ≤ Client.maxPageSize)
    (hquiet : plan.journal.Quiet (·.session)) (c : Client) (tags : String)
    (hsplit : full = front ++ entries :: back) (htakes : ∀ page ∈ front, plan.Takes page) :
    (Json.objects entries = [] →
      plan.Ends c tags w (front.length + 1)
        (.ok (.ofPages plan.blacklist (front.map Json.objects)))) ∧
    (Json.objects entries ≠ [] → ∀ f,
      SearchResult.ofItems plan.blacklist (Json.objects entries) = .error f →
      plan.Ends c tags w (front.length + 1) (.error f)) := by
  rw [hsplit, List.append_assoc, List.cons_append] at hlists
  rw [hsplit, List.length_append] at hbudget
  exact ⟨ends_hollow hlists hsize hquiet htakes hlimit (by omega) c tags, fun hfull f =>
    ends_refused hlists hsize hquiet htakes hlimit (by omega) c tags hfull⟩

theorem exists_first_not {α : Type} {P : α → Prop} {xs : List α} (h : ¬ ∀ x ∈ xs, P x) :
    ∃ front x back, xs = front ++ x :: back ∧ (∀ y ∈ front, P y) ∧ ¬ P x := by
  induction xs with
  | nil => exact absurd (List.forall_mem_nil P) h
  | cons x xs ih =>
    by_cases hx : P x
    · obtain ⟨front, y, back, rfl, hfront, hy⟩ := ih fun hxs =>
        h (List.forall_mem_cons.mpr ⟨hx, hxs⟩)
      exact ⟨x :: front, y, back, rfl, List.forall_mem_cons.mpr ⟨hx, hfront⟩, hy⟩
    · exact ⟨[], x, xs, rfl, List.forall_mem_nil P, hx⟩

/-- A server gives pages and then an empty one. A search without a limit asks for all of them, and
accounts for all objects on them, exactly when it takes in each page. The first page that it does
not take in is the last one that it asks for: where there is no object on that page the search ends
as if there were no more pages, and otherwise it fails for a number that cannot be read or for a
user of the blacklist who is not resolved. -/
theorem search_exhausts_unless_hollow_page (c : Client) (plan : SearchPlan World)
    (tags : String) (w : World) (full : List (List Json)) (hlists : w.Lists (full ++ [[]]))
    (hlimit : plan.maxPages = 0) (hbudget : full.length < plan.budget)
    (hsize : 1 ≤ plan.postsPerPage ∧ plan.postsPerPage ≤ Client.maxPageSize)
    (hquiet : plan.journal.Quiet (·.session)) :
    ((∃ r, plan.Ends c tags w (full.length + 1) (.ok r) ∧
        r.posts.length + r.blacklisted + r.invalid + r.skipped =
          (full.flatMap Json.objects).length) ↔
      ∀ entries ∈ full, plan.Takes entries) ∧
    ∀ front entries back, full = front ++ entries :: back → (∀ page ∈ front, plan.Takes page) →
      (Json.objects entries = [] →
        plan.Ends c tags w (front.length + 1)
          (.ok (.ofPages plan.blacklist (front.map Json.objects)))) ∧
      (Json.objects entries ≠ [] → ∀ f,
        SearchResult.ofItems plan.blacklist (Json.objects entries) = .error f →
        plan.Ends c tags w (front.length + 1) (.error f)) := by
  have hstops (front : List (List Json)) (entries : List Json) (back : List (List Json))
      (hsplit : full = front ++ entries :: back) (htakes : ∀ page ∈ front, plan.Takes page) :=
    stops_behind hlists hlimit hbudget hsize hquiet c tags hsplit htakes
  refine ⟨⟨?_, fun htakes => ?_⟩, hstops⟩
  · rintro ⟨r, hends, -⟩
    by_contra hnone
    obtain ⟨front, entries, back, rfl, hfront, hentries⟩ := exists_first_not hnone
    obtain ⟨hhollow, hrefused⟩ := hstops front entries back rfl hfront
    by_cases hempty : Json.objects entries = []
    · have hpages := (hends.unique (hhollow hempty)).1
      simp at hpages
    · obtain ⟨f, hf⟩ := SearchResult.exists_error fun h => hentries ⟨hempty, h.1, h.2⟩
      cases (hends.unique (hrefused hempty f hf)).2
  · refine ⟨_, ends_hollow hlists hsize hquiet htakes hlimit hbudget c tags rfl, ?_⟩
    rw [SearchResult.length_ofPages, List.flatMap_def]

def pageOf (posts : String) : Answer :=
  { body := [.ok ("\x7b\"posts\":[" ++ posts ++ "]\x7d").toUTF8] }

def postText : String := "\x7b\"id\":1,\"file\":\x7b\"url\":\"u\"\x7d\x7d"

def hollowFirst : World where
  session := { script := .ofList ([pageOf "1", pageOf postText, pageOf ""].map .ok) }
  now := ⟨0⟩
  draw := 0

def untilEmpty : SearchPlan World := { maxPages := 0, budget := 3 }

/-- The post on the second page is not found, as there is no object on the first one. -/
theorem search_ends_on_hollowFirst : ∃ first second, hollowFirst.Lists [first, second, []] ∧
    first ≠ [] ∧ Json.objects first = [] ∧ Json.objects second ≠ [] ∧
      untilEmpty.Ends Client.visitor "t" hollowFirst 1 (.ok {}) := by
  obtain ⟨first, hfirst, hhollow⟩ := (Option.any_eq_true _ _).mp
    (by decide +kernel : (pageOf "1").entries?.any fun entries =>
      decide (entries ≠ [] ∧ Json.objects entries = []))
  obtain ⟨second, hsecond, hfull⟩ := (Option.any_eq_true _ _).mp
    (by decide +kernel : (pageOf postText).entries?.any fun entries =>
      decide (Json.objects entries ≠ []))
  obtain ⟨third, hthird, hempty⟩ := (Option.any_eq_true _ _).mp
    (by decide +kernel : (pageOf "").entries?.any fun entries => decide (entries = []))
  rw [decide_eq_true_iff] at hhollow hfull hempty
  subst hempty
  have hlists : hollowFirst.Lists [first, second, []] :=
    ⟨[pageOf "1", pageOf postText, pageOf ""], [], Script.exhausted, by
      simp [hollowFirst, Script.ofList],
        .cons ⟨rfl, hfirst⟩ (.cons ⟨rfl, hsecond⟩ (.cons ⟨rfl, hthird⟩ .nil))⟩
  have hends :=
    ((search_exhausts_unless_hollow_page Client.visitor untilEmpty "t" hollowFirst [first, second]
    hlists rfl (by simp [untilEmpty]) (by decide) (Journal.quiet_silent _)).2 [] first [second] rfl
      (List.forall_mem_nil _)).1 hhollow.2
  exact ⟨first, second, hlists, hhollow.1, hhollow.2, hfull, hends⟩

end SearchPlan

end Booru
