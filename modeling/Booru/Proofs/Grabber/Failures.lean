import Booru.Download
import Booru.Proofs.Grabber.Keeping
import Booru.Proofs.Search.Alike

/-! What gathering and saving fail with. Both keep what the board, the journal and the
files keep, and fail with what these fail with. The few failures of their own are those of
posts that cannot be used. -/

namespace Booru

open Run

variable {σ α : Type} {P : σ → Prop} {F : Failure → Prop}

namespace Post

theorem url_error {p : Post} {f : Failure} (h : p.url = .error f) :
    f = .argument (.noFileUrl p.id) := by
  unfold url at h
  split at h
  · cases h
  · cases h
    rfl

theorem grabbed_error {p : Post} {naming : Naming} {f : Failure} (h : p.grabbed naming = .error f) :
    f = .argument (.noFileUrl p.id) := by
  unfold grabbed at h
  cases hurl : p.url with
  | ok url => simp [hurl, Except.map] at h
  | error g =>
    rw [hurl] at h
    cases h
    exact url_error hurl

theorem grabbedPages_error {pool : String} {page : Nat} {posts : List Post} {f : Failure}
    (h : grabbedPages pool page posts = .error f) : ∃ id, f = .argument (.noFileUrl id) := by
  induction posts generalizing page with
  | nil => cases h
  | cons p rest ih =>
    simp only [grabbedPages, bind, Except.bind, pure, Except.pure] at h
    cases hurl : p.url with
    | error g =>
      rw [hurl] at h
      cases h
      exact ⟨p.id, url_error hurl⟩
    | ok url =>
      cases hrest : grabbedPages pool (page + 1) rest with
      | error g =>
        simp only [hurl, hrest] at h
        cases h
        exact ih hrest
      | ok others => simp [hurl, hrest] at h

end Post

namespace Gathering

theorem upholds_outside {x : Run σ α} {Q : α → Prop} (h : Upholds P x Q F) :
    Upholds (fun s : σ × Haul => P s.1) (outside x) Q F := by
  refine ⟨fun s hs => ?_⟩
  have hend := h.ensures s.1 hs
  simp only [outside]
  rcases hx : x s.1 with ⟨_ | _, _⟩ <;> rw [hx] at hend <;> exact hend

theorem upholds_change (f : Haul → Haul) :
    Upholds (fun s : σ × Haul => P s.1) (change f) (fun _ => True) F := .modify fun _ hs => hs

end Gathering

namespace Grabber

open Gathering

structure Within (P : σ → Prop) (F : Failure → Prop) (g : Grabber σ) : Prop where
  search : ∀ tags, Upholds P (g.search.run g.board tags) (fun _ => True) F
  exhaustive : ∀ tags,
    Upholds P ({ g.search with maxPages := 0 }.run g.board tags) (fun _ => True) F
  fetchPost : ∀ post, Upholds P (g.board.fetchPost post) (fun _ => True) F
  fetchPool : ∀ pool, Upholds P (g.board.fetchPool pool) (fun _ => True) F
  fetchSet : ∀ set, Upholds P (g.board.fetchSet set) (fun _ => True) F
  tell : ∀ level event fields, Upholds P (g.journal.tell level event fields) (fun _ => True) F
  resolved : ∀ b, g.blacklist = some b → b.isResolved = true
  noFileUrl : ∀ id, F (.argument (.noFileUrl id))
  noUsablePost : ∀ post, F (.api (.noUsablePost post))
  integer : ∀ e, F (.integer e)

namespace Within

variable {g : Grabber σ} (h : g.Within P F)
include h

theorem postsOf (tags : String) (exhaustive : Bool) :
    Upholds (fun s => P s.1) (g.postsOf tags exhaustive) (fun _ => True) F := by
  unfold Grabber.postsOf
  refine .bind (Q := fun _ => True) (upholds_outside ?_) fun r _ =>
    (upholds_change _).bind fun _ _ => .pure trivial
  cases exhaustive
  · exact h.search tags
  · exact h.exhaustive tags

theorem add (c : Collection) : Upholds (fun s => P s.1) (g.add c) (fun _ => True) F :=
  (upholds_change _).bind fun _ _ => (upholds_outside (h.tell _ _ _)).bind fun _ _ => .pure trivial

theorem grabSearch (tags name category : String) (exhaustive : Bool) :
    Upholds (fun s => P s.1) (g.grabSearch tags name category exhaustive) (fun _ => True) F := by
  refine (h.postsOf tags exhaustive).bind fun posts _ =>
    .bind (Q := fun _ => True) ?_ fun _ _ => h.add _
  refine .lift (fun _ _ => trivial) fun f hf => ?_
  obtain ⟨p, -, hp⟩ := exists_of_mapM_error hf
  exact Post.grabbed_error hp ▸ h.noFileUrl p.id

theorem grabPool (id : Int) : Upholds (fun s => P s.1) (g.grabPool id) (fun _ => True) F := by
  refine (upholds_outside (h.fetchPool _)).bind fun entry _ =>
    (h.postsOf _ _).bind fun posts _ => ?_
  refine .bind (Q := fun _ => True) (.lift (fun _ _ => trivial) fun f hf => ?_) fun _ _ => h.add _
  obtain ⟨id, rfl⟩ := Post.grabbedPages_error hf
  exact h.noFileUrl id

theorem grabSet (id : Int) : Upholds (fun s => P s.1) (g.grabSet id) (fun _ => True) F :=
  (upholds_outside (h.fetchSet _)).bind fun _ _ => h.grabSearch _ _ _ _

theorem exists_skip (p : Post) : ∃ reason, g.skip? p = .ok reason := by
  cases hskip : g.skip? p with
  | ok reason => exact ⟨reason, rfl⟩
  | error f =>
    exfalso
    unfold skip? at hskip
    split at hskip
    · cases hskip
    cases hb : g.blacklist with
    | none => simp [hb, bind, Except.bind, pure, Except.pure] at hskip
    | some b =>
      have hresolved : b.hasUnresolvedUsers = false := by
        simpa [Blacklist.isResolved] using h.resolved b hb
      simp [hb, Blacklist.filter, hresolved, Except.map, bind, Except.bind, pure, Except.pure]
        at hskip

theorem grabPost (id : Int) : Upholds (fun s => P s.1) (g.grabPost id) (fun _ => True) F := by
  unfold Grabber.grabPost
  refine (upholds_outside (h.fetchPost _)).bind fun item _ =>
    .bind (Q := fun _ => True) ?_ fun post? _ => ?_
  · refine .lift (fun _ _ => trivial) fun f hf => ?_
    cases hitem : Post.ofItem? item with
    | ok found => simp [hitem] at hf
    | error e =>
      simp only [hitem, mapError_error, Except.error.injEq] at hf
      exact hf ▸ h.integer e
  cases post? with
  | none => exact .throw (h.noUsablePost _)
  | some post =>
    obtain ⟨reason, hreason⟩ := h.exists_skip post
    dsimp only
    rw [hreason]
    refine .bind (Q := fun _ => True) (.lift (fun _ _ => trivial) fun _ hf => by cases hf)
      fun reason _ => ?_
    cases reason with
    | some reason =>
      exact (upholds_change _).bind fun _ _ => (upholds_outside (h.tell _ _ _)).bind
        fun _ _ => .pure trivial
    | none =>
      refine .bind (Q := fun _ => True) (.lift (fun _ _ => trivial) fun f hf => ?_) fun q _ => ?_
      · exact Post.grabbed_error hf ▸ h.noFileUrl post.id
      · exact (upholds_change _).bind fun _ _ => (upholds_outside (h.tell _ _ _)).bind
          fun _ _ => .pure trivial

theorem grabAll (d : Settings.Download) (username : String) :
    Upholds (fun s => P s.1) (g.grabAll d username) (fun _ => True) F := by
  rw [grabAll_eq]
  refine .bind (Q := fun _ => True) ?_ fun _ _ => ?_
  · split
    · exact .discard (h.grabSearch _ _ _ _)
    · exact .pure trivial
  refine .bind (.forM _ fun artist => .discard (h.grabSearch _ _ _ _)) fun _ _ => ?_
  refine .bind (.forM _ fun tags => .discard (h.grabSearch _ _ _ _)) fun _ _ => ?_
  refine .bind (.forM _ fun id => .discard (h.grabPool id)) fun _ _ => ?_
  refine .bind (.forM _ fun id => .discard (h.grabSet id)) fun _ _ => ?_
  refine .bind (.forM _ fun id => .discard (h.grabPost id)) fun _ _ => ?_
  exact ⟨fun s hs => ⟨hs, trivial⟩⟩

end Within

end Grabber

theorem Gathering.upholds_start {x : Gathering σ α} {Q : α → Prop}
    (h : Upholds (fun s => P s.1) x Q F) :
    Upholds P (start x) (fun _ => True) F := by
  refine ⟨fun s hs => ?_⟩
  have hend := h.ensures (s, {}) hs
  simp only [start]
  rcases hx : x (s, {}) with ⟨f | a, t⟩ <;> rw [hx] at hend
  · exact hend
  · exact ⟨hend.1, trivial⟩

namespace FileFetcher

variable {fetcher : FileFetcher σ} {journal : Journal σ}

theorem upholds_save {url : String} {target : Path}
    (hlook : Upholds P (fetcher.exists? target) (fun _ => True) F)
    (hfetch : Upholds P (fetcher.fetch url target) (fun _ => True) F) :
    Upholds P (fetcher.save url target) (fun _ => True) F := by
  refine hlook.bind fun there _ => ?_
  split
  · exact .pure trivial
  · refine .tryCatch (hfetch.bind fun _ _ => .pure trivial) fun f hf => ?_
    split
    · exact .pure trivial
    · exact .throw hf

structure Within (P : σ → Prop) (F : Failure → Prop) (Target : Path → Prop)
    (fetcher : FileFetcher σ)
    (journal : Journal σ) : Prop where
  save : ∀ url p, Target p → Upholds P (fetcher.save url p) (fun _ => True) F
  tell : ∀ level event fields, Upholds P (journal.tell level event fields) (fun _ => True) F

variable {Target : Path → Prop}

theorem Within.inside (h : fetcher.Within P F Target journal) (context : Json.Members) :
    fetcher.Within P F Target (journal.within context) :=
  ⟨h.save, fun _ _ _ => Journal.tell_within journal context _ _ _ ▸ h.tell _ _ _⟩

theorem Within.savePosts (h : fetcher.Within P F Target journal) {directory : Path}
    {ps : List GrabbedPost} (hps : ∀ p ∈ ps, Target (directory.child (cleanComponent p.name)))
    (report : DownloadReport) :
    Upholds P (fetcher.savePosts journal directory ps report) (fun _ => True) F := by
  induction ps generalizing report with
  | nil => exact .pure trivial
  | cons p rest ih =>
    obtain ⟨hp, hrest⟩ := List.forall_mem_cons.mp hps
    refine (h.save p.url _ hp).bind fun saving _ => .bind (Q := fun _ => True) ?_
      fun _ _ => ih hrest _
    cases saving <;> exact h.tell _ _ _

theorem Within.download (h : fetcher.Within P F Target journal) {root : Path} {cs : List Collection}
    (hcs : ∀ c ∈ cs, ∀ p ∈ c.posts, Target ((c.directory root).child (cleanComponent p.name))) :
    Upholds P (fetcher.download journal root cs) (fun _ => True) F := by
  have hcollection {c : Collection} (hc : ∀ p ∈ c.posts,
      Target ((c.directory root).child (cleanComponent p.name)))
      (report : DownloadReport) :
      Upholds P (fetcher.saveCollection journal root c report) (fun _ => True) F := by
    unfold saveCollection
    split
    · exact .pure trivial
    · exact ((h.inside _).tell _ _ _).bind fun _ _ => (h.inside _).savePosts hc _
  have hcollections (report : DownloadReport) :
      Upholds P (cs.foldlM (fun report c => fetcher.saveCollection journal root c report) report)
        (fun _ => True) F := by
    induction cs generalizing report with
    | nil => exact .pure trivial
    | cons c cs ih =>
      obtain ⟨hc, hrest⟩ := List.forall_mem_cons.mp hcs
      rw [List.foldlM_cons]
      exact (hcollection hc report).bind fun report _ => ih hrest report
  exact (hcollections {}).bind fun _ _ => (h.tell _ _ _).bind fun _ _ => .pure trivial

end FileFetcher
end Booru
