import Booru.Download
import Booru.Proofs.Collection.Targets

/-! What a download leaves under the paths that it saves to. Where all of them are free at the start
and none is a directory for another, each holds in the end what some address for it holds, provided
that no download failed. -/

namespace Booru

open Run

variable {σ : Type}

/-- A fetcher that stores what `bytes` says an address holds. `entry` is what a state has under a
path. Besides the file a fetch makes at most directories above it. -/
structure FileFetcher.Stores (fetcher : FileFetcher σ) (bytes : String → ByteArray)
    (entry : σ → Path → Option Entry) : Prop where
  asked : ∀ (p : Path) (s t : σ) (b : Bool), fetcher.exists? p s = (.ok b, t) →
    b = (entry s p).isSome ∧ entry t = entry s
  fetched : ∀ (url : String) (p : Path) (s t : σ) (n : Int), fetcher.fetch url p s = (.ok n, t) →
    entry t p = some (.file (bytes url)) ∧ ∀ q, q ≠ p → ¬ q.Above p → entry t q = entry s q

def Journal.Apart (entry : σ → Path → Option Entry) (journal : Journal σ) : Prop :=
  ∀ write, journal = some write →
    ∀ (level : Level) (event : String) (fields : Json.Members) (s : σ),
    entry (write level event fields s).2 = entry s

namespace FileFetcher

abbrev Job := Path × String

def job (root : Path) (c : Collection) (q : GrabbedPost) : Job := (c.target root q, q.url)

def jobs (root : Path) (cs : List Collection) : List Job := cs.flatMap fun c =>
    c.posts.map (job root c)

/-- Under the paths of the jobs done there is what one of them fetched; the paths
of the others are free. -/
structure Shelved (bytes : String → ByteArray) (entry : σ → Path → Option Entry)
    (all done : List Job)
    (s : σ) : Prop where
  filled : ∀ e ∈ done, ∃ d ∈ done, d.1 = e.1 ∧ entry s e.1 = some (.file (bytes d.2))
  free : ∀ e ∈ all, (∀ d ∈ done, d.1 ≠ e.1) → entry s e.1 = none

section Shelved

variable {bytes : String → ByteArray} {entry : σ → Path → Option Entry} {all done : List Job}
  {target : Path} {url : String} {s t : σ}

theorem Shelved.congr (heq : entry t = entry s) (h : Shelved bytes entry all done s) :
    Shelved bytes entry all done t :=
  ⟨heq ▸ h.filled, heq ▸ h.free⟩

theorem Shelved.existing (h : Shelved bytes entry all done s) (hjob : (target, url) ∈ all)
    (htaken : (entry s target).isSome) : Shelved bytes entry all (done ++ [(target, url)]) s := by
  obtain ⟨d, hd, htarget⟩ : ∃ d ∈ done, d.1 = target := by
    by_contra hnone
    have hfree := h.free (target, url) hjob fun d hd heq => hnone ⟨d, hd, heq⟩
    simp [hfree] at htaken
  constructor
  · refine List.forall_mem_append.mpr ⟨fun e he => ?_, List.forall_mem_singleton.mpr ?_⟩
    · obtain ⟨d, hd, hentry⟩ := h.filled e he
      exact ⟨d, List.mem_append_left _ hd, hentry⟩
    · obtain ⟨d', hd', hentry⟩ := h.filled d hd
      rw [htarget] at hentry
      exact ⟨d', List.mem_append_left _ hd', hentry⟩
  · exact fun e he hnew => h.free e he fun d hd => hnew d (List.mem_append_left _ hd)

theorem Shelved.saved (h : Shelved bytes entry all done s) (hdone : done ⊆ all)
    (hjob : (target, url) ∈ all) (hflat : ∀ e ∈ all, ∀ d ∈ all, ¬ e.1.Above d.1)
    (hfree : entry s target = none) (hnew : entry t target = some (.file (bytes url)))
    (hold : ∀ q, q ≠ target → ¬ q.Above target → entry t q = entry s q) :
    Shelved bytes entry all (done ++ [(target, url)]) t := by
  constructor
  · refine List.forall_mem_append.mpr ⟨fun e he => ?_, by simpa using .inr hnew⟩
    obtain ⟨d, hd, hsame, hentry⟩ := h.filled e he
    have hne : e.1 ≠ target := by
      intro heq
      simp [heq, hfree] at hentry
    exact ⟨d, List.mem_append_left _ hd, hsame,
      (hold e.1 hne (hflat e (hdone he) _ hjob)).trans hentry⟩
  · intro e he hother
    have hne : target ≠ e.1 := hother (target, url) (by simp)
    rw [hold e.1 hne.symm (hflat e he _ hjob)]
    exact h.free e he fun d hd => hother d (List.mem_append_left _ hd)

end Shelved

section Download

variable {fetcher : FileFetcher σ} {bytes : String → ByteArray} {entry : σ → Path → Option Entry}
  {journal : Journal σ} {all done : List Job}

def Progress (bytes : String → ByteArray) (entry : σ → Path → Option Entry) (all done : List Job)
    (report : DownloadReport) (s : σ) : Prop :=
  report.failed = 0 → Shelved bytes entry all done s

theorem failed_count (report : DownloadReport) (p : GrabbedPost) (saving : Saving) :
    (report.count p saving).failed = 0 → report.failed = 0 ∧ ∀ f, saving ≠ .failed f := by
  cases saving with
  | existing => exact fun h => ⟨h, nofun⟩
  | saved bytes => exact fun h => ⟨h, nofun⟩
  | failed f => exact fun h => absurd h (Nat.succ_ne_zero _)

theorem ensures_save (hstores : fetcher.Stores bytes entry) {target : Path} {url : String}
    (hdone : done ⊆ all) (hjob : (target, url) ∈ all)
    (hflat : ∀ e ∈ all, ∀ d ∈ all, ¬ e.1.Above d.1) :
    Ensures (Shelved bytes entry all done) (fetcher.save url target)
      (fun saving s => (∀ f, saving ≠ .failed f) →
        Shelved bytes entry all (done ++ [(target, url)]) s)
      fun _ _ => True := by
  refine .bind (Q := fun b s => Shelved bytes entry all done s ∧ b = (entry s target).isSome) ?_
    fun b => ?_
  · refine .of_ok fun s b t hs hr => ?_
    obtain ⟨hb, heq⟩ := hstores.asked target s t b hr
    exact ⟨hs.congr heq, by rw [hb, heq]⟩
  · cases b with
    | true => exact .pure fun s hs _ => hs.1.existing hjob hs.2.symm
    | false =>
      have hfetch : Ensures (fun s => Shelved bytes entry all done s ∧
          false = (entry s target).isSome)
          (fetcher.fetch url target)
          (fun _ s => Shelved bytes entry all (done ++ [(target, url)]) s) fun _ _ => True := by
        refine .of_ok fun s n t hs hr => ?_
        obtain ⟨hnew, hold⟩ := hstores.fetched url target s t n hr
        exact hs.1.saved hdone hjob hflat (by simpa using hs.2.symm) hnew hold
      refine .tryCatch (hfetch.bind fun n => .pure fun s hs _ => hs) fun f => ?_
      split
      · exact .pure fun s _ hsaving => absurd rfl (hsaving f)
      · exact .throw fun s _ => trivial

theorem ensures_tell (hjournal : journal.Apart entry) (report : DownloadReport) (level : Level)
    (event : String) (fields : Json.Members) :
    Ensures (Progress bytes entry all done report) (journal.tell level event fields)
      (fun _ => Progress bytes entry all done report) fun _ _ => True := by
  cases journal with
  | none => exact .pure fun s hs => hs
  | some write =>
    refine .of_ok fun s _ t hs hr hfailed => (hs hfailed).congr ?_
    have hentry := hjournal write rfl level event fields s
    rwa [show write level event fields s = _ from hr] at hentry

theorem apart_within (hjournal : journal.Apart entry) (context : Json.Members) :
    (journal.within context).Apart entry := by
  cases journal with
  | none => exact nofun
  | some write =>
    rintro _ ⟨⟩ level event fields s
    exact hjournal write rfl level event _ s

theorem ensures_tellSaving (hjournal : journal.Apart entry)
    (report : DownloadReport) (p : GrabbedPost) (target : Path) (saving : Saving) :
    Ensures (Progress bytes entry all done report) (tellSaving journal p target saving)
      (fun _ => Progress bytes entry all done report) fun _ _ => True := by
  cases saving <;> exact ensures_tell hjournal report _ _ _

theorem ensures_savePosts (hstores : fetcher.Stores bytes entry) (hjournal : journal.Apart entry)
    (hflat : ∀ e ∈ all, ∀ d ∈ all, ¬ e.1.Above d.1) (root : Path) (c : Collection)
    (ps : List GrabbedPost) (hps : ps.map (job root c) ⊆ all) (hdone : done ⊆ all)
    (report : DownloadReport) :
    Ensures (Progress bytes entry all done report)
      (fetcher.savePosts journal (c.directory root) ps report)
      (fun r => Progress bytes entry all (done ++ ps.map (job root c)) r) fun _ _ => True := by
  induction ps generalizing done report with
  | nil => exact .pure fun s hs => by simpa using hs
  | cons p ps ih =>
    obtain ⟨hjob, hrest⟩ := List.cons_subset.mp hps
    refine .bind (Q := fun saving => Progress bytes entry all (done ++ [job root c p])
      (report.count p saving))
      ?_ fun saving => (ensures_tellSaving hjournal _ p _ saving).bind fun _ => ?_
    · refine .of_ok fun s saving t hs hr hfailed => ?_
      obtain ⟨hbefore, hsaving⟩ := failed_count report p saving hfailed
      exact (ensures_save hstores hdone hjob hflat).ok (hs hbefore) hr hsaving
    · have hmore : done ++ [job root c p] ⊆ all :=
        List.append_subset.mpr ⟨hdone, List.cons_subset.mpr ⟨hjob, List.nil_subset all⟩⟩
      have hnext := ih hrest hmore (report.count p saving)
      rwa [List.append_assoc] at hnext

theorem ensures_saveCollection (hstores : fetcher.Stores bytes entry)
    (hjournal : journal.Apart entry) (hflat : ∀ e ∈ all, ∀ d ∈ all, ¬ e.1.Above d.1) (root : Path)
    (c : Collection) (hc : c.posts.map (job root c) ⊆ all) (hdone : done ⊆ all)
    (report : DownloadReport) :
    Ensures (Progress bytes entry all done report) (fetcher.saveCollection journal root c report)
      (fun r => Progress bytes entry all (done ++ c.posts.map (job root c)) r) fun _ _ => True := by
  unfold saveCollection
  split
  · rename_i hnone
    rw [List.isEmpty_iff.mp hnone]
    exact .pure fun s hs => by simpa using hs
  · refine (ensures_tell (apart_within hjournal _) report _ _ _).bind fun _ => ?_
    exact ensures_savePosts hstores (apart_within hjournal _) hflat root c c.posts hc hdone
      { report with collections := report.collections + 1 }

theorem ensures_collections (hstores : fetcher.Stores bytes entry) (hjournal : journal.Apart entry)
    (hflat : ∀ e ∈ all, ∀ d ∈ all, ¬ e.1.Above d.1) (root : Path) (cs : List Collection)
    (hcs : jobs root cs ⊆ all) (hdone : done ⊆ all) (report : DownloadReport) :
    Ensures (Progress bytes entry all done report)
      (cs.foldlM (fun report c => fetcher.saveCollection journal root c report) report)
      (fun r => Progress bytes entry all (done ++ jobs root cs) r) fun _ _ => True := by
  induction cs generalizing done report with
  | nil => exact .pure fun s hs => by simpa [jobs] using hs
  | cons c cs ih =>
    obtain ⟨hc, hrest⟩ := List.append_subset.mp hcs
    rw [List.foldlM_cons]
    refine (ensures_saveCollection hstores hjournal hflat root c hc hdone report).bind fun r => ?_
    have hnext := ih hrest (List.append_subset.mpr ⟨hdone, hc⟩) r
    rwa [List.append_assoc] at hnext

theorem ensures_download (hstores : fetcher.Stores bytes entry) (hjournal : journal.Apart entry)
    {root : Path} {cs : List Collection}
    (hflat : ∀ e ∈ jobs root cs, ∀ d ∈ jobs root cs, ¬ e.1.Above d.1) :
    Ensures (fun s => ∀ e ∈ jobs root cs, entry s e.1 = none) (fetcher.download journal root cs)
      (fun r => Progress bytes entry (jobs root cs) (jobs root cs) r) fun _ _ => True := by
  have hall : Ensures (Progress bytes entry (jobs root cs) [] {}) _
      (fun r => Progress bytes entry (jobs root cs) ([] ++ jobs root cs) r) fun _ _ => True :=
    ensures_collections hstores hjournal hflat root cs (List.Subset.refl _) (List.nil_subset _) {}
  have hstart (s : σ) (hs : ∀ e ∈ jobs root cs, entry s e.1 = none) :
      Progress bytes entry (jobs root cs) [] {} s :=
    fun _ => ⟨List.forall_mem_nil _, fun e he _ => hs e he⟩
  refine .bind (hall.weaken hstart fun _ _ hs => hs) fun r => ?_
  exact (ensures_tell hjournal r _ _ _).bind fun _ => .pure fun s hs => hs

end Download

end FileFetcher
end Booru
