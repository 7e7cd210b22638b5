import Booru.Proofs.Download.Storing
import Booru.Proofs.Search.Alike

/-! Downloads with a record of what their fetcher is asked. The record changes nothing about a
download, and nothing is asked but the targets of posts. -/

namespace Booru

open Run

variable {σ τ ρ α : Type}

def Journal.beside (ρ : Type) (journal : Journal σ) : Journal (σ × ρ) :=
  journal.map fun write level event fields =>
    World.within Prod.fst (fun s t => (s, t.2)) (write level event fields)

theorem Journal.tell_beside (journal : Journal σ) (level : Level) (event : String)
    (fields : Json.Members)
    (s : σ × ρ) : (journal.beside ρ).tell level event fields s =
      ((journal.tell level event fields s.1).1, (journal.tell level event fields s.1).2, s.2) := by
  cases journal <;> rfl

namespace FileFetcher

inductive Request
  | look (p : Path)
  | fetch (job : Job) (answer : Except Failure Int)

def Request.path : Request → Path
  | .look p => p
  | .fetch job _ => job.1

def recorded (fetcher : FileFetcher σ) : FileFetcher (σ × List Request) where
  exists? := fun p s =>
    let r := fetcher.exists? p s.1
    (r.1, r.2, s.2 ++ [.look p])
  fetch := fun url p s =>
    let r := fetcher.fetch url p s.1
    (r.1, r.2, s.2 ++ [.fetch (p, url) r.1])

theorem exists?_recorded (fetcher : FileFetcher σ) (p : Path) (s : σ × List Request) :
    fetcher.recorded.exists? p s = ((fetcher.exists? p s.1).1, (fetcher.exists? p s.1).2,
      s.2 ++ [.look p]) :=
  rfl

theorem fetch_recorded (fetcher : FileFetcher σ) (url : String) (p : Path) (s : σ × List Request) :
    fetcher.recorded.fetch url p s = ((fetcher.fetch url p s.1).1, (fetcher.fetch url p s.1).2,
      s.2 ++ [.fetch (p, url) (fetcher.fetch url p s.1).1]) :=
  rfl

def recordedDownload (fetcher : FileFetcher σ) (journal : Journal σ) (root : Path)
    (cs : List Collection) (s : σ) :
    Except Failure DownloadReport × σ × List Request :=
  fetcher.recorded.download (journal.beside _) root cs (s, [])

def requests (fetcher : FileFetcher σ) (journal : Journal σ) (root : Path)
    (cs : List Collection) (s : σ) :
    List Request :=
  (fetcher.recordedDownload journal root cs s).2.2

/-! ### Downloads side by side -/

structure Alike (R : σ → τ → Prop) (fetcher : FileFetcher σ) (fetcher' : FileFetcher τ) : Prop where
  exists? : ∀ p, Run.Alike R (fetcher.exists? p) (fetcher'.exists? p)
  fetch : ∀ url p, Run.Alike R (fetcher.fetch url p) (fetcher'.fetch url p)

namespace Alike

variable {R : σ → τ → Prop} {fetcher : FileFetcher σ} {fetcher' : FileFetcher τ}
  {journal : Journal σ}
  {journal' : Journal τ}

theorem save (h : fetcher.Alike R fetcher') (url : String) (target : Path) :
    Run.Alike R (fetcher.save url target) (fetcher'.save url target) := by
  refine .bind (h.exists? target) fun taken => ?_
  cases taken with
  | true => exact .pure _
  | false =>
    refine .tryCatch (.bind (h.fetch url target) fun n => .pure _) fun f => ?_
    split
    · exact .pure _
    · exact .throw f

theorem tellSaving (hjournal : Journal.Alike R journal journal') (p : GrabbedPost) (target : Path)
    (saving : Saving) :
    Run.Alike R (FileFetcher.tellSaving journal p target saving)
      (FileFetcher.tellSaving journal' p target saving) := by
  cases saving <;> exact hjournal _ _ _

theorem savePosts (h : fetcher.Alike R fetcher') (hjournal : Journal.Alike R journal journal')
    (directory : Path) (ps : List GrabbedPost) (report : DownloadReport) :
    Run.Alike R (fetcher.savePosts journal directory ps report)
      (fetcher'.savePosts journal' directory ps report) := by
  induction ps generalizing report with
  | nil => exact .pure report
  | cons p ps ih =>
    exact .bind (h.save _ _) fun saving => .bind (tellSaving hjournal p _ saving) fun _ => ih _

theorem within (hjournal : Journal.Alike R journal journal') (context : Json.Members) :
    Journal.Alike R (journal.within context) (journal'.within context) := by
  intro level event fields
  rw [Journal.tell_within, Journal.tell_within]
  exact hjournal level event _

theorem saveCollection (h : fetcher.Alike R fetcher')
    (hjournal : Journal.Alike R journal journal') (root : Path) (c : Collection)
    (report : DownloadReport) :
    Run.Alike R (fetcher.saveCollection journal root c report)
      (fetcher'.saveCollection journal' root c report) := by
  unfold FileFetcher.saveCollection
  split
  · exact .pure report
  · exact .bind (within hjournal _ _ _ _) fun _ => h.savePosts (within hjournal _) _ _ _

theorem download (h : fetcher.Alike R fetcher') (hjournal : Journal.Alike R journal journal')
    (root : Path) (cs : List Collection) :
    Run.Alike R (fetcher.download journal root cs) (fetcher'.download journal' root cs) := by
  have hall (report : DownloadReport) :
      Run.Alike R (cs.foldlM (fun report c => fetcher.saveCollection journal root c report) report)
        (cs.foldlM (fun report c => fetcher'.saveCollection journal' root c report) report) := by
    induction cs generalizing report with
    | nil => exact .pure report
    | cons c cs ih => exact .bind (h.saveCollection hjournal root c report) fun r => ih r
  exact .bind (hall {}) fun report => .bind (hjournal _ _ _) fun _ => .pure report

end Alike

variable {fetcher : FileFetcher σ} {journal : Journal σ}

theorem download_eq_recorded (root : Path) (cs : List Collection) (s : σ) :
    fetcher.download journal root cs s =
      ((fetcher.recordedDownload journal root cs s).1,
        (fetcher.recordedDownload journal root cs s).2.1) := by
  have hfetcher : fetcher.recorded.Alike (fun s t => s.1 = t) fetcher := by
    refine ⟨fun p => ?_, fun url p => ?_⟩ <;> rintro ⟨s, requests⟩ _ rfl <;> exact ⟨rfl, rfl⟩
  have hjournal : Journal.Alike (fun s t => s.1 = t) (journal.beside (List Request)) journal := by
    rintro level event fields ⟨s, requests⟩ _ rfl
    rw [Journal.tell_beside]
    exact ⟨rfl, rfl⟩
  obtain ⟨hresult, hend⟩ := hfetcher.download hjournal root cs (s, []) s rfl
  exact Prod.ext hresult.symm hend.symm

/-! ### What a download keeps -/

section Kept

variable {I : σ → Prop}

abbrev Kept (I : σ → Prop) (x : Run σ α) : Prop := Ensures I x (fun _ => I) fun _ => I

theorem kept_iff {x : Run σ α} : Kept I x ↔ ∀ s, I s → I (x s).2 := by
  refine forall_congr' fun s => imp_congr_right fun _ => ?_
  rcases x s with ⟨_ | _, _⟩ <;> exact Iff.rfl

theorem kept_within (htell : ∀ level event fields, Kept I (journal.tell level event fields))
    (context : Json.Members) (level : Level) (event : String) (fields : Json.Members) :
    Kept I ((journal.within context).tell level event fields) := by
  rw [Journal.tell_within]
  exact htell _ _ _

theorem kept_save {job : Job} (hlook : Kept I (fetcher.exists? job.1))
    (hfetch : Kept I (fetcher.fetch job.2 job.1)) :
    Kept I (fetcher.save job.2 job.1) := by
  refine Ensures.bind hlook fun taken => ?_
  cases taken with
  | true => exact .pure fun _ hs => hs
  | false =>
    refine .tryCatch (.bind hfetch fun n => .pure fun _ hs => hs) fun f => ?_
    split
    · exact .pure fun _ hs => hs
    · exact .throw fun _ hs => hs

theorem kept_savePosts (htell : ∀ level event fields, Kept I (journal.tell level event fields))
    (root : Path) (c : Collection) (ps : List GrabbedPost)
    (hsave : ∀ e ∈ ps.map (job root c), Kept I (fetcher.save e.2 e.1)) (report : DownloadReport) :
    Kept I (fetcher.savePosts journal (c.directory root) ps report) := by
  induction ps generalizing report with
  | nil => exact .pure fun _ hs => hs
  | cons p ps ih =>
    obtain ⟨hfirst, hrest⟩ := List.forall_mem_cons.mp hsave
    refine Ensures.bind hfirst fun saving => .bind ?_ fun _ => ih hrest _
    cases saving <;> exact htell _ _ _

theorem kept_download (htell : ∀ level event fields, Kept I (journal.tell level event fields))
    (root : Path) (cs : List Collection)
    (hlook : ∀ job ∈ jobs root cs, Kept I (fetcher.exists? job.1))
    (hfetch : ∀ job ∈ jobs root cs, Kept I (fetcher.fetch job.2 job.1)) :
    Kept I (fetcher.download journal root cs) := by
  have hcollections (report : DownloadReport) :
      Kept I (cs.foldlM (fun report c => fetcher.saveCollection journal root c report) report) := by
    induction cs generalizing report with
    | nil => exact .pure fun _ hs => hs
    | cons c cs ih =>
      obtain ⟨hlookFirst, hlookRest⟩ := List.forall_mem_append.mp hlook
      obtain ⟨hfetchFirst, hfetchRest⟩ := List.forall_mem_append.mp hfetch
      rw [List.foldlM_cons]
      refine Ensures.bind ?_ fun r => ih hlookRest hfetchRest r
      unfold saveCollection
      split
      · exact .pure fun _ hs => hs
      · refine Ensures.bind (kept_within htell _ _ _ _) fun _ => ?_
        exact kept_savePosts (kept_within htell _) root c c.posts
          (fun job hjob => kept_save (hlookFirst job hjob) (hfetchFirst job hjob)) _
  exact Ensures.bind (hcollections {}) fun report => .bind (htell _ _ _) fun _ =>
    .pure fun _ hs => hs

end Kept

def targets (root : Path) (cs : List Collection) : List Path := (jobs root cs).map (·.1)

theorem path_mem_targets (fetcher : FileFetcher σ) (journal : Journal σ) (root : Path)
    (cs : List Collection)
    (s : σ) : ∀ r ∈ fetcher.requests journal root cs s, r.path ∈ targets root cs := by
  have hkept : Kept (fun s => ∀ r ∈ s.2, r.path ∈ targets root cs)
      (fetcher.recorded.download (journal.beside _) root cs) := by
    refine kept_download (fun level event fields => ?_) root cs (fun job hjob => ?_)
      fun job hjob => ?_ <;>
      rw [kept_iff] <;> intro s hs
    · rwa [Journal.tell_beside]
    · exact List.forall_mem_append.mpr
        ⟨hs, List.forall_mem_singleton.mpr (List.mem_map_of_mem hjob)⟩
    · exact List.forall_mem_append.mpr
        ⟨hs, List.forall_mem_singleton.mpr (List.mem_map_of_mem hjob)⟩
  exact kept_iff.mp hkept (s, []) (List.forall_mem_nil _)

end FileFetcher
end Booru
