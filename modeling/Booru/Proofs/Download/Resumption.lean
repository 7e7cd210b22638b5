import Booru.Proofs.Download.Course
import Booru.Proofs.Download.Recording
import Mathlib.Data.Set.Basic

/-! Downloads that are taken up again. A report accounts for every post, nothing that is there is
fetched, and a second download of the same collections fetches only what the first one left out. -/

namespace Booru

open Run

variable {σ ρ : Type}

/-! ### Lists side by side -/

section Zip

variable {α β γ : Type} {xs : List α} {ys : List β}

theorem filterMap_snd_zip (f : β → Option γ) (h : ys.length ≤ xs.length) :
    (xs.zip ys).filterMap (fun x => f x.2) = ys.filterMap f := by
  have hsnd := @List.filterMap_map _ _ _ Prod.snd f (xs.zip ys)
  rw [List.map_snd_zip h] at hsnd
  exact hsnd.symm

theorem exists_mem_zip_left (h : xs.length ≤ ys.length) : ∀ x ∈ xs, ∃ y, (x, y) ∈ xs.zip ys := by
  intro x hx
  rw [← List.map_fst_zip h] at hx
  obtain ⟨⟨_, y⟩, hmem, rfl⟩ := List.mem_map.mp hx
  exact ⟨y, hmem⟩

theorem exists_mem_zip_right (h : ys.length ≤ xs.length) : ∀ y ∈ ys, ∃ x, (x, y) ∈ xs.zip ys := by
  intro y hy
  rw [← List.map_snd_zip h] at hy
  obtain ⟨⟨x, _⟩, hmem, rfl⟩ := List.mem_map.mp hy
  exact ⟨x, hmem⟩

end Zip

/-! ### Outcomes and the report of them -/

def Saving.bytes? : Saving → Option Int
  | .saved bytes => some bytes
  | _ => none

def Saving.failure? : Saving → Option Failure
  | .failed f => some f
  | _ => none

def Saving.request? (job : FileFetcher.Job) : Saving → Option FileFetcher.Request
  | .existing => none
  | .saved bytes => some (.fetch job (.ok bytes))
  | .failed f => some (.fetch job (.error f))

namespace FileFetcher

namespace Request

def isFetch : Request → Bool
  | .look _ => false
  | .fetch _ _ => true

def returned? : Request → Option Int
  | .fetch _ (.ok bytes) => some bytes
  | _ => none

end Request

def fetches (requests : List Request) : List Request := requests.filter Request.isFetch

end FileFetcher

structure DownloadReport.Accounts (root : Path) (cs : List Collection)
    (requests : List FileFetcher.Request) (savings : List Saving) (r : DownloadReport) : Prop where
  asked : FileFetcher.fetches requests =
    ((FileFetcher.jobs root cs).zip savings).filterMap fun x => x.2.request? x.1
  outcomes : savings.length = (cs.flatMap (·.posts)).length
  total : r.downloaded + r.existing + r.failed = (cs.flatMap (·.posts)).length
  downloaded : r.downloaded = (requests.filterMap FileFetcher.Request.returned?).length
  bytesWritten : r.bytesWritten = (requests.filterMap FileFetcher.Request.returned?).foldr (· + ·) 0
  failed : r.failed = r.failures.length
  failures : r.failures = ((cs.flatMap (·.posts)).zip savings).filterMap fun x =>
    x.2.failure?.map fun f => (x.1.postId, f.message)
  collections : r.collections = cs.countP fun c => !c.posts.isEmpty

namespace DownloadReport

structure Counts (xs : List (GrabbedPost × Saving)) (r r' : DownloadReport) : Prop where
  collections : r'.collections = r.collections
  downloaded : r'.downloaded = r.downloaded + (xs.filterMap (·.2.bytes?)).length
  bytesWritten : r'.bytesWritten = r.bytesWritten + (xs.filterMap (·.2.bytes?)).foldr (· + ·) 0
  failed : r'.failed + r.failures.length = r.failed + r'.failures.length
  failures : r'.failures = r.failures ++ xs.filterMap fun x => x.2.failure?.map fun f =>
    (x.1.postId, f.message)

theorem counts_countAll (r : DownloadReport) (xs : List (GrabbedPost × Saving)) :
    Counts xs r (r.countAll xs) := by
  induction xs generalizing r with
  | nil => exact ⟨rfl, rfl, (Int.add_zero _).symm, rfl, (List.append_nil _).symm⟩
  | cons x xs ih =>
    obtain ⟨p, saving⟩ := x
    obtain ⟨hcollections, hdownloaded, hbytes, hfailed, hfailures⟩ := ih (r.count p saving)
    change Counts _ r ((r.count p saving).countAll xs)
    cases saving with
    | existing => exact ⟨hcollections, hdownloaded, hbytes, hfailed, hfailures⟩
    | saved bytes =>
      refine ⟨hcollections, ?_, ?_, hfailed, hfailures⟩
      · simpa [Saving.bytes?, count, Nat.add_assoc, Nat.add_comm 1] using hdownloaded
      · simpa [Saving.bytes?, count, Int.add_assoc] using hbytes
    | failed f =>
      refine ⟨hcollections, hdownloaded, hbytes, ?_, ?_⟩
      · simp only [count, List.length_append, List.length_singleton] at hfailed ⊢
        omega
      · simpa [Saving.failure?, count] using hfailures

end DownloadReport

namespace FileFetcher

variable {fetcher : FileFetcher σ} {journal : Journal σ} {files : σ → Set Path}
  {s t : σ} {jobs : List Job}
  {savings : List Saving}

/-- A fetcher whose looks tell which paths are taken. A fetch to a free path makes a file there and
returns a number of bytes, or has a failure of the board; it never takes a file away. -/
structure Filing (fetcher : FileFetcher σ) (files : σ → Set Path) : Prop where
  looks : ∀ (p : Path) (s : σ), ∃ taken t, fetcher.exists? p s = (.ok taken, t) ∧
    (taken = true ↔ p ∈ files s) ∧ files t = files s
  fetches : ∀ (url : String) (p : Path) (s : σ), p ∉ files s →
    (∃ bytes t, fetcher.fetch url p s = (.ok bytes, t) ∧ files s ⊆ files t ∧ p ∈ files t) ∨
      ∃ f t, fetcher.fetch url p s = (.error f, t) ∧ f.kind = .api ∧ files s ⊆ files t

/-- What becomes of one post: it is left alone where it is there already, and it is there afterwards
unless its fetch failed. -/
structure Filed (before after : Set Path) (job : Job) (saving : Saving) : Prop where
  spared : job.1 ∈ before → saving = .existing
  there : saving.failure? = none → job.1 ∈ after

theorem Filed.mono {before before' after after' : Set Path} {job : Job} {saving : Saving}
    (h : Filed before after job saving) (hbefore : before' ⊆ before) (hafter : after ⊆ after') :
    Filed before' after' job saving :=
  ⟨fun hin => h.spared (hbefore hin), fun hnone => hafter (h.there hnone)⟩

theorem Filing.save (h : fetcher.Filing files) (job : Job) (s : σ) : ∃ saving t,
    fetcher.save job.2 job.1 s = (.ok saving, t) ∧ files s ⊆ files t ∧ Filed (files s)
      (files t) job saving := by
  obtain ⟨taken, t, hlook, htaken, hfiles⟩ := h.looks job.1 s
  have hsave : fetcher.save job.2 job.1 s = _ := bind_apply _ _ s
  rw [hlook] at hsave
  rw [hsave]
  cases taken with
  | true => exact ⟨.existing, t, rfl, hfiles.ge, fun _ => rfl, fun _ => hfiles ▸ htaken.mp rfl⟩
  | false =>
    have hfree : job.1 ∉ files s := fun hin => Bool.noConfusion (htaken.mpr hin)
    simp only [Bool.false_eq_true, if_false, tryCatch_apply, bind_apply]
    rcases h.fetches job.2 job.1 t (hfiles ▸ hfree) with ⟨bytes, u, hfetch, hsub, hthere⟩ |
      ⟨f, u, hfetch, hkind, hsub⟩
    · rw [hfetch]
      exact ⟨.saved bytes, u, rfl, hfiles ▸ hsub, fun hin => absurd hin hfree, fun _ => hthere⟩
    · rw [hfetch]
      exact ⟨.failed f, u, by simp only [hkind, if_true]; rfl, hfiles ▸ hsub, fun hin =>
        absurd hin hfree, nofun⟩

theorem Course.filed (h : fetcher.Filing files) (hjournal : journal.Quiet files)
    (hcourse : Course fetcher journal s jobs savings t) :
    files s ⊆ files t ∧ ∀ x ∈ jobs.zip savings, Filed (files s) (files t) x.1 x.2 := by
  induction hcourse with
  | nil => exact ⟨fun _ hp => hp, List.forall_mem_nil _⟩
  | @told s _ _ _ _ level event fields telling rest ih =>
    obtain ⟨t', htell, hfiles⟩ := hjournal level event fields s
    cases telling.symm.trans htell
    rwa [hfiles] at ih
  | @saved s _ _ job _ _ _ saving_eq rest ih =>
    obtain ⟨saving', t', hsave, hsub, hfiled⟩ := h.save job s
    cases saving_eq.symm.trans hsave
    obtain ⟨hrest, hall⟩ := ih
    exact ⟨hsub.trans hrest, List.forall_mem_cons.mpr ⟨hfiled.mono le_rfl hrest, fun x hx =>
      (hall x hx).mono hsub le_rfl⟩⟩

theorem Filing.download_eq (h : fetcher.Filing files) (hjournal : journal.Quiet files) (root : Path)
    (cs : List Collection) (s : σ) : ∃ savings t,
    fetcher.download journal root cs s = (.ok (.ofSavings cs savings), t) ∧
      Course fetcher journal s (FileFetcher.jobs root cs) savings t := by
  rcases takes_download hjournal root cs s with ⟨savings, report, t, hrun, hcourse, rfl⟩ |
    ⟨_, job, _, _, u, f, t, -, -, hfail, -⟩
  · exact ⟨savings, t, hrun, hcourse⟩
  · obtain ⟨saving, t', hsave, -⟩ := h.save job u
    cases hfail.symm.trans hsave

/-! ### The record of the calls -/

theorem Filing.recorded (h : fetcher.Filing files) : fetcher.recorded.Filing (files ·.1) where
  looks p s := by
    obtain ⟨taken, t, hlook, hrest⟩ := h.looks p s.1
    exact ⟨taken, (t, _), by rw [exists?_recorded, hlook], hrest⟩
  fetches url p s hfree := by
    rcases h.fetches url p s.1 hfree with ⟨bytes, t, hfetch, hrest⟩ | ⟨f, t, hfetch, hrest⟩
    · exact .inl ⟨bytes, (t, _), by rw [fetch_recorded, hfetch], hrest⟩
    · exact .inr ⟨f, (t, _), by rw [fetch_recorded, hfetch], hrest⟩

theorem save_recorded {job : Job} {saving : Saving} {s t : σ × List Request}
    (h : fetcher.recorded.save job.2 job.1 s = (.ok saving, t)) :
    fetches t.2 = fetches s.2 ++ (saving.request? job).toList := by
  have hsave : fetcher.recorded.save job.2 job.1 s = _ := bind_apply _ _ s
  rw [h, exists?_recorded] at hsave
  rcases hlook : fetcher.exists? job.1 s.1 with ⟨f | taken, u⟩
  · rw [hlook] at hsave
    cases hsave
  · rw [hlook] at hsave
    cases taken with
    | true =>
      cases hsave
      simp [fetches, Request.isFetch, Saving.request?]
    | false =>
      simp only [Bool.false_eq_true, if_false, tryCatch_apply, bind_apply, fetch_recorded] at hsave
      rcases hfetch : fetcher.fetch job.2 job.1 u with ⟨f | bytes, v⟩
      · rw [hfetch] at hsave
        by_cases hkind : f.kind = .api
        · simp only [hkind, if_true] at hsave
          cases hsave
          simp [fetches, Request.isFetch, Saving.request?]
        · simp only [hkind, if_false] at hsave
          cases hsave
      · rw [hfetch] at hsave
        cases hsave
        simp [fetches, Request.isFetch, Saving.request?]

theorem Course.recorded {s t : σ × List Request}
    (h : Course fetcher.recorded (journal.beside (List Request)) s jobs savings t) :
    fetches t.2 = fetches s.2 ++ (jobs.zip savings).filterMap fun x => x.2.request? x.1 := by
  induction h with
  | nil => exact (List.append_nil _).symm
  | told telling rest ih =>
    rw [Journal.tell_beside] at telling
    cases (Prod.mk.inj telling).2
    exact ih
  | @saved _ _ _ job jobs saving _ saving_eq rest ih =>
    rw [ih, save_recorded saving_eq, List.append_assoc, List.zip_cons_cons, List.filterMap_cons]
    cases saving <;> rfl

theorem fetches_returned (requests : List Request) :
    (fetches requests).filterMap Request.returned? = requests.filterMap Request.returned? := by
  induction requests with
  | nil => rfl
  | cons r rest ih =>
    cases r with
    | look p => exact ih
    | fetch job answer =>
      change (.fetch job answer :: fetches rest).filterMap Request.returned? = _
      rw [List.filterMap_cons, List.filterMap_cons, ih]

theorem length_jobs (root : Path) (cs : List Collection) :
    (FileFetcher.jobs root cs).length = (cs.flatMap (·.posts)).length := by
  simp [FileFetcher.jobs]

theorem accounts_ofSavings {root : Path} {cs : List Collection} {requests : List Request}
    (hlength : savings.length = (FileFetcher.jobs root cs).length)
    (hasked : fetches requests = ((FileFetcher.jobs root cs).zip savings).filterMap fun x =>
      x.2.request? x.1) :
    (DownloadReport.ofSavings cs savings).Accounts root cs requests savings := by
  have hposts : savings.length = (cs.flatMap (·.posts)).length :=
    hlength.trans (length_jobs root cs)
  have hcounts := DownloadReport.counts_countAll (DownloadReport.countFull {} cs)
    ((cs.flatMap (·.posts)).zip savings)
  have hreturned : requests.filterMap Request.returned? = savings.filterMap Saving.bytes? := by
    rw [← fetches_returned, hasked, List.filterMap_filterMap,
      ← filterMap_snd_zip Saving.bytes? hlength.le]
    refine List.filterMap_congr fun x _ => ?_
    cases x.2 <;> rfl
  have hbytes := filterMap_snd_zip Saving.bytes? hposts.le
  exact {
    asked := hasked
    outcomes := hposts
    total := by
      rw [DownloadReport.ofSavings, DownloadReport.countAll_total, List.length_zip,
        hposts, Nat.min_self]
      exact Nat.zero_add _
    downloaded := by
      rw [hreturned, ← hbytes]
      exact hcounts.downloaded.trans (Nat.zero_add _)
    bytesWritten := by
      rw [hreturned, ← hbytes]
      exact hcounts.bytesWritten.trans (Int.zero_add _)
    failed := hcounts.failed.trans (Nat.zero_add _)
    failures := hcounts.failures.trans (List.nil_append _)
    collections := hcounts.collections.trans (Nat.zero_add _) }

theorem Filing.download_outcomes (h : fetcher.Filing files)
    (hjournal : journal.Quiet files) (root : Path) (cs : List Collection) (s : σ) :
    ∃ savings report t, fetcher.download journal root cs s = (.ok report, t) ∧
      report.Accounts root cs (fetcher.requests journal root cs s) savings ∧
      ∀ x ∈ (FileFetcher.jobs root cs).zip savings, Filed (files s) (files t) x.1 x.2 := by
  have hbeside : (journal.beside (List Request)).Quiet (files ·.1) := by
    intro level event fields x
    obtain ⟨t, htell, hfiles⟩ := hjournal level event fields x.1
    exact ⟨(t, x.2), by rw [Journal.tell_beside, htell], hfiles⟩
  obtain ⟨savings, t, hrun, hcourse⟩ := h.recorded.download_eq hbeside root cs (s, [])
  have hasked := hcourse.recorded
  obtain ⟨-, hfiled⟩ := hcourse.filed h.recorded hbeside
  have hdownload := @download_eq_recorded σ fetcher journal root cs s
  have hrequests : fetcher.requests journal root cs s = t.2 := by
    rw [requests, recordedDownload, hrun]
  rw [recordedDownload, hrun] at hdownload
  exact ⟨savings, _, t.1, hdownload, accounts_ofSavings hcourse.length_eq (hrequests ▸ hasked),
    hfiled⟩

end FileFetcher

namespace DownloadReport.Accounts

variable {root : Path} {cs : List Collection} {requests : List FileFetcher.Request}
  {savings : List Saving}
  {r : DownloadReport} {before after : Set Path}

theorem length_eq (h : r.Accounts root cs requests savings) :
    (FileFetcher.jobs root cs).length = savings.length :=
  (FileFetcher.length_jobs root cs).trans h.outcomes.symm

theorem path_notMem (h : r.Accounts root cs requests savings)
    (hfiled : ∀ x ∈ (FileFetcher.jobs root cs).zip savings, FileFetcher.Filed before after x.1 x.2)
      :
    ∀ request ∈ FileFetcher.fetches requests, request.path ∉ before := by
  rw [h.asked]
  intro request hrequest hin
  obtain ⟨x, hx, hsome⟩ := List.mem_filterMap.mp hrequest
  have hpath : x.2 ≠ .existing ∧ request.path = x.1.1 := by
    cases hsaving : x.2 <;> rw [hsaving] at hsome <;> cases hsome <;>
      exact ⟨Saving.noConfusion, rfl⟩
  exact hpath.1 ((hfiled x hx).spared (hpath.2 ▸ hin))

theorem target_mem (h : r.Accounts root cs requests savings)
    (hfiled : ∀ x ∈ (FileFetcher.jobs root cs).zip savings, FileFetcher.Filed before after x.1 x.2)
    (hfailed : r.failed = 0) : ∀ job ∈ FileFetcher.jobs root cs, job.1 ∈ after := by
  have hempty : r.failures = [] := List.length_eq_zero_iff.mp (h.failed.symm.trans hfailed)
  rw [h.failures, List.filterMap_eq_nil_iff] at hempty
  intro job hjob
  obtain ⟨saving, hsaving⟩ := exists_mem_zip_left h.length_eq.le job hjob
  obtain ⟨p, hp⟩ := exists_mem_zip_right h.outcomes.le saving (List.of_mem_zip hsaving).2
  exact (hfiled _ hsaving).there (Option.map_eq_none_iff.mp (hempty _ hp))

theorem existing_eq (h : r.Accounts root cs requests savings)
    (hfiled : ∀ x ∈ (FileFetcher.jobs root cs).zip savings, FileFetcher.Filed before after x.1 x.2)
    (hthere : ∀ job ∈ FileFetcher.jobs root cs, job.1 ∈ before) :
    FileFetcher.fetches requests = [] ∧ r.existing = (cs.flatMap (·.posts)).length := by
  have hexisting : ∀ saving ∈ savings, saving = .existing := by
    intro saving hsaving
    obtain ⟨job, hjob⟩ := exists_mem_zip_right h.length_eq.ge saving hsaving
    exact (hfiled _ hjob).spared (hthere job (List.of_mem_zip hjob).1)
  have hnothing : FileFetcher.fetches requests = [] := by
    rw [h.asked, List.filterMap_eq_nil_iff]
    intro x hx
    rw [hexisting x.2 (List.of_mem_zip hx).2]
    rfl
  have hdownloaded : r.downloaded = 0 := by
    rw [h.downloaded, ← FileFetcher.fetches_returned, hnothing]
    rfl
  have hfailures : r.failures = [] := by
    rw [h.failures, List.filterMap_eq_nil_iff]
    intro x hx
    rw [hexisting x.2 (List.of_mem_zip hx).2]
    rfl
  have hfailed : r.failed = 0 := by rw [h.failed, hfailures, List.length_nil]
  have htotal := h.total
  rw [hdownloaded, hfailed, Nat.zero_add, Nat.add_zero] at htotal
  exact ⟨hnothing, htotal⟩

end DownloadReport.Accounts

/-- Whatever is there at the start, and whichever posts share a target, a download ends with a
report that accounts for every post, and fetches no file that was there. A second download of the
same collections fetches nothing that is there after the first one, so nothing at all unless a fetch
of the first one failed. -/
theorem download_accounts_and_resumes (fetcher : FileFetcher σ) (journal : Journal σ)
    (files : σ → Set Path) (root : Path) (cs : List Collection) (s : σ)
    (hfetcher : fetcher.Filing files) (hjournal : journal.Quiet files) :
    ∃ savings report t, fetcher.download journal root cs s = (.ok report, t) ∧
      report.Accounts root cs (fetcher.requests journal root cs s) savings ∧
      (∀ request ∈ FileFetcher.fetches (fetcher.requests journal root cs s),
        request.path ∉ files s) ∧
      ∀ (τ : Type) (fetcher' : FileFetcher τ) (journal' : Journal τ)
        (files' : τ → Set Path) (u : τ),
        fetcher'.Filing files' → journal'.Quiet files' → files' u = files t →
        ∃ report' v, fetcher'.download journal' root cs u = (.ok report', v) ∧
          (∀ request ∈ FileFetcher.fetches (fetcher'.requests journal' root cs u),
            request.path ∉ files t) ∧
          (report.failed = 0 → FileFetcher.fetches (fetcher'.requests journal' root cs u) = [] ∧
            report'.existing = (cs.flatMap (·.posts)).length) := by
  obtain ⟨savings, report, t, hrun, haccounts, hfiled⟩ :=
  hfetcher.download_outcomes hjournal root cs s
  refine ⟨savings, report, t, hrun, haccounts, haccounts.path_notMem hfiled, ?_⟩
  intro τ fetcher' journal' files' u hfetcher' hjournal' hsame
  obtain ⟨savings', report', v, hrun', haccounts', hfiled'⟩ :=
    hfetcher'.download_outcomes hjournal' root cs u
  rw [hsame] at hfiled'
  refine ⟨report', v, hrun', haccounts'.path_notMem hfiled', fun hfailed => ?_⟩
  exact haccounts'.existing_eq hfiled' (haccounts.target_mem hfiled hfailed)

/-! ### A list of files -/

def listFetcher : FileFetcher (List Path) where
  exists? := fun p s => (.ok (decide (p ∈ s)), s)
  fetch := fun url p s =>
    if url = "u/2" then (.error (.api (.downloadFailed url "gone")), s) else (.ok 7, p :: s)

theorem filing_listFetcher : listFetcher.Filing fun s => {p | p ∈ s} where
  looks p s := ⟨decide (p ∈ s), s, rfl, decide_eq_true_iff, rfl⟩
  fetches url p s _ := by
    by_cases hurl : url = "u/2"
    · exact .inr ⟨_, s, if_pos hurl, rfl, le_rfl⟩
    · exact .inl ⟨7, p :: s, if_neg hurl, fun _ hq => List.mem_cons_of_mem p hq, List.mem_cons_self⟩

def sharedTargets : List Collection :=
  [⟨"Twins", "Pools", [⟨1, "u/1", "a.jpg", 0⟩, ⟨2, "u/2", "b.jpg", 0⟩]⟩, ⟨"None", "Sets", []⟩,
    ⟨"Twins", "Pools", [⟨3, "u/3", "a.jpg", 0⟩]⟩]

/-- The second post is there at the start, and the third one since the first one is. -/
theorem resumed_download_fetches_nothing : ∃ (report : DownloadReport) (t : List Path),
    listFetcher.download none ⟨"", ["out"]⟩ sharedTargets
      [⟨"", ["out", "Pools", "Twins", "b.jpg"]⟩] = (.ok report, t) ∧
      report = ⟨2, 1, 2, 0, 7, []⟩ ∧
      ∃ report' v, listFetcher.download none ⟨"", ["out"]⟩ sharedTargets t = (.ok report', v) ∧
        FileFetcher.fetches (listFetcher.requests none ⟨"", ["out"]⟩ sharedTargets t) = [] ∧
        report'.existing = 3 := by
  have hrun : listFetcher.download none ⟨"", ["out"]⟩ sharedTargets
      [⟨"", ["out", "Pools", "Twins", "b.jpg"]⟩] = (.ok ⟨2, 1, 2, 0, 7, []⟩, _) := Prod.ext rfl rfl
  obtain ⟨savings, report, t, hrun', -, -, hagain⟩ := download_accounts_and_resumes listFetcher none
    (fun s => {p | p ∈ s}) ⟨"", ["out"]⟩ sharedTargets [⟨"", ["out", "Pools", "Twins", "b.jpg"]⟩]
    filing_listFetcher (Journal.quiet_silent _)
  cases hrun.symm.trans hrun'
  obtain ⟨report', v, hsecond, -, hnothing⟩ :=
    hagain (List Path) listFetcher none (fun s => {p | p ∈ s}) _
    filing_listFetcher (Journal.quiet_silent _) rfl
  exact ⟨_, _, hrun, rfl, report', v, hsecond, (hnothing rfl).1, (hnothing rfl).2⟩

end Booru
