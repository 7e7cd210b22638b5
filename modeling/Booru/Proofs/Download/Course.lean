import Booru.Download
import Booru.Proofs.Search.Alike
import Booru.Proofs.Download.Storing

/-! The course of a download. Post after post is saved, in the order of the collections, and
each outcome is counted once; where the saving of a post fails instead of having an outcome,
the download ends there. -/

namespace Booru

open Run

variable {σ α β : Type}

namespace DownloadReport

def countAll (r : DownloadReport) (outcomes : List (GrabbedPost × Saving)) : DownloadReport :=
  outcomes.foldl (fun r x => r.count x.1 x.2) r

def countFull (r : DownloadReport) (cs : List Collection) : DownloadReport :=
  { r with collections := r.collections + cs.countP fun c => !c.posts.isEmpty }

def ofSavings (cs : List Collection) (savings : List Saving) : DownloadReport :=
  (countFull {} cs).countAll ((cs.flatMap (·.posts)).zip savings)

theorem countAll_append (r : DownloadReport) (xs ys : List (GrabbedPost × Saving)) :
    r.countAll (xs ++ ys) = (r.countAll xs).countAll ys := List.foldl_append

theorem countFull_append (r : DownloadReport) (cs ds : List Collection) :
    r.countFull (cs ++ ds) = (r.countFull cs).countFull ds := by
  simp [countFull, Nat.add_assoc]

theorem countFull_countAll (r : DownloadReport) (cs : List Collection)
    (xs : List (GrabbedPost × Saving)) :
    (r.countAll xs).countFull cs = (r.countFull cs).countAll xs := by
  induction xs generalizing r with
  | nil => rfl
  | cons x xs ih =>
    have hcount : (r.count x.1 x.2).countFull cs = (r.countFull cs).count x.1 x.2 := by
      cases x.2 <;> rfl
    have hrest := ih (r.count x.1 x.2)
    rwa [hcount] at hrest

theorem countAll_total (r : DownloadReport) (xs : List (GrabbedPost × Saving)) :
    (r.countAll xs).downloaded + (r.countAll xs).existing + (r.countAll xs).failed =
      r.downloaded + r.existing + r.failed + xs.length := by
  induction xs generalizing r with
  | nil => rfl
  | cons x xs ih =>
    have hrest := ih (r.count x.1 x.2)
    have hcount : (r.count x.1 x.2).downloaded + (r.count x.1 x.2).existing +
        (r.count x.1 x.2).failed = r.downloaded + r.existing + r.failed + 1 := by
      cases x.2 <;> simp only [count] <;> omega
    change ((r.count x.1 x.2).countAll xs).downloaded + ((r.count x.1 x.2).countAll xs).existing +
      ((r.count x.1 x.2).countAll xs).failed = _
    rw [hrest, hcount, List.length_cons]
    omega

end DownloadReport

namespace FileFetcher

variable {fetcher : FileFetcher σ} {journal : Journal σ} {s t u : σ} {before later : List Job}
  {job : Job} {savings savings' : List Saving}

/-- The jobs done one after the other, with these outcomes. In between nothing happens but that the
journal is told of events. -/
inductive Course (fetcher : FileFetcher σ) (journal : Journal σ) : σ → List Job →
    List Saving → σ → Prop
  | nil {s : σ} : Course fetcher journal s [] [] s
  | told {s t u : σ} {jobs : List Job} {savings : List Saving} {level : Level} {event : String}
      {fields : Json.Members} (telling : journal.tell level event fields s = (.ok (), t))
      (rest : Course fetcher journal t jobs savings u) : Course fetcher journal s jobs savings u
  | saved {s t u : σ} {job : Job} {jobs : List Job} {saving : Saving} {savings : List Saving}
      (saving_eq : fetcher.save job.2 job.1 s = (.ok saving, t))
      (rest : Course fetcher journal t jobs savings u) :
      Course fetcher journal s (job :: jobs) (saving :: savings) u

theorem Course.length_eq (h : Course fetcher journal s before savings t) :
    savings.length = before.length := by
  induction h with
  | nil => rfl
  | told _ _ ih => exact ih
  | saved _ _ ih => simp [ih]

theorem Course.append (h : Course fetcher journal s before savings t)
    (h' : Course fetcher journal t later savings' u) :
    Course fetcher journal s (before ++ later) (savings ++ savings') u := by
  induction h with
  | nil => exact h'
  | told telling _ ih => exact .told telling (ih h')
  | saved saving_eq _ ih => exact .saved saving_eq (ih h')

/-- An operation takes these jobs if it does them all, with a result that `R` relates to the
outcomes, or does those in front of one that fails, and fails with that. -/
def Takes (fetcher : FileFetcher σ) (journal : Journal σ) (jobs : List Job) (x : Run σ α)
    (R : List Saving → α → Prop) : Prop :=
  ∀ s, (∃ savings a t, x s = (.ok a, t) ∧ Course fetcher journal s jobs savings t ∧ R savings a) ∨
    ∃ before job later savings u f t, jobs = before ++ job :: later ∧
      Course fetcher journal s before savings u ∧ fetcher.save job.2 job.1 u = (.error f, t) ∧
      x s = (.error f, t)

namespace Takes

variable {jobs : List Job} {x : Run σ α} {k : α → Run σ β} {R : List Saving → α → Prop}
  {R' : List Saving → β → Prop}

theorem pure {a : α} (h : R [] a) : Takes fetcher journal [] (pure a) R := fun s =>
  .inl ⟨[], a, s, rfl, .nil, h⟩

theorem save (job : Job) :
    Takes fetcher journal [job] (fetcher.save job.2 job.1) (fun savings a => savings = [a]) := by
  intro s
  rcases hsave : fetcher.save job.2 job.1 s with ⟨f | a, t⟩
  · exact .inr ⟨[], job, [], [], s, f, t, rfl, .nil, hsave, rfl⟩
  · exact .inl ⟨[a], a, t, rfl, .saved hsave .nil, rfl⟩

theorem tell {view : σ → α} (hjournal : journal.Quiet view) (level : Level) (event : String)
    (fields : Json.Members) :
    Takes fetcher journal [] (journal.tell level event fields) (fun savings _ => savings = []) := by
  intro s
  obtain ⟨t, htell, -⟩ := hjournal level event fields s
  exact .inl ⟨[], (), t, htell, .told htell .nil, rfl⟩

theorem bind {J L : List Job} (hx : Takes fetcher journal J x R)
    (hk : ∀ savings a, savings.length = J.length → R savings a →
      Takes fetcher journal L (k a) fun savings' b => R' (savings ++ savings') b) :
    Takes fetcher journal (J ++ L) (x >>= k) R' := by
  intro s
  rw [bind_apply]
  rcases hx s with ⟨savings, a, t, hrun, hcourse, hR⟩ |
    ⟨done, job, left, savings, u, f, t, hjobs, hcourse, hfail, hrun⟩
  · rw [hrun]
    rcases hk savings a hcourse.length_eq hR t with ⟨savings', b, u, hrun', hcourse', hR'⟩ |
      ⟨done, job, left, savings', u, f, v, hjobs, hcourse', hfail, hrun'⟩
    · exact .inl ⟨savings ++ savings', b, u, hrun', hcourse.append hcourse', hR'⟩
    · refine .inr ⟨J ++ done, job, left, savings ++ savings', u, f, v, ?_,
        hcourse.append hcourse', hfail, hrun'⟩
      rw [hjobs, List.append_assoc]
  · rw [hrun]
    refine .inr ⟨done, job, left ++ L, savings, u, f, t, ?_, hcourse, hfail, rfl⟩
    rw [hjobs, List.append_assoc, List.cons_append]

theorem weaken {R' : List Saving → α → Prop} (hR : ∀ savings a, R savings a → R' savings a)
    (h : Takes fetcher journal jobs x R) : Takes fetcher journal jobs x R' := fun s =>
  (h s).imp_left fun ⟨savings, a, t, hrun, hcourse, hsavings⟩ =>
    ⟨savings, a, t, hrun, hcourse, hR savings a hsavings⟩

end Takes

section Download

variable {view : σ → α}

theorem takes_tellSaving (hjournal : journal.Quiet view) (context : Json.Members) (p : GrabbedPost)
    (target : Path) (saving : Saving) :
    Takes fetcher journal [] (tellSaving (journal.within context) p target saving)
      (fun savings _ => savings = []) := by
  cases saving <;> simp only [tellSaving, Journal.tellFailure, Journal.tell_within] <;>
    exact .tell hjournal _ _ _

theorem takes_savePosts (hjournal : journal.Quiet view) (context : Json.Members) (root : Path)
    (c : Collection) (ps : List GrabbedPost) (report : DownloadReport) :
    Takes fetcher journal (ps.map (FileFetcher.job root c))
      (fetcher.savePosts (journal.within context) (c.directory root) ps report)
      (fun savings r => r = report.countAll (ps.zip savings)) := by
  induction ps generalizing report with
  | nil => exact .pure rfl
  | cons p ps ih =>
    refine .bind (J := [FileFetcher.job root c p]) (.save (FileFetcher.job root c p)) ?_
    rintro _ saving - rfl
    refine .bind (takes_tellSaving hjournal context p _ saving) ?_
    rintro _ _ - rfl
    exact ih (report.count p saving)

theorem takes_saveCollection (hjournal : journal.Quiet view) (root : Path) (c : Collection)
    (report : DownloadReport) :
    Takes fetcher journal (c.posts.map (FileFetcher.job root c))
      (fetcher.saveCollection journal root c report)
      (fun savings r => r = (report.countFull [c]).countAll (c.posts.zip savings)) := by
  unfold saveCollection
  by_cases hnone : c.posts = []
  · rw [if_pos (List.isEmpty_iff.mpr hnone), hnone]
    exact .pure (by simp [DownloadReport.countAll, DownloadReport.countFull, hnone])
  · have hfull : report.countFull [c] = { report with collections := report.collections + 1 } := by
      simp [DownloadReport.countFull, hnone]
    rw [if_neg (by simpa using hnone), hfull]
    refine .bind (J := []) (R := fun savings _ => savings = []) ?_ ?_
    · rw [Journal.tell_within]
      exact .tell hjournal _ _ _
    · rintro _ _ - rfl
      exact takes_savePosts hjournal [("collection", .string c.label)] root c c.posts _

theorem takes_collections (hjournal : journal.Quiet view) (root : Path) (cs : List Collection)
    (report : DownloadReport) :
    Takes fetcher journal (jobs root cs)
      (cs.foldlM (fun report c => fetcher.saveCollection journal root c report) report)
      (fun savings r => r = (report.countFull cs).countAll
        ((cs.flatMap (·.posts)).zip savings)) := by
  -- the jobs and outcomes of the collections add up to those of the run
  induction cs generalizing report with
  | nil => exact .pure rfl
  | cons c cs ih =>
    rw [List.foldlM_cons]
    refine .bind (takes_saveCollection hjournal root c report) ?_
    rintro savings _ hlength rfl
    refine (ih _).weaken ?_
    rintro savings' _ rfl
    have hposts : c.posts.length = savings.length := by rw [hlength, List.length_map]
    rw [List.flatMap_cons, List.zip_append hposts, DownloadReport.countAll_append,
      DownloadReport.countFull_countAll, ← DownloadReport.countFull_append, List.singleton_append]

theorem takes_download (hjournal : journal.Quiet view) (root : Path) (cs : List Collection) :
    Takes fetcher journal (jobs root cs) (fetcher.download journal root cs)
      (fun savings r => r = .ofSavings cs savings) := by
  rw [← List.append_nil (jobs root cs)]
  refine .bind (takes_collections hjournal root cs {}) ?_
  rintro savings _ - rfl
  refine .bind (L := []) (.tell hjournal _ _ _) ?_
  rintro _ _ - rfl
  exact .pure (by rw [List.append_nil, List.append_nil]; rfl)

end Download

end FileFetcher
end Booru
