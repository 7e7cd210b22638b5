import Booru.RunLog
import Booru.Search
import Booru.Proofs.Blacklist.Rounds

/-! Journals that do not get in the way of what they tell about. -/

namespace Booru.Journal

variable {σ τ : Type}

def Quiet (view : σ → τ) (journal : Journal σ) : Prop :=
  ∀ (level : Level) (event : String) (fields : Json.Members) (s : σ), ∃ t,
    journal.tell level event fields s = (.ok (), t) ∧ view t = view s

theorem quiet_silent (view : σ → τ) : Quiet view silent := fun _ _ _ s => ⟨s, rfl, rfl⟩

theorem tell_within (j : Journal σ) (context : Json.Members) (level : Level) (event : String)
    (fields : Json.Members) :
    (j.within context).tell level event fields =
      j.tell level event (Json.Members.overlay context fields) := by
  cases j <;> rfl

end Booru.Journal

/-! Searches side by side: one over a board and a journal, the other over two more that give the
same answers. They come to the same result, and whatever the answers keep alike stays so. -/

namespace Booru

open Run

variable {σ τ : Type} {R : σ → τ → Prop}

structure Board.Alike (R : σ → τ → Prop) (b : Board σ) (b' : Board τ) : Prop where
  isAuthenticated : b.isAuthenticated = b'.isAuthenticated
  fetchBlacklist : Run.Alike R b.fetchBlacklist b'.fetchBlacklist
  lookupUser : ∀ name, Run.Alike R (b.lookupUser name) (b'.lookupUser name)
  searchPosts : ∀ tags page limit,
    Run.Alike R (b.searchPosts tags page limit) (b'.searchPosts tags page limit)
  fetchPost : ∀ post, Run.Alike R (b.fetchPost post) (b'.fetchPost post)
  fetchPool : ∀ pool, Run.Alike R (b.fetchPool pool) (b'.fetchPool pool)
  fetchSet : ∀ set, Run.Alike R (b.fetchSet set) (b'.fetchSet set)

def Journal.Alike (R : σ → τ → Prop) (j : Journal σ) (j' : Journal τ) : Prop :=
  ∀ level event fields, Run.Alike R (j.tell level event fields) (j'.tell level event fields)

structure SearchPlan.Alike (R : σ → τ → Prop) (plan : SearchPlan σ)
    (plan' : SearchPlan τ) : Prop where
  blacklist : plan.blacklist = plan'.blacklist
  maxPages : plan.maxPages = plan'.maxPages
  postsPerPage : plan.postsPerPage = plan'.postsPerPage
  budget : plan.budget = plan'.budget
  journal : Journal.Alike R plan.journal plan'.journal

namespace SearchPlan

theorem run_eq (plan : SearchPlan σ) (board : Board σ) (tags : String) :
    plan.run board tags = if plan.maxPages < 0 then throw (.argument .negativePages) else (do
      let r ← plan.pagesFrom board tags
        (if plan.maxPages = 0 then plan.budget else plan.maxPages.toNat) 1 {}
      plan.journal.tell .info "search_completed" (completedEvent tags r)
      pure r) := by
  unfold run
  split <;> rfl

namespace Alike

variable {plan : SearchPlan σ} {plan' : SearchPlan τ} {board : Board σ} {board' : Board τ}

theorem exhaustive (h : plan.Alike R plan') :
    SearchPlan.Alike R { plan with maxPages := 0 } { plan' with maxPages := 0 } :=
  ⟨h.blacklist, rfl, h.postsPerPage, h.budget, h.journal⟩

theorem pagesFrom (h : plan.Alike R plan') (hboard : board.Alike R board')
    (tags : String) (left page : Nat) (found : SearchResult) :
    Run.Alike R (plan.pagesFrom board tags left page found)
      (plan'.pagesFrom board' tags left page found) := by
  induction left generalizing page found with
  | zero =>
    simp only [SearchPlan.pagesFrom, h.maxPages]
    split
    · exact .throw _
    · exact .pure _
  | succ left ih =>
    simp only [SearchPlan.pagesFrom, h.postsPerPage, h.blacklist]
    refine .bind (hboard.searchPosts _ _ _) fun items => ?_
    split
    · exact .pure _
    · exact .bind (.lift _) fun r => .bind (h.journal _ _ _) fun _ => ih _ _

theorem run (h : plan.Alike R plan') (hboard : board.Alike R board') (tags : String) :
    Run.Alike R (plan.run board tags) (plan'.run board' tags) := by
  rw [run_eq, run_eq, h.maxPages, h.budget]
  split
  · exact .throw _
  · exact .bind (h.pagesFrom hboard tags _ _ _) fun r => .bind (h.journal _ _ _) fun _ => .pure r

end Alike

end SearchPlan

theorem Board.Alike.sessionBlacklist {board : Board σ} {board' : Board τ} (h : board.Alike R board')
    (wanted : Settings.Hiding) {j : Journal σ} {j' : Journal τ} (hj : Journal.Alike R j j') :
    Run.Alike R (board.sessionBlacklist wanted j) (board'.sessionBlacklist wanted j') := by
  have hskip (reason : String) : Run.Alike R
      (j.tell .info "blacklist_skipped" [("reason", .string reason)] >>= fun _ =>
        pure (none : Option Blacklist))
      (j'.tell .info "blacklist_skipped" [("reason", .string reason)] >>= fun _ => pure none) :=
    .bind (hj _ _ _) fun _ => .pure none
  have hload (b : Blacklist) := (Blacklist.alike_resolve h.lookupUser b).bind fun resolved =>
    (hj .info "blacklist_loaded" [("lines", .int resolved.1.lines.length),
      ("extra_lines", .int wanted.extraLines.length)]).bind fun _ => .pure (some resolved.1)
  unfold Board.sessionBlacklist
  simp only [h.isAuthenticated]
  split
  · exact hskip _
  split
  · exact hskip _
  split
  · refine .bind h.fetchBlacklist fun profile => .bind (.lift _) fun blacklist => ?_
    split
    · exact hskip _
    · exact hload blacklist
  · refine .bind (.pure _) fun profile => .bind (.lift _) fun blacklist => ?_
    split
    · exact hskip _
    · exact hload blacklist

end Booru
