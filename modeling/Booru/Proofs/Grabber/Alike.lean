import Booru.Grabber
import Booru.Proofs.Search.Alike

/-! Grabbers side by side, over boards that give the same answers: they gather the same. -/

namespace Booru

variable {σ τ α : Type} {R : σ → τ → Prop}

namespace Gathering

open Run

def Even (R : σ → τ → Prop) (s : σ × Haul) (t : τ × Haul) : Prop := R s.1 t.1 ∧ s.2 = t.2

theorem alike_outside {x : Run σ α} {y : Run τ α} (h : Alike R x y) :
    Alike (Even R) (outside x) (outside y) := by
  rintro ⟨s, haul⟩ ⟨t, _⟩ ⟨hst, rfl⟩
  obtain ⟨hresult, hend⟩ := h s t hst
  exact ⟨hresult, hend, rfl⟩

theorem alike_change (f : Haul → Haul) :
    Alike (Even R) (change f : Gathering σ Unit) (change f : Gathering τ Unit) :=
  fun _ _ h => ⟨rfl, h.1, congrArg f h.2⟩

end Gathering

structure Grabber.Alike (R : σ → τ → Prop) (g : Grabber σ) (g' : Grabber τ) : Prop where
  board : g.board.Alike R g'.board
  search : g.search.Alike R g'.search
  safeMode : g.safeMode = g'.safeMode
  naming : g.naming = g'.naming

namespace Grabber

open Run Gathering

theorem grabAll_eq (g : Grabber σ) (d : Settings.Download) (username : String) :
    g.grabAll d username = (do
      (if d.favorites && !username.isEmpty then discard (g.grabFavorites username) else pure ())
      d.artists.forM fun artist => discard (g.grabArtist artist)
      d.general.forM fun tags => discard (g.grabGeneral tags)
      d.pools.forM fun id => discard (g.grabPool id)
      d.sets.forM fun id => discard (g.grabSet id)
      d.posts.forM fun id => discard (g.grabPost id)
      pure (← get).2.collections) := by
  unfold grabAll
  by_cases h : (d.favorites && !username.isEmpty) = true
  · rw [if_pos h, if_pos h]
  · rw [if_neg h, if_neg h, pure_bind]

namespace Alike

variable {g : Grabber σ} {g' : Grabber τ} (h : g.Alike R g')
include h

theorem postsOf (tags : String) (exhaustive : Bool) :
    Run.Alike (Even R) (g.postsOf tags exhaustive) (g'.postsOf tags exhaustive) := by
  unfold Grabber.postsOf
  refine .bind (alike_outside ?_) fun r => .bind (alike_change _) fun _ => .pure _
  cases exhaustive
  · exact h.search.run h.board tags
  · exact h.search.exhaustive.run h.board tags

theorem add (c : Collection) : Run.Alike (Even R) (g.add c) (g'.add c) :=
  .bind (alike_change _) fun _ => .bind (alike_outside (h.search.journal _ _ _)) fun _ => .pure c

theorem grabSearch (tags name category : String) (exhaustive : Bool) :
    Run.Alike (Even R) (g.grabSearch tags name category exhaustive)
      (g'.grabSearch tags name category exhaustive) := by
  unfold Grabber.grabSearch
  rw [h.naming]
  exact .bind (h.postsOf _ _) fun _ => .bind (.lift _) fun _ => h.add _

theorem grabPool (id : Int) : Run.Alike (Even R) (g.grabPool id) (g'.grabPool id) :=
  .bind (alike_outside (h.board.fetchPool _)) fun _ =>
    .bind (h.postsOf _ _) fun _ => .bind (.lift _) fun _ => h.add _

theorem grabSet (id : Int) : Run.Alike (Even R) (g.grabSet id) (g'.grabSet id) :=
  .bind (alike_outside (h.board.fetchSet _)) fun _ => h.grabSearch _ _ _ _

theorem skip_eq (p : Post) : g.skip? p = g'.skip? p := by
  simp only [skip?, blacklist, h.safeMode, h.search.blacklist]

theorem grabPost (id : Int) : Run.Alike (Even R) (g.grabPost id) (g'.grabPost id) := by
  unfold Grabber.grabPost
  refine .bind (alike_outside (h.board.fetchPost _)) fun item => .bind (.lift _) fun post? => ?_
  cases post? with
  | none => exact .throw _
  | some post =>
    dsimp only
    rw [h.skip_eq, h.naming]
    refine .bind (.lift _) fun skip? => ?_
    cases skip? with
    | some reason =>
      exact .bind (alike_change _) fun _ =>
        .bind (alike_outside (h.search.journal _ _ _)) fun _ => .pure _
    | none =>
      exact .bind (.lift _) fun _ => .bind (alike_change _) fun _ =>
        .bind (alike_outside (h.search.journal _ _ _)) fun _ => .pure _

theorem grabAll (d : Settings.Download) (username : String) :
    Run.Alike (Even R) (g.grabAll d username) (g'.grabAll d username) := by
  rw [grabAll_eq, grabAll_eq]
  refine .bind ?_ fun _ => ?_
  · split
    · exact .discard (h.grabSearch _ _ _ _)
    · exact .pure ()
  refine .bind (.forM _ fun artist => .discard (h.grabSearch _ _ _ _)) fun _ => ?_
  refine .bind (.forM _ fun tags => .discard (h.grabSearch _ _ _ _)) fun _ => ?_
  refine .bind (.forM _ fun id => .discard (h.grabPool id)) fun _ => ?_
  refine .bind (.forM _ fun id => .discard (h.grabSet id)) fun _ => ?_
  refine .bind (.forM _ fun id => .discard (h.grabPost id)) fun _ => ?_
  rintro ⟨s, haul⟩ ⟨t, _⟩ ⟨hst, rfl⟩
  exact ⟨rfl, hst, rfl⟩

end Alike

end Grabber
end Booru
