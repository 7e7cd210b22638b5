import Booru.Proofs.Grabber.Alike

/-! What a grabber is told from outside while it works: the items that the board gives, and the
failures of board and journal. A grabber whose board and journal take notes of this does exactly
what it does without. -/

namespace Booru

variable {σ α : Type}

inductive Reply
  | item (v : Json)
  | failure (f : Failure)

abbrev Noted (σ : Type) := σ × List Reply

def Reply.ofResult (items : α → List Json) : Except Failure α → List Reply
  | .ok a => (items a).map .item
  | .error f => [.failure f]

def Run.noted (items : α → List Json) (x : Run σ α) : Run (Noted σ) α := fun s =>
  let (r, t) := x s.1
  (r, t, s.2 ++ Reply.ofResult items r)

def Board.noted (b : Board σ) : Board (Noted σ) where
  isAuthenticated := b.isAuthenticated
  fetchBlacklist := b.fetchBlacklist.noted fun _ => []
  lookupUser := fun name => (b.lookupUser name).noted fun _ => []
  searchPosts := fun tags page limit => (b.searchPosts tags page limit).noted id
  fetchPost := fun post => (b.fetchPost post).noted fun item => [item]
  fetchPool := fun pool => (b.fetchPool pool).noted fun _ => []
  fetchSet := fun set => (b.fetchSet set).noted fun _ => []

def Journal.noted (j : Journal σ) : Journal (Noted σ) :=
  j.map fun write level event fields => (write level event fields).noted fun _ => []

def SearchPlan.noted (plan : SearchPlan σ) : SearchPlan (Noted σ) :=
  { plan with journal := plan.journal.noted }

def Grabber.noted (g : Grabber σ) : Grabber (Noted σ) :=
  { g with board := g.board.noted, search := g.search.noted }

namespace Run

theorem Ensures.noted {items : α → List Json} {x : Run σ α} {P : Noted σ → Prop}
    {Q : α → Noted σ → Prop}
    {E : Failure → Noted σ → Prop}
    (hok : ∀ s, P s → ∀ a t, Q a (t, s.2 ++ (items a).map .item))
    (herr : ∀ s, P s → ∀ f t, E f (t, s.2 ++ [.failure f])) : Ensures P (x.noted items) Q E := by
  intro s hs
  simp only [Run.noted]
  rcases x s.1 with ⟨f | a, t⟩
  · exact herr s hs f t
  · exact hok s hs a t

theorem Alike.noted (items : α → List Json) (x : Run σ α) :
    Alike (fun s t => s.1 = t) (x.noted items) x := by
  rintro s _ rfl
  exact ⟨rfl, rfl⟩

end Run

namespace Gathering

open Run

def forget (s : Noted σ × Haul) : σ × Haul := (s.1.1, s.2)

theorem ensures_outside {σ : Type} {x : Run σ α} {P : σ × Haul → Prop} {Q : α → σ × Haul → Prop}
    {E : Failure → σ × Haul → Prop}
    (h : ∀ haul, Ensures (fun s => P (s, haul)) x (fun a s => Q a (s, haul))
      fun f s => E f (s, haul)) :
    Ensures P (outside x) Q E := by
  intro s hs
  have hx := h s.2 s.1 hs
  simp only [outside]
  rcases hr : x s.1 with ⟨f | a, t⟩ <;> simpa only [hr] using hx

end Gathering

theorem Journal.alike_noted (j : Journal σ) : Journal.Alike (fun s t => s.1 = t) j.noted j := by
  cases j with
  | none => exact fun _ _ _ => .pure ()
  | some write => exact fun _ _ _ => .noted _ _

theorem Board.alike_noted (b : Board σ) : b.noted.Alike (fun s t => s.1 = t) b where
  isAuthenticated := rfl
  fetchBlacklist := .noted _ _
  lookupUser := fun _ => .noted _ _
  searchPosts := fun _ _ _ => .noted _ _
  fetchPost := fun _ => .noted _ _
  fetchPool := fun _ => .noted _ _
  fetchSet := fun _ => .noted _ _

theorem Grabber.alike_noted (g : Grabber σ) : g.noted.Alike (fun s t => s.1 = t) g where
  board := g.board.alike_noted
  search := ⟨rfl, rfl, rfl, rfl, g.search.journal.alike_noted⟩
  safeMode := rfl
  naming := rfl

end Booru

/-! Runs of a grabber: calls one after the other, in any order, each going on from the state that
the one before left behind, whether that one failed or not. -/

namespace Booru.Grabber

open Run Gathering

variable {σ : Type}

inductive Call
  | general (tags : String)
  | artist (name : String)
  | favorites (username : String)
  | pool (id : Int)
  | set (id : Int)
  | post (id : Int)
  | all (declared : Settings.Download) (username : String)

def Call.perform (g : Grabber σ) : Call → Gathering σ Unit
  | .general tags => discard (g.grabGeneral tags)
  | .artist name => discard (g.grabArtist name)
  | .favorites username => discard (g.grabFavorites username)
  | .pool id => discard (g.grabPool id)
  | .set id => discard (g.grabSet id)
  | .post id => discard (g.grabPost id)
  | .all declared username => discard (g.grabAll declared username)

def after (g : Grabber σ) (s : σ × Haul) (c : Call) : σ × Haul := (c.perform g s).2

def repliesTo (g : Grabber σ) (s : σ × Haul) (c : Call) : List Reply :=
  (c.perform g.noted ((s.1, []), s.2)).2.1.2

def afterAll (g : Grabber σ) (s : σ × Haul) (calls : List Call) : σ × Haul := calls.foldl g.after s

/-- The replies from outside during a run. -/
def replies (g : Grabber σ) : σ × Haul → List Call → List Reply
  | _, [] => []
  | s, c :: calls => g.repliesTo s c ++ g.replies (g.after s c) calls

theorem Alike.perform {τ : Type} {R : σ → τ → Prop} {g : Grabber σ} {g' : Grabber τ}
    (h : g.Alike R g') (c : Call) :
    Run.Alike (Even R) (c.perform g) (c.perform g') := by
  cases c with
  | general tags => exact .discard (h.grabSearch _ _ _ _)
  | artist name => exact .discard (h.grabSearch _ _ _ _)
  | favorites username => exact .discard (h.grabSearch _ _ _ _)
  | pool id => exact .discard (h.grabPool id)
  | set id => exact .discard (h.grabSet id)
  | post id => exact .discard (h.grabPost id)
  | all declared username => exact .discard (h.grabAll declared username)

theorem shadows_perform (g : Grabber σ) (c : Call) :
    Shadows forget (c.perform g.noted) (c.perform g) := by
  intro s
  obtain ⟨hresult, hend, hhaul⟩ := g.alike_noted.perform c s (forget s) ⟨rfl, rfl⟩
  exact Prod.ext hresult.symm (Prod.ext hend.symm hhaul.symm)

end Booru.Grabber
