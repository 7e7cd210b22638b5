import Mathlib.Data.List.Perm.Basic
import Booru.Failure

/-! Reasoning about operations that change a state and may fail: what they end in, from which
states, and when one operation does on a larger state what another does on a part of it. Of results
in a row, the first failure counts. -/

namespace Booru.Run

variable {σ τ α β : Type}

theorem bind_apply (x : Run σ α) (k : α → Run σ β) (s : σ) :
    (x >>= k) s = match x s with
      | (.ok a, t) => k a t
      | (.error f, t) => (.error f, t) := by
  simp only [bind, ExceptT.bind, ExceptT.mk, StateT.bind]
  rcases x s with ⟨_ | _, _⟩
  · rfl
  · rfl

theorem tryCatch_apply (x : Run σ α) (k : Failure → Run σ α) (s : σ) :
    tryCatch x k s = match x s with
      | (.ok a, t) => (.ok a, t)
      | (.error f, t) => k f t := by
  simp only [tryCatch, tryCatchThe, MonadExceptOf.tryCatch, ExceptT.tryCatch, ExceptT.mk, bind,
    StateT.bind]
  rcases x s with ⟨_ | _, _⟩
  · rfl
  · rfl

theorem throw_bind (f : Failure) (k : α → Run σ β) : (throw f >>= k) = throw f := rfl

section Mapped

variable {ε : Type} {e : τ} {f : ε} {r : Except τ α} {g : τ → ε} {a : α}

@[simp] theorem mapError_ok : (Except.ok a : Except τ α).mapError g = .ok a := rfl

@[simp] theorem mapError_error : (Except.error e : Except τ α).mapError g = .error (g e) := rfl

theorem mapError_eq_ok : r.mapError g = .ok a ↔ r = .ok a := by
  cases r <;> simp

theorem mapError_eq_error : r.mapError g = .error f ↔ ∃ e, r = .error e ∧ g e = f := by
  cases r <;> simp

end Mapped

theorem exists_ok {r : Except Failure α × σ} (P : α → σ → Prop) [∀ a t, Decidable (P a t)]
    (h : (match r with | (.ok a, t) => decide (P a t) | _ => false) = true) :
    ∃ a t, r = (.ok a, t) ∧ P a t := by
  split at h
  · exact ⟨_, _, rfl, of_decide_eq_true h⟩
  · cases h

/-- From every state with `P` on, the operation ends in `Q` with its result or in `E` with its
failure. -/
def Ensures (P : σ → Prop) (x : Run σ α) (Q : α → σ → Prop) (E : Failure → σ → Prop) : Prop :=
  ∀ s, P s → match x s with
    | (.ok a, t) => Q a t
    | (.error f, t) => E f t

namespace Ensures

variable {P P' : σ → Prop} {Q Q' : α → σ → Prop} {E : Failure → σ → Prop}

theorem pure {a : α} (h : ∀ s, P s → Q a s) : Ensures P (pure a : Run σ α) Q E := h

theorem throw {f : Failure} (h : ∀ s, P s → E f s) : Ensures P (throw f : Run σ α) Q E := h

theorem modify {g : σ → σ} {Q : Unit → σ → Prop} (h : ∀ s, P s → Q () (g s)) :
    Ensures P (modify g : Run σ Unit) Q E := h

theorem weaken (hP : ∀ s, P' s → P s) (hQ : ∀ a s, Q a s → Q' a s) (h : Ensures P x Q E) :
    Ensures P' x Q' E := by
  intro s hs
  have hx := h s (hP s hs)
  rcases hr : x s with ⟨_ | a, t⟩ <;> simp only [hr] at hx ⊢
  · exact hx
  · exact hQ a t hx

theorem weakenError {E' : Failure → σ → Prop} (hE : ∀ f s, E f s → E' f s) (h : Ensures P x Q E) :
    Ensures P x Q E' := by
  intro s hs
  have hx := h s hs
  rcases hr : x s with ⟨f | a, t⟩ <;> simp only [hr] at hx ⊢
  · exact hE f t hx
  · exact hx

theorem bind {R : β → σ → Prop} {x : Run σ α} {k : α → Run σ β} (hx : Ensures P x Q E)
    (hk : ∀ a, Ensures (Q a) (k a) R E) : Ensures P (x >>= k) R E := by
  intro s hs
  rw [bind_apply]
  have h := hx s hs
  rcases hr : x s with ⟨_ | a, t⟩ <;> simp only [hr] at h ⊢
  · exact h
  · exact hk a t h

theorem tryCatch {x : Run σ α} {k : Failure → Run σ α} {E' : Failure → σ → Prop}
    (hx : Ensures P x Q E')
    (hk : ∀ f, Ensures (E' f) (k f) Q E) : Ensures P (tryCatch x k) Q E := by
  intro s hs
  rw [tryCatch_apply]
  have h := hx s hs
  rcases hr : x s with ⟨f | a, t⟩ <;> simp only [hr] at h ⊢
  · exact hk f t h
  · exact h

theorem of_ok (h : ∀ s a t, P s → x s = (.ok a, t) → Q a t) : Ensures P x Q fun _ _ => True := by
  intro s hs
  rcases hr : x s with ⟨f | a, t⟩
  · trivial
  · exact h s a t hs hr

theorem ok {s t : σ} {a : α} (h : Ensures P x Q E) (hs : P s) (hr : x s = (.ok a, t)) : Q a t := by
  have hend := h s hs
  rwa [hr] at hend

theorem error {s t : σ} {f : Failure} (h : Ensures P x Q E) (hs : P s) (hr : x s = (.error f, t)) :
    E f t := by
  have hend := h s hs
  rwa [hr] at hend

theorem result {s : σ} (h : Ensures P x Q E) (hs : P s) :
    Ensures (· = s) x (fun a t => Q a t ∧ x s = (.ok a, t)) fun f t => E f t ∧
    x s = (.error f, t) := by
  rintro _ rfl
  have hend := h _ hs
  rcases hr : x _ with ⟨f | a, t⟩ <;> rw [hr] at hend
  · exact ⟨hend, rfl⟩
  · exact ⟨hend, rfl⟩

theorem lift {r : Except Failure α} (hok : ∀ a, r = .ok a → ∀ s, P s → Q a s)
    (herr : ∀ f, r = .error f → ∀ s, P s → E f s) : Ensures P (Run.lift r) Q E := by
  intro s hs
  cases r with
  | ok a => exact hok a rfl s hs
  | error f => exact herr f rfl s hs

theorem discard {Q : Unit → σ → Prop} {x : Run σ α} (h : Ensures P x (fun _ => Q ()) E) :
    Ensures P (discard x) Q E :=
  h.bind fun _ => pure fun _ h => h

theorem of_state {x : Run σ α} {P' : σ → Prop} (h : ∀ s, P s → P' (x s).2) :
    Ensures P x (fun _ => P') fun _ => P' := by
  intro s hs
  have hend := h s hs
  rcases hr : x s with ⟨_ | _, t⟩ <;> rw [hr] at hend <;> exact hend

theorem state {P' : σ → Prop} (h : Ensures P x (fun _ => P') fun _ => P') {s : σ} (hs : P s) :
    P' (x s).2 := by
  have hend := h s hs
  rcases hr : x s with ⟨_ | _, t⟩ <;> rwa [hr] at hend

theorem forM {f : β → Run σ Unit} (xs : List β) (h : ∀ b, Ensures P (f b) (fun _ => P) E) :
    Ensures P (xs.forM f) (fun _ => P) E := by
  induction xs with
  | nil => exact pure fun _ hs => hs
  | cons b rest ih => exact (h b).bind fun _ => ih

end Ensures

/-- `P` is kept, also by a failure; the result is in `Q`, the failure in `F`. -/
structure Upholds (P : σ → Prop) (x : Run σ α) (Q : α → Prop) (F : Failure → Prop) : Prop where
  ensures : Ensures P x (fun a s => P s ∧ Q a) fun f s => P s ∧ F f

namespace Upholds

variable {P : σ → Prop} {Q Q' : α → Prop} {F G : Failure → Prop} {x : Run σ α}

theorem of_error (h : ∀ s f t, x s = (.error f, t) → F f) :
    Upholds (fun _ => True) x (fun _ => True) F := by
  refine ⟨fun s _ => ?_⟩
  rcases hr : x s with ⟨f | _, t⟩
  · exact ⟨trivial, h s f t hr⟩
  · exact ⟨trivial, trivial⟩

theorem any (x : Run σ α) : Upholds (fun _ => True) x (fun _ => True) fun _ => True :=
  of_error fun _ _ _ _ => trivial

theorem pure {a : α} (h : Q a) : Upholds P (pure a : Run σ α) Q F := ⟨.pure fun _ hs => ⟨hs, h⟩⟩

theorem throw {f : Failure} (h : F f) : Upholds P (throw f : Run σ α) Q F :=
  ⟨.throw fun _ hs => ⟨hs, h⟩⟩

theorem lift {r : Except Failure α} (hok : ∀ a, r = .ok a → Q a) (herr : ∀ f, r = .error f → F f) :
    Upholds P (Run.lift r) Q F :=
  ⟨.lift (fun a ha _ hs => ⟨hs, hok a ha⟩) fun f hf _ hs => ⟨hs, herr f hf⟩⟩

theorem modify {g : σ → σ} (h : ∀ s, P s → P (g s)) :
    Upholds P (modify g : Run σ Unit) (fun _ => True) F :=
  ⟨.modify fun s hs => ⟨h s hs, trivial⟩⟩

theorem weaken (hQ : ∀ a, Q a → Q' a) (h : Upholds P x Q F) : Upholds P x Q' F :=
  ⟨h.ensures.weaken (fun _ hs => hs) fun a _ hs => ⟨hs.1, hQ a hs.2⟩⟩

theorem weakenError (hF : ∀ f, F f → G f) (h : Upholds P x Q F) : Upholds P x Q G :=
  ⟨h.ensures.weakenError fun f _ hs => ⟨hs.1, hF f hs.2⟩⟩

theorem bind {R : β → Prop} {k : α → Run σ β} (hx : Upholds P x Q F)
    (hk : ∀ a, Q a → Upholds P (k a) R F) : Upholds P (x >>= k) R F :=
  ⟨hx.ensures.bind fun a s hs => (hk a hs.2).ensures s hs.1⟩

theorem tryCatch {k : Failure → Run σ α} (hx : Upholds P x Q G)
    (hk : ∀ f, G f → Upholds P (k f) Q F) :
    Upholds P (tryCatch x k) Q F :=
  ⟨hx.ensures.tryCatch fun f s hs => (hk f hs.2).ensures s hs.1⟩

theorem discard (h : Upholds P x Q F) : Upholds P (discard x) (fun _ => True) F :=
  h.bind fun _ _ => .pure trivial

theorem forM {f : β → Run σ Unit} (xs : List β) (h : ∀ b, Upholds P (f b) (fun _ => True) F) :
    Upholds P (xs.forM f) (fun _ => True) F := by
  induction xs with
  | nil => exact .pure trivial
  | cons b rest ih => exact (h b).bind fun _ _ => ih

theorem ok {s t : σ} {a : α} (h : Upholds P x Q F) (hs : P s) (hr : x s = (.ok a, t)) : Q a := by
  have hend := h.ensures s hs
  rw [hr] at hend
  exact hend.2

theorem error {s t : σ} {f : Failure} (h : Upholds P x Q F) (hs : P s) (hr : x s = (.error f, t)) :
    F f := by
  have hend := h.ensures s hs
  rw [hr] at hend
  exact hend.2

end Upholds

/-- From states in `R` on, the two operations come to the same result, in states in `R`. -/
def Alike (R : σ → τ → Prop) (x : Run σ α) (y : Run τ α) : Prop :=
  ∀ s t, R s t → (x s).1 = (y t).1 ∧ R (x s).2 (y t).2

namespace Alike

variable {R : σ → τ → Prop}

theorem pure (a : α) : Alike R (pure a) (pure a) := fun _ _ h => ⟨rfl, h⟩

theorem throw (f : Failure) : Alike R (throw f : Run σ α) (throw f) := fun _ _ h => ⟨rfl, h⟩

theorem lift (r : Except Failure α) : Alike R (Run.lift r) (Run.lift r) := fun _ _ h => ⟨rfl, h⟩

theorem bind {x : Run σ α} {y : Run τ α} {k : α → Run σ β} {l : α → Run τ β}
    (h : Alike R x y) (hk : ∀ a, Alike R (k a) (l a)) : Alike R (x >>= k) (y >>= l) := by
  intro s t hst
  have hx := h s t hst
  rw [bind_apply, bind_apply]
  generalize x s = end₁ at hx ⊢
  generalize y t = end₂ at hx ⊢
  obtain ⟨_ | a, s'⟩ := end₁ <;> obtain ⟨_ | b, t'⟩ := end₂ <;> obtain ⟨⟨⟩, hend⟩ := hx
  · exact ⟨rfl, hend⟩
  · exact hk a s' t' hend

theorem tryCatch {x : Run σ α} {y : Run τ α} {k : Failure → Run σ α} {l : Failure → Run τ α}
    (h : Alike R x y) (hk : ∀ f, Alike R (k f) (l f)) : Alike R (tryCatch x k) (tryCatch y l) := by
  intro s t hst
  have hx := h s t hst
  rw [tryCatch_apply, tryCatch_apply]
  generalize x s = end₁ at hx ⊢
  generalize y t = end₂ at hx ⊢
  obtain ⟨f | _, s'⟩ := end₁ <;> obtain ⟨g | _, t'⟩ := end₂ <;> obtain ⟨⟨⟩, hend⟩ := hx
  · exact hk f s' t' hend
  · exact ⟨rfl, hend⟩

theorem discard {x : Run σ α} {y : Run τ α} (h : Alike R x y) : Alike R (discard x) (discard y) :=
  h.bind fun _ => pure ()

theorem forM {f : β → Run σ Unit} {g : β → Run τ Unit} (xs : List β)
    (h : ∀ b, Alike R (f b) (g b)) :
    Alike R (xs.forM f) (xs.forM g) := by
  induction xs with
  | nil => exact pure ()
  | cons b rest ih => exact (h b).bind fun _ => ih

end Alike

/-- On the part of its state that `part` shows, `y` does what `x` does. -/
def Shadows (part : τ → σ) (y : Run τ α) (x : Run σ α) : Prop :=
  ∀ t, x (part t) = ((y t).1, part (y t).2)

theorem shadows_iff_alike {part : τ → σ} {y : Run τ α} {x : Run σ α} :
    Shadows part y x ↔ Alike (fun t s => part t = s) y x := by
  constructor
  · rintro h t _ rfl
    rw [h t]
    exact ⟨rfl, rfl⟩
  · intro h t
    obtain ⟨hresult, hend⟩ := h t _ rfl
    exact Prod.ext hresult.symm hend.symm

section Results

variable {ε : Type} {g : α → Except ε β} {x : α} {xs ys : List α} {e : ε} {r : Except ε α} {b : β}

theorem bind_eq_ok : r >>= g = .ok b ↔ ∃ a, r = .ok a ∧ g a = .ok b := by
  cases r <;> simp [bind, Except.bind]

theorem bind_eq_error : r >>= g = .error e ↔ r = .error e ∨ ∃ a, r = .ok a ∧ g a = .error e := by
  cases r <;> simp [bind, Except.bind]

theorem mapM_eq_ok_iff {zs : List β} : xs.mapM g = .ok zs ↔
    List.Forall₂ (fun x z => g x = .ok z) xs zs := by
  induction xs generalizing zs with
  | nil => cases zs <;> simp [pure, Except.pure]
  | cons x xs ih =>
    rw [List.mapM_cons]
    cases hx : g x with
    | error e => cases zs <;> simp [bind, Except.bind, hx]
    | ok y => cases hxs : xs.mapM g <;> cases zs <;>
      simp [bind, Except.bind, pure, Except.pure, ← ih, hx, hxs]

theorem exists_of_mapM {zs : List β} (h : xs.mapM g = .ok zs) :
    ∀ z ∈ zs, ∃ x ∈ xs, g x = .ok z := by
  intro z hz
  obtain ⟨i, hi, rfl⟩ := List.mem_iff_getElem.mp hz
  have hall := mapM_eq_ok_iff.mp h
  have hx : i < xs.length := hall.length_eq ▸ hi
  exact ⟨xs[i], List.getElem_mem hx, hall.get hx hi⟩

theorem mapM_cons_eq_error :
    (x :: xs).mapM g = .error e ↔ g x = .error e ∨ ∃ y, g x = .ok y ∧ xs.mapM g = .error e := by
  rw [List.mapM_cons]
  cases g x <;> cases xs.mapM g <;> simp [bind, Except.bind, pure, Except.pure]

theorem mapM_append_eq_error :
    (xs ++ ys).mapM g = .error e ↔ xs.mapM g = .error e ∨ ∃ zs, xs.mapM g = .ok zs ∧
    ys.mapM g = .error e := by
  rw [List.mapM_append]
  cases xs.mapM g <;> cases ys.mapM g <;> simp [bind, Except.bind, pure, Except.pure]

theorem exists_first_error (h : xs.mapM g = .error e) : ∃ front x back zs,
    xs = front ++ x :: back ∧ front.mapM g = .ok zs ∧ g x = .error e := by
  induction xs with
  | nil => cases h
  | cons x xs ih =>
    obtain hx | ⟨z, hz, hxs⟩ := mapM_cons_eq_error.mp h
    · exact ⟨[], x, xs, [], rfl, rfl, hx⟩
    · obtain ⟨front, y, back, zs, rfl, hfront, hy⟩ := ih hxs
      exact ⟨x :: front, y, back, z :: zs, rfl, by rw [List.mapM_cons, hz, hfront]; rfl, hy⟩

theorem exists_of_mapM_error (h : xs.mapM g = .error e) : ∃ x ∈ xs, g x = .error e := by
  obtain ⟨front, x, back, -, rfl, -, hx⟩ := exists_first_error h
  exact ⟨x, by simp, hx⟩

theorem mapM_perm {zs : List β} (h : xs.mapM g = .ok zs) (hperm : ys.Perm xs) :
    ∃ ws, ys.mapM g = .ok ws ∧ ws.Perm zs := by
  obtain ⟨ws, hws, hperm'⟩ := List.perm_comp_forall₂ hperm (mapM_eq_ok_iff.mp h)
  exact ⟨ws, mapM_eq_ok_iff.mpr hws, hperm'⟩

end Results

end Booru.Run
