import Booru.Client
import Booru.Proofs.Run

/-! How a request ends, whatever the server does. If all that comes back are answers and failures of
requests, then the last response or the last failure is one of these, or a wait that the server asks
for is beyond all bounds. -/

namespace Booru

open Run

def Chunk.Honest (chunk : Chunk) : Prop := ∀ fault, chunk = .error fault →
    fault.kind.isRequest = true

def Exchange.Honest : Exchange → Prop
  | .ok a => ∀ chunk ∈ a.body, chunk.Honest
  | .error fault => fault.kind.isRequest = true

namespace Script

def Honest : Script → Prop
  | .inOrder left otherwise => (∀ e ∈ left, Exchange.Honest e) ∧ Exchange.Honest otherwise
  | .byKey routes otherwise => (∀ r ∈ routes, ∀ e ∈ r.2, Exchange.Honest e) ∧
    Exchange.Honest otherwise

theorem rest_subset (es : List Exchange) : rest es ⊆ es := by
  match es with
  | [] => exact List.Subset.refl _
  | [e] => exact List.Subset.refl _
  | _ :: e :: es => exact List.subset_cons_self _ _

theorem honest_next {script : Script} (h : script.Honest) (key : String) :
    Exchange.Honest (script.next key).1 ∧ (script.next key).2.Honest := by
  match script with
  | .inOrder [] otherwise => exact ⟨h.2, h⟩
  | .inOrder (e :: es) otherwise =>
    exact ⟨h.1 e List.mem_cons_self, fun e he => h.1 e (List.mem_cons_of_mem _ he), h.2⟩
  | .byKey routes otherwise =>
    simp only [next]
    cases hroute : (routes.lookup key).bind List.head? with
    | none => exact ⟨h.2, h⟩
    | some e =>
      obtain ⟨es, hes, he⟩ := Option.bind_eq_some_iff.mp hroute
      obtain ⟨before, after, rfl, -⟩ := List.lookup_eq_some_iff.mp hes
      refine ⟨h.1 (key, es) (by simp) e (List.mem_of_head? he), ?_, h.2⟩
      refine List.forall_mem_map.mpr fun r hr e he => ?_
      split at he
      · exact h.1 r hr e (rest_subset _ he)
      · exact h.1 r hr e he

end Script

namespace Retry

variable {σ α : Type}

theorem Policy.verdict_error (p : Policy α) {readHint : String → Except Failure (Option α)}
    {f g : Failure} (h : p.verdict readHint f = .error g) : ∃ value, readHint value = .error g := by
  unfold verdict at h
  split at h
  · rename_i r
    split at h
    · cases hheader : r.header? "Retry-After" with
      | none => simp [hheader, Except.map] at h
      | some value =>
        cases hread : readHint value with
        | ok hint => simp [hheader, hread, Except.map] at h
        | error e =>
          simp only [hheader, hread, Except.map, Except.error.injEq] at h
          exact ⟨value, by rw [hread, h]⟩
    · cases h
  · split at h
    · cases h
    · split at h
      · cases h
      · split at h <;> cases h

namespace Surroundings

/-- Between the attempts nothing fails but that a wait goes beyond all bounds, and `P` is kept. -/
structure Keeps (w : Surroundings σ α) (P : σ → Prop) (Good : Response → Prop) : Prop where
  asked : Ensures P w.ask (fun r s => P s ∧ Good r) fun f s => P s ∧ f.kind.isRequest = true
  released : ∀ r s, P s → P (w.release r s)
  hinted : ∀ value s f, w.readHint value s = .error f → ∃ e, f = .range e
  drawn : ∀ s, P s → P (w.draw s).2
  slept : ∀ seconds s, P s → P (w.sleep seconds s)
  noted : ∀ e, Ensures P (w.onRetry e) (fun _ => P) fun _ _ => False

def Ended (P : σ → Prop) (f : Failure) (s : σ) : Prop :=
  P s ∧ (f.kind.isRequest = true ∨ ∃ e, f = .range e)

variable {w : Surroundings σ α} {P : σ → Prop} {Good : Response → Prop}

theorem Keeps.ensures_attempt (h : w.Keeps P Good) :
    Ensures P w.attempt (fun r s => P s ∧ Good r) fun f s => P s ∧ f.kind.isRequest = true := by
  refine h.asked.bind fun r => ?_
  split
  · exact .throw fun s hs => ⟨hs.1, rfl⟩
  · exact .pure fun s hs => hs

theorem ensures_releaseFailed {E : Failure → σ → Prop}
    (h : ∀ r s, P s → P (w.release r s)) (f : Failure) :
    Ensures P (w.releaseFailed f) (fun _ => P) E := by
  unfold releaseFailed
  split
  · exact .modify fun s hs => h _ s hs
  · exact .pure fun s hs => hs

/-- `P` is kept whatever happens, and all failures are in `F`. -/
structure KeepsAndFailsIn (w : Surroundings σ α) (P : σ → Prop) (Good : Response → Prop)
    (F : Failure → Prop) : Prop where
  asked : Ensures P w.ask (fun r s => P s ∧ Good r) fun f s => P s ∧ F f
  refused : ∀ r, F (.badStatus r)
  ranged : ∀ e, F (.range e)
  released : ∀ r s, P s → P (w.release r s)
  hinted : ∀ value s f, w.readHint value s = .error f → F f
  drawn : ∀ s, P s → P (w.draw s).2
  slept : ∀ seconds s, P s → P (w.sleep seconds s)
  noted : ∀ e, Ensures P (w.onRetry e) (fun _ => P) fun f s => P s ∧ F f

theorem Keeps.keepsAndFailsIn (h : w.Keeps P Good) :
    w.KeepsAndFailsIn P Good fun f => f.kind.isRequest = true ∨ ∃ e, f = .range e where
  asked := h.asked.weakenError fun _ _ hf => hf.imp_right .inl
  refused _ := .inl rfl
  ranged e := .inr ⟨e, rfl⟩
  released := h.released
  hinted value s f hf := .inr (h.hinted value s f hf)
  drawn := h.drawn
  slept := h.slept
  noted e := (h.noted e).weakenError fun _ _ hfalse => hfalse.elim

variable [OfNat α 0] [OfNat α 1] [Add α] [Sub α] [Mul α] [Neg α] [LT α] [LE α]
  [DecidableLT α] [DecidableLE α]
  [BEq α]

theorem pause_of_wait {p : Policy α} {n : Nat} {v : Verdict α} {e : RangeError}
    (hwait : p.wait n v.hint = .error e) (operation url : String) (f : Failure) (s : σ) :
    ∃ t, w.pause p operation url n f v s = (.error (.range e), t) ∧
    w.releaseFailed f s = (.ok (), t) := by
  obtain ⟨t, hrelease⟩ : ∃ t, w.releaseFailed f s = (.ok (), t) := by
    unfold releaseFailed
    split <;> exact ⟨_, rfl⟩
  refine ⟨t, ?_, hrelease⟩
  rw [pause, bind_apply, hrelease, hwait]
  rfl

/-- A wait that can be computed is all that a pause needs. -/
theorem Keeps.ensures_pause_of_ok (h : w.Keeps P Good) {p : Policy α} {n : Nat}
    {v : Verdict α} {seconds : α} (hwait : p.wait n v.hint = .ok seconds) (operation url : String)
    (f : Failure) :
    Ensures P (w.pause p operation url n f v) (fun _ => P) fun _ _ => False := by
  have hlift : Ensures P (Run.lift ((p.wait n v.hint).mapError .range)) (fun _ => P)
      fun _ _ => False := by
    rw [hwait]
    exact .lift (fun _ _ s hs => hs) nofun
  unfold pause
  refine (ensures_releaseFailed h.released f).bind fun _ => hlift.bind fun _ => ?_
  refine .bind (Q := fun _ => P) (fun s hs => h.drawn s hs) fun _ => (h.noted _).bind fun _ => ?_
  split
  · exact .modify fun s hs => h.slept _ s hs
  · exact .pure fun s hs => hs

theorem attempts_eq (w : Surroundings σ α) (p : Policy α) (operation url : String)
    (left attempt : Nat) :
    w.attempts p operation url left attempt = tryCatch w.attempt fun f =>
      if f.kind.isRequest then do
        let s ← get
        let v ← Run.lift (p.verdict (w.readHint · s) f)
        match left with
        | 0 => throw f
        | left + 1 =>
          if v.retry then do
            w.pause p operation url attempt f v
            w.attempts p operation url left (attempt + 1)
          else throw f
      else throw f := by
  cases left with
  | zero =>
    rw [attempts]
    congr 1
    funext f
    cases f.kind.isRequest <;> rfl
  | succ left =>
    rw [attempts]
    congr 1
    funext f
    cases f.kind.isRequest with
    | false => rfl
    | true =>
      simp only [Bool.not_true, Bool.false_eq_true, if_false, if_true]
      refine bind_congr fun s => bind_congr fun v => ?_
      cases v.retry <;> rfl

section KeepsAndFailsIn

variable {F : Failure → Prop} (h : w.KeepsAndFailsIn P Good F)
include h

theorem KeepsAndFailsIn.ensures_pause (p : Policy α) (operation url : String) (attempt : Nat)
    (f : Failure) (v : Verdict α) :
    Ensures P (w.pause p operation url attempt f v) (fun _ => P) fun f s => P s ∧ F f := by
  unfold pause
  refine (ensures_releaseFailed h.released f).bind fun _ =>
    .bind (Q := fun _ => P) ?_ fun seconds => ?_
  · refine .lift (fun _ _ s hs => hs) fun g hg s hs => ⟨hs, ?_⟩
    cases hwait : p.wait attempt v.hint with
    | ok seconds => simp [hwait] at hg
    | error e =>
      rw [hwait] at hg
      cases hg
      exact h.ranged e
  · refine .bind (Q := fun _ => P) (fun s hs => h.drawn s hs) fun _ => (h.noted _).bind fun _ => ?_
    split
    · exact .modify fun s hs => h.slept _ s hs
    · exact .pure fun s hs => hs

/-- Only the first attempt starts outside of what is kept, if it leads there. -/
theorem KeepsAndFailsIn.ensures_attempts_of_asked {P₀ : σ → Prop}
    (hasked : Ensures P₀ w.ask (fun r s => P s ∧ Good r) fun f s => P s ∧ F f) (p : Policy α)
    (operation url : String) (left attempt : Nat) :
    Ensures P₀ (w.attempts p operation url left attempt)
      (fun r s => P s ∧ Good r) fun f s => P s ∧ F f := by
  have hattempt {P₀ : σ → Prop} (hasked : Ensures P₀ w.ask (fun r s => P s ∧ Good r)
      fun f s => P s ∧ F f) :
      Ensures P₀ w.attempt (fun r s => P s ∧ Good r) fun f s => P s ∧ F f := by
    refine hasked.bind fun r => ?_
    split
    · exact .throw fun s hs => ⟨hs.1, h.refused r⟩
    · exact .pure fun s hs => hs
  have hgive (f : Failure) : Ensures (fun s => P s ∧ F f) (throw f : Run σ Response)
      (fun r s => P s ∧ Good r) (fun f s => P s ∧ F f) := .throw fun _ hs => hs
  have hverdict (f : Failure) (s' : σ) : Ensures (fun s => P s ∧ F f)
      (Run.lift (p.verdict (w.readHint · s') f)) (fun _ s => P s ∧ F f) (fun f s => P s ∧ F f) := by
    refine .lift (fun _ _ s hs => hs) fun g hg s hs => ?_
    obtain ⟨value, hvalue⟩ := p.verdict_error hg
    exact ⟨hs.1, h.hinted value s' g hvalue⟩
  -- the last attempt has no pause behind it, so its failure is given out as it is
  induction left generalizing attempt P₀ with
  | zero =>
    rw [attempts_eq]
    dsimp only
    refine (hattempt hasked).tryCatch fun f => ?_
    split
    · refine .bind (Q := fun _ s => P s ∧ F f) (fun s hs => hs) fun s' => ?_
      exact (hverdict f s').bind fun v => hgive f
    · exact hgive f
  | succ left ih =>
    rw [attempts_eq]
    dsimp only
    refine (hattempt hasked).tryCatch fun f => ?_
    split
    · refine .bind (Q := fun _ s => P s ∧ F f) (fun s hs => hs) fun s' => ?_
      refine (hverdict f s').bind fun v => ?_
      split
      · refine ((h.ensures_pause p operation url attempt f v).weaken (fun s hs => hs.1)
          fun _ _ hs => hs).bind
          fun _ => ?_
        exact ih h.asked (attempt + 1)
      · exact hgive f
    · exact hgive f

theorem KeepsAndFailsIn.ensures_attempts (p : Policy α) (operation url : String)
    (left attempt : Nat) :
    Ensures P (w.attempts p operation url left attempt)
      (fun r s => P s ∧ Good r) fun f s => P s ∧ F f :=
  h.ensures_attempts_of_asked h.asked p operation url left attempt

end KeepsAndFailsIn

theorem Keeps.ensures_attempts (h : w.Keeps P Good) (p : Policy α) (operation url : String)
    (left attempt : Nat) :
    Ensures P (w.attempts p operation url left attempt) (fun r s => P s ∧ Good r) (Ended P) :=
  h.keepsAndFailsIn.ensures_attempts p operation url left attempt

end Surroundings

end Retry

/-! ### The server -/

/-- The script of the server holds answers in honest pieces and failures of requests only. -/
def Client.Served (w : World) : Prop := w.session.script.Honest

namespace World

variable {H : Prop} {I : FileSystem → Prop}

/-- The server is honest where `H` is true, and the files are as `I` has them. -/
def ServedAndFilesIn (H : Prop) (I : FileSystem → Prop) (w : World) : Prop :=
  (H → Client.Served w) ∧ I w.files

variable (r : Request) (onRetry : Retry.Event Float → Run World Unit)

/-- An ask ends in the next answer of the server, or in the failure that is next. -/
theorem ensures_ask : Ensures (ServedAndFilesIn H I) (surroundings r onRetry).ask
    (fun a w => ServedAndFilesIn H I w ∧ (H → ∀ chunk ∈ a.body, chunk.Honest))
    fun f w => ServedAndFilesIn H I w ∧ ∃ fault, f = .raised fault ∧
    (H → fault.kind.isRequest = true) := by
  intro w hw
  have hnext (hH : H) := Script.honest_next (hw.1 hH) r.key
  simp only [surroundings, onSession, within, Session.get]
  cases hexchange : (w.session.script.next r.key).1 with
  | ok a =>
    rw [hexchange] at hnext
    exact ⟨⟨fun hH => (hnext hH).2, hw.2⟩, fun hH => (hnext hH).1⟩
  | error fault =>
    rw [hexchange] at hnext
    exact ⟨⟨fun hH => (hnext hH).2, hw.2⟩, fault, rfl, fun hH => (hnext hH).1⟩

variable {r onRetry} in
theorem readHint_error {value : String} {w : World} {f : Failure}
    (h : (surroundings r onRetry).readHint value w = .error f) : ∃ e, f = .range e := by
  obtain ⟨e, -, he⟩ := mapError_eq_error.mp h
  exact ⟨e, he.symm⟩

end World

namespace Client

/-- Telling of a retry never fails, and changes nothing about what the server will do. -/
def Quiet (c : Client) : Prop :=
  ∀ e w, ∃ t, c.onRetry e w = (.ok (), t) ∧ t.session.script = w.session.script

theorem keeps_served {c : Client} (hquiet : c.Quiet) (r : Request) :
    (World.surroundings r c.onRetry).Keeps Served fun r => ∀ chunk ∈ r.body, chunk.Honest where
  asked := by
    have hasked := World.ensures_ask (H := True) (I := fun _ => True) r c.onRetry
    refine (hasked.weaken (fun _ hw => ⟨fun _ => hw, trivial⟩) fun _ _ hw =>
      ⟨hw.1.1 trivial, hw.2 trivial⟩).weakenError ?_
    rintro _ w ⟨hw, fault, rfl, hfault⟩
    exact ⟨hw.1 trivial, hfault trivial⟩
  released _ _ hw := hw
  hinted _ _ _ hf := World.readHint_error hf
  drawn _ hw := hw
  slept _ _ hw := hw
  noted e w hw := by
    obtain ⟨t, hnoted, hscript⟩ := hquiet e w
    simp only [World.surroundings, hnoted]
    rwa [Served, hscript]

theorem ensures_send {c : Client} (hquiet : c.Quiet) (operation : String) (r : Request) :
    Ensures Served (c.send operation r) (fun r w => Served w ∧ ∀ chunk ∈ r.body, chunk.Honest)
      fun f w => Served w ∧ (f.kind.isRequest = true ∨ ∃ e, f = .range e) :=
  (keeps_served hquiet r).ensures_attempts c.policy operation r.url _ 1

end Client
end Booru
