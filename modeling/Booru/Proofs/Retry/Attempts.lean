import Booru.Proofs.Retry.Endings

/-! The attempts of a request one by one: what the loop does after a single attempt, by what that
came to, and what it does after any number of attempts that were each followed by another. -/

namespace Booru.Retry

open Run

variable {σ α : Type}

theorem Policy.verdict_eq_error {p : Policy α} {readHint : String → Except Failure (Option α)}
    {f g : Failure} :
    p.verdict readHint f = .error g ↔ ∃ r value, f = .badStatus r ∧
    p.statuses.contains r.status = true ∧
      r.header? "Retry-After" = some value ∧ readHint value = .error g := by
  constructor
  · intro h
    unfold verdict at h
    split at h
    · rename_i r
      split at h
      · rename_i hlisted
        cases hheader : r.header? "Retry-After" with
        | none => simp [hheader, Except.map] at h
        | some value =>
          refine ⟨r, value, rfl, hlisted, hheader, ?_⟩
          cases hread : readHint value with
          | ok hint => simp [hheader, hread, Except.map] at h
          | error e => simpa [hheader, hread, Except.map] using h
      · cases h
    · split at h
      · cases h
      · split at h
        · cases h
        · split at h <;> cases h
  · rintro ⟨r, value, rfl, hlisted, hheader, hread⟩
    simp only [verdict, if_pos hlisted, hheader, hread, Except.map]

namespace Surroundings

variable [OfNat α 0] [OfNat α 1] [Add α] [Sub α] [Mul α] [Neg α] [LT α] [LE α]
  [DecidableLT α] [DecidableLE α]
  [BEq α]

/-- Attempt number `n`, made in `s`, fails, and the policy has another one made in `u`. -/
inductive Followed (w : Surroundings σ α) (p : Policy α) (operation url : String)
    (n : Nat) (s u : σ) : Prop
  | intro {t : σ} {f : Failure} {v : Verdict α} (failed : w.attempt s = (.error f, t))
      (request : f.kind.isRequest = true) (judged : p.verdict (w.readHint · t) f = .ok v)
      (retry : v.retry = true) (paused : w.pause p operation url n f v t = (.ok (), u))

/-- All attempts from number `n` in `s` up to number `m`, which starts in `t`,
are followed by another. -/
inductive Reaches (w : Surroundings σ α) (p : Policy α) (operation url : String) :
    Nat → σ → Nat → σ → Prop
  | here {n : Nat} {s : σ} : Reaches w p operation url n s n s
  | next {n m : Nat} {s t u : σ} (first : w.Followed p operation url n s t)
      (later : Reaches w p operation url (n + 1) t m u) : Reaches w p operation url n s m u

variable {w : Surroundings σ α} {p : Policy α} {operation url : String} {left n m : Nat} {s t u : σ}
  {f g : Failure} {v : Verdict α}

theorem attempts_of_ok {r : Response} (h : w.attempt s = (.ok r, t)) :
    w.attempts p operation url left n s = (.ok r, t) := by
  rw [attempts_eq, tryCatch_apply, h]

theorem attempts_of_foreign (h : w.attempt s = (.error f, t))
    (hforeign : f.kind.isRequest = false) :
    w.attempts p operation url left n s = (.error f, t) := by
  rw [attempts_eq, tryCatch_apply, h]
  simp only [hforeign, Bool.false_eq_true, if_false]
  rfl

theorem attempts_of_failed (h : w.attempt s = (.error f, t)) (hrequest : f.kind.isRequest = true) :
    w.attempts p operation url left n s =
      (Run.lift (p.verdict (w.readHint · t) f) >>= fun v =>
        match left with
        | 0 => throw f
        | left + 1 =>
          if v.retry then do
            w.pause p operation url n f v
            w.attempts p operation url left (n + 1)
          else throw f) t := by
  rw [attempts_eq, tryCatch_apply, h]
  simp only [hrequest, if_true]
  exact bind_apply get _ t

theorem attempts_of_unjudged (h : w.attempt s = (.error f, t)) (hrequest : f.kind.isRequest = true)
    (hv : p.verdict (w.readHint · t) f = .error g) :
    w.attempts p operation url left n s = (.error g, t) := by
  rw [attempts_of_failed h hrequest, hv]
  rfl

theorem attempts_of_refused (h : w.attempt s = (.error f, t)) (hrequest : f.kind.isRequest = true)
    (hv : p.verdict (w.readHint · t) f = .ok v) (hend : left = 0 ∨ v.retry = false) :
    w.attempts p operation url left n s = (.error f, t) := by
  rw [attempts_of_failed h hrequest, hv, bind_apply, Run.lift]
  cases left with
  | zero => rfl
  | succ left =>
    simp only [hend.resolve_left (Nat.succ_ne_zero left), Bool.false_eq_true, if_false]
    rfl

theorem attempts_of_retried (h : w.attempt s = (.error f, t)) (hrequest : f.kind.isRequest = true)
    (hv : p.verdict (w.readHint · t) f = .ok v) (hretry : v.retry = true) :
    w.attempts p operation url (left + 1) n s =
      (w.pause p operation url n f v >>= fun _ => w.attempts p operation url left (n + 1)) t := by
  rw [attempts_of_failed h hrequest, hv, bind_apply, Run.lift]
  simp only [hretry, if_true]

theorem attempts_of_followed (h : w.Followed p operation url n s u) :
    w.attempts p operation url (left + 1) n s = w.attempts p operation url left (n + 1) u := by
  cases h with
  | intro failed request judged retry paused =>
    rw [attempts_of_retried failed request judged retry, bind_apply, paused]

theorem Reaches.le (h : w.Reaches p operation url n s m t) : n ≤ m := by
  induction h with
  | here => exact Nat.le_refl _
  | next _ _ ih => exact Nat.le_of_succ_le ih

theorem Reaches.attempts_eq (h : w.Reaches p operation url n s m t) (hm : m ≤ n + left) :
    w.attempts p operation url left n s = w.attempts p operation url (n + left - m) m t := by
  induction h generalizing left with
  | here => rw [Nat.add_sub_cancel_left]
  | @next n m s t u first later ih =>
    have hle := later.le
    obtain ⟨left, rfl⟩ : ∃ k, left = k + 1 := ⟨left - 1, by omega⟩
    rw [attempts_of_followed first, ih (by omega), Nat.add_right_comm, Nat.add_assoc]

theorem Reaches.concat (h : w.Reaches p operation url n s m t)
    (hlast : w.Followed p operation url m t u) :
    w.Reaches p operation url n s (m + 1) u := by
  induction h with
  | here => exact .next hlast .here
  | next first _ ih => exact .next first (ih hlast)

theorem Reaches.send_eq (h : w.Reaches p operation url 1 s m t)
    (hm : m ≤ 1 + (p.maxAttempts - 1).toNat) :
    w.send p operation url s = w.attempts p operation url (1 + (p.maxAttempts - 1).toNat - m) m t :=
  h.attempts_eq hm

/-! ### What keeps a failed attempt from being followed -/

/-- Attempt number `n`, made in `s`, fails, and so does what is to be done about it: the wait that a
server asks for makes no sense, or the wait before another attempt is out of range. -/
inductive Stuck (w : Surroundings σ α) (p : Policy α) (n : Nat) (s : σ) : Nat → Failure → Prop
  | hint {left : Nat} {t : σ} {f g : Failure} (failed : w.attempt s = (.error f, t))
      (request : f.kind.isRequest = true) (unjudged : p.verdict (w.readHint · t) f = .error g) :
      Stuck w p n s left g
  | wait {left : Nat} {t : σ} {f : Failure} {v : Verdict α} {e : RangeError}
      (failed : w.attempt s = (.error f, t)) (request : f.kind.isRequest = true)
      (judged : p.verdict (w.readHint · t) f = .ok v) (retry : v.retry = true)
      (beyond : p.wait n v.hint = .error e) : Stuck w p n s (left + 1) (.range e)

theorem Stuck.attempts_eq (h : w.Stuck p n s left g) (operation url : String) :
    ∃ t, w.attempts p operation url left n s = (.error g, t) := by
  cases h with
  | hint failed request unjudged => exact ⟨_, attempts_of_unjudged failed request unjudged⟩
  | wait failed request judged retry beyond =>
    obtain ⟨t, hpause, -⟩ := pause_of_wait (w := w) beyond operation url _ _
    refine ⟨t, ?_⟩
    rw [attempts_of_retried failed request judged retry, bind_apply, hpause]

variable {P : σ → Prop} {Good : Response → Prop}

theorem Keeps.stuck_or_judged (h : w.Keeps P Good) (hs : P s)
    (hend : w.attempts p operation url left n s = (.error g, u)) :
    w.Stuck p n s left g ∨ ∃ f v t, w.attempt s = (.error f, t) ∧ f.kind.isRequest = true ∧
      p.verdict (w.readHint · t) f = .ok v ∧ P t := by
  have hkept := h.ensures_attempt s hs
  rcases hattempt : w.attempt s with ⟨f | r, t⟩
  · rw [hattempt] at hkept
    cases hjudged : p.verdict (w.readHint · t) f with
    | error g' =>
      cases (attempts_of_unjudged hattempt hkept.2 hjudged).symm.trans hend
      exact .inl (.hint hattempt hkept.2 hjudged)
    | ok v => exact .inr ⟨f, v, t, rfl, hkept.2, hjudged, hkept.1⟩
  · cases (attempts_of_ok hattempt).symm.trans hend

theorem Keeps.exists_stuck (h : w.Keeps P Good) (hs : P s) (hg : g.kind.isRequest = false)
    (hend : w.attempts p operation url left n s = (.error g, u)) :
    ∃ m t rest, w.Reaches p operation url n s m t ∧ m + rest = n + left ∧ w.Stuck p m t rest g := by
  induction left generalizing n s with
  | zero =>
    obtain hstuck | ⟨f, v, t, hattempt, hrequest, hjudged, -⟩ := h.stuck_or_judged hs hend
    · exact ⟨n, s, 0, .here, rfl, hstuck⟩
    · cases (attempts_of_refused hattempt hrequest hjudged (.inl rfl)).symm.trans hend
      cases hrequest.symm.trans hg
  | succ left ih =>
    obtain hstuck | ⟨f, v, t, hattempt, hrequest, hjudged, ht⟩ := h.stuck_or_judged hs hend
    · exact ⟨n, s, left + 1, .here, rfl, hstuck⟩
    cases hretry : v.retry with
    | false =>
      cases (attempts_of_refused hattempt hrequest hjudged (.inr hretry)).symm.trans hend
      cases hrequest.symm.trans hg
    | true =>
      rw [attempts_of_retried hattempt hrequest hjudged hretry, bind_apply] at hend
      cases hwait : p.wait n v.hint with
      | error e =>
        obtain ⟨t', hpause, -⟩ := pause_of_wait (w := w) hwait operation url f t
        rw [hpause] at hend
        cases hend
        exact ⟨n, s, left + 1, .here, rfl, .wait hattempt hrequest hjudged hretry hwait⟩
      | ok seconds =>
        have hpaused := h.ensures_pause_of_ok hwait operation url f t ht
        rcases hpause : w.pause p operation url n f v t with ⟨g' | ⟨⟩, t'⟩
        · rw [hpause] at hpaused
          exact hpaused.elim
        · rw [hpause] at hpaused hend
          obtain ⟨m, x, rest, hreach, hcount, hstuck⟩ := ih hpaused hend
          exact ⟨m, x, rest, .next (.intro hattempt hrequest hjudged hretry hpause) hreach, by
            omega, hstuck⟩

end Surroundings
end Booru.Retry
