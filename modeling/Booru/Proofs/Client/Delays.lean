import Booru.Grabber
import Booru.Proofs.Grabber.Alike
import Booru.Proofs.Retry.Attempts

/-! Requests that are made again. A failure that the policy has asked for once more delays a run,
and that is all: what the run comes to, it would have come to without. -/

namespace Booru

open Run Retry

/-! ### Exchanges by what the policy makes of them -/

namespace Answer

def response (a : Answer) (index : Nat) (url : String) : Response :=
  ⟨index, url, a.status, a.reason, a.headers, a.body⟩

def isError (a : Answer) : Bool := 400 ≤ a.status && a.status < 600

theorem isError_response (a : Answer) (index : Nat) (url : String) :
    (a.response index url).isError = a.isError := by
  rw [Bool.eq_iff_iff]
  simp only [Response.isError, Response.isClientError, Response.isServerError,
    isError, Bool.or_eq_true, Bool.and_eq_true, decide_eq_true_eq]
  dsimp only [response]
  omega

end Answer

namespace Exchange

def result (index : Nat) (url : String) : Exchange → Except Failure Response
  | .error fault => .error (.raised fault)
  | .ok a => if a.isError then .error (.badStatus (a.response index url))
    else .ok (a.response index url)

/-- The policy has the request made again. -/
inductive Retried (p : Policy Float) : Exchange → Prop
  | status {a : Answer} (failed : a.isError = true) (listed : p.statuses.contains a.status = true) :
      Retried p (.ok a)
  | fault {f : Fault} (lost : f.kind.isTimeout = true ∨ f.kind.isConnection = true) :
    Retried p (.error f)

def Unhinted : Exchange → Prop
  | .ok a => ∀ h ∈ a.headers, h.1.toLower ≠ "Retry-After".toLower
  | .error _ => True

variable {p : Policy Float} {e : Exchange}

theorem Retried.judged (he : e.Retried p) (hunhinted : e.Unhinted) (index : Nat) (url : String)
    (readHint : String → Except Failure (Option Float)) :
    ∃ f v, e.result index url = .error f ∧ f.kind.isRequest = true ∧ p.verdict readHint f = .ok v ∧
      v.retry = true ∧ v.hint = none := by
  cases he with
  | @status a failed listed =>
    have hheader : (a.response index url).header? "Retry-After" = none := by
      simpa [Response.header?, Answer.response, Unhinted] using hunhinted
    refine ⟨.badStatus (a.response index url),
      ⟨true, some ("http_" ++ toString a.status), some a.status, none⟩,
      if_pos failed, rfl, ?_, rfl, rfl⟩
    have hlisted : p.statuses.contains (a.response index url).status = true := listed
    rw [Policy.verdict, if_pos hlisted, hheader]
    rfl
  | @fault fault lost =>
    have hkind : fault.kind ≠ .http := by
      intro hhttp
      simp [hhttp, FailureKind.isTimeout, FailureKind.isConnection] at lost
    have hrequest : fault.kind.isRequest = true := by
      clear hkind hunhinted
      revert lost
      cases fault.kind <;> decide
    by_cases htimeout : fault.kind.isTimeout = true
    · refine ⟨.raised fault, ⟨true, some "timeout", none, none⟩, rfl, hrequest, ?_, rfl, rfl⟩
      simp [Policy.verdict, Failure.kind, hkind, htimeout]
    · refine ⟨.raised fault, ⟨true, some "connection_error", none, none⟩, rfl,
        hrequest, ?_, rfl, rfl⟩
      simp [Policy.verdict, Failure.kind, hkind, htimeout, lost.resolve_left htimeout]

theorem judged_of_not_retried (he : ¬ e.Retried p) (index : Nat) (url : String) (f : Failure)
    (hf : e.result index url = .error f) : f.kind.isRequest = false ∨ ∃ v, v.retry = false ∧
      ∀ readHint, p.verdict readHint f = .ok v := by
  cases e with
  | ok a =>
    by_cases herror : a.isError = true
    · obtain rfl : f = .badStatus (a.response index url) := by
        simpa [result, herror, eq_comm] using hf
      have hunlisted : ¬ p.statuses.contains (a.response index url).status = true :=
        fun hlisted => he (.status herror hlisted)
      exact .inr ⟨_, rfl, fun readHint => by rw [Policy.verdict, if_neg hunlisted]⟩
    · simp [result, herror] at hf
  | error fault =>
    obtain rfl : f = .raised fault := by simpa [result, eq_comm] using hf
    have hlost : ¬ (fault.kind.isTimeout = true ∨ fault.kind.isConnection = true) :=
      fun lost => he (.fault lost)
    rw [not_or] at hlost
    right
    by_cases hkind : fault.kind = .http
    · refine ⟨⟨false, some "http_status", none, none⟩, rfl, fun readHint => ?_⟩
      simp only [Policy.verdict, Failure.kind, hkind, if_true]
    · refine ⟨⟨false, none, none, none⟩, rfl, fun readHint => ?_⟩
      simp [Policy.verdict, Failure.kind, hkind, hlost]

end Exchange

/-- Failed exchanges, and the one behind them. -/
structure Block where
  failures : List Exchange
  outcome : Exchange

namespace Block

def exchanges (b : Block) : List Exchange := b.failures ++ [b.outcome]

def prompt (blocks : List Block) (otherwise : Exchange) : Script :=
  .inOrder (blocks.map (·.outcome)) otherwise

def delayed (blocks : List Block) (otherwise : Exchange) : Script :=
  .inOrder (blocks.flatMap exchanges) otherwise

def failuresIn (blocks : List Block) : List Exchange := blocks.flatMap (·.failures)

/-- A request that gets to the outcome of the block has got over its failures. -/
structure Delays (p : Policy Float) (b : Block) : Prop where
  settled : ¬ b.outcome.Retried p
  retried : ∀ e ∈ b.failures, Exchange.Retried p e ∧ e.Unhinted
  few : (b.failures.length : Int) < p.maxAttempts
  waits : ∀ n : Nat, 1 ≤ n → n ≤ b.failures.length → ∃ seconds, p.wait n none = .ok seconds

end Block

def World.apart (w : World) : World :=
  { w with
    session := { script := .unreachable, closed := w.session.closed }
    sleeps := []
    retries := [] }

/-- From `w` to `t` the server has gone on to `script` and `k` retries were told of;
nothing else has happened. -/
structure World.Passes (script : Script) (k : Nat) (w t : World) : Prop where
  script : t.session.script = script
  told : ∃ events, t.retries = w.retries ++ events ∧ events.length = k
  apart : t.apart = w.apart

theorem World.Passes.trans {s s' : Script} {k k' : Nat} {w t u : World} (h : w.Passes s k t)
    (h' : t.Passes s' k' u) : w.Passes s' (k + k') u := by
  obtain ⟨events, hevents, rfl⟩ := h.told
  obtain ⟨events', hevents', rfl⟩ := h'.told
  refine ⟨h'.script, ⟨events ++ events', ?_, List.length_append⟩, h'.apart.trans h.apart⟩
  rw [hevents', hevents, List.append_assoc]

namespace Client

variable {p : Policy Float} {r : Request} {operation : String} {w : World}
  {e : Exchange} {script : Script}
  {n left : Nat} {f : Failure} {v : Verdict Float}

abbrev noting (r : Request) : Surroundings World Float := World.surroundings r World.noteRetry

theorem attempt_passes (h : w.session.script.next r.key = (e, script)) :
    ∃ t, (noting r).attempt w = (e.result w.session.released.length r.url, t) ∧
    w.Passes script 0 t := by
  have hpasses {t : World} (hscript : t.session.script = script) (hretries : t.retries = w.retries)
      (hapart : t.apart = w.apart) : w.Passes script 0 t :=
        ⟨hscript, ⟨[], by simp [hretries], rfl⟩, hapart⟩
  simp only [Surroundings.attempt, bind_apply, World.surroundings, World.onSession,
    World.within, Session.get, h]
  cases e with
  | error fault => exact ⟨_, rfl, hpasses rfl rfl rfl⟩
  | ok a =>
    have herror := a.isError_response w.session.released.length r.url
    rw [Answer.response] at herror
    simp only [Exchange.result, ← herror]
    split <;> exact ⟨_, rfl, hpasses rfl rfl rfl⟩

theorem pause_passes {seconds : Float} (h : p.wait n v.hint = .ok seconds)
    (operation : String) (f : Failure) (w : World) :
    ∃ t, (noting r).pause p operation r.url n f v w = (.ok (), t) ∧
    w.Passes w.session.script 1 t := by
  obtain ⟨u, hrelease, hu⟩ : ∃ u, (noting r).releaseFailed f w = (.ok (), u) ∧
      w.Passes w.session.script 0 u := by
    unfold Surroundings.releaseFailed
    split <;> exact ⟨_, rfl, rfl, ⟨[], (List.append_nil _).symm, rfl⟩, rfl⟩
  have hdraw : (modifyGet (noting r).draw : Run World Float) u = (.ok u.draw, u) := rfl
  have hnote (event : Event Float) :
      (noting r).onRetry event u = (.ok (), { u with retries := u.retries ++ [event] }) := rfl
  rw [Surroundings.pause, bind_apply, hrelease, h]
  simp only [bind_apply, mapError_ok, Run.lift, hdraw, hnote]
  have hpasses {t : World} {event : Event Float} (hscript : t.session.script = u.session.script)
      (htold : t.retries = u.retries ++ [event]) (hapart : t.apart = u.apart) :
      w.Passes w.session.script 1 t := by
    have ht : u.Passes w.session.script 1 t :=
      ⟨hscript.trans hu.script, ⟨[event], htold, rfl⟩, hapart⟩
    exact hu.trans ht
  split
  · exact ⟨_, rfl, hpasses rfl rfl rfl⟩
  · exact ⟨_, rfl, hpasses rfl rfl rfl⟩

theorem followed_of_retried (h : w.session.script.next r.key = (e, script)) (he : e.Retried p)
    (hunhinted : e.Unhinted) {seconds : Float} (hwait : p.wait n none = .ok seconds)
    (operation : String) :
    ∃ t, (noting r).Followed p operation r.url n w t ∧ w.Passes script 1 t := by
  obtain ⟨t, hattempt, ht⟩ := attempt_passes (r := r) h
  obtain ⟨f, v, hresult, hrequest, hjudged, hretry, hhint⟩ :=
    he.judged hunhinted w.session.released.length r.url ((noting r).readHint · t)
  obtain ⟨u, hpause, hu⟩ := pause_passes (r := r) (hhint ▸ hwait) operation f t
  rw [hresult] at hattempt
  exact ⟨u, .intro hattempt hrequest hjudged hretry hpause,
    (Nat.zero_add 1) ▸ ht.trans (ht.script ▸ hu)⟩

theorem attempts_settled (h : w.session.script.next r.key = (e, script)) (he : ¬ e.Retried p)
    (operation : String) (left n : Nat) :
    ∃ t, (noting r).attempts p operation r.url left n w =
      (e.result w.session.released.length r.url, t) ∧
      w.Passes script 0 t := by
  obtain ⟨t, hattempt, ht⟩ := attempt_passes (r := r) h
  refine ⟨t, ?_, ht⟩
  cases hresult : e.result w.session.released.length r.url with
  | ok answer => exact Surroundings.attempts_of_ok (hresult ▸ hattempt)
  | error f =>
    rw [hresult] at hattempt
    obtain hforeign | ⟨v, hretry, hjudged⟩ := Exchange.judged_of_not_retried he _ _ f hresult
    · exact Surroundings.attempts_of_foreign hattempt hforeign
    · by_cases hrequest : f.kind.isRequest = true
      · exact Surroundings.attempts_of_refused hattempt hrequest (hjudged _) (.inr hretry)
      · exact Surroundings.attempts_of_foreign hattempt (Bool.not_eq_true _ ▸ hrequest)

theorem reaches_outcome {failures rest : List Exchange} {otherwise : Exchange}
    (hretried : ∀ e ∈ failures, Exchange.Retried p e ∧ e.Unhinted)
    (hwaits : ∀ m : Nat, n ≤ m → m < n + failures.length → ∃ seconds, p.wait m none = .ok seconds)
    (hscript : w.session.script = .inOrder (failures ++ rest) otherwise) (operation : String) :
    ∃ t, (noting r).Reaches p operation r.url n w (n + failures.length) t ∧
      w.Passes (.inOrder rest otherwise) failures.length t := by
  induction failures generalizing n w with
  | nil => exact ⟨w, .here, hscript, ⟨[], by simp, rfl⟩, rfl⟩
  | cons e failures ih =>
    obtain ⟨he, hunhinted⟩ := hretried e List.mem_cons_self
    obtain ⟨seconds, hwait⟩ := hwaits n (Nat.le_refl n) (by simp)
    have hnext : w.session.script.next r.key = (e, .inOrder (failures ++ rest) otherwise) := by
      rw [hscript]
      rfl
    obtain ⟨t, hfollowed, ht⟩ := followed_of_retried hnext he hunhinted hwait operation
    obtain ⟨u, hreaches, hu⟩ := ih (n := n + 1) (fun e he => hretried e (List.mem_cons_of_mem _ he))
      (fun m hm hlt => hwaits m (by omega) (by rw [List.length_cons]; omega)) ht.script
    rw [Nat.add_assoc, Nat.add_comm 1] at hreaches
    rw [List.length_cons]
    exact ⟨u, .next hfollowed hreaches, Nat.add_comm 1 _ ▸ ht.trans hu⟩

def recording (c : Client) : Client := { c with onRetry := World.noteRetry }

variable {c : Client} {b : Block} {rest : List Exchange} {otherwise : Exchange}

theorem send_block (hb : b.Delays c.policy)
    (hscript : w.session.script = .inOrder (b.exchanges ++ rest) otherwise)
    (operation : String) (r : Request) :
    ∃ i t, c.recording.send operation r w = (b.outcome.result i r.url, t) ∧
      w.Passes (.inOrder rest otherwise) b.failures.length t := by
  rw [Block.exchanges, List.append_assoc] at hscript
  obtain ⟨u, hreaches, hu⟩ := reaches_outcome (r := r) hb.retried
    (fun m hm hlt => hb.waits m hm (by omega)) hscript operation
  have hnext : u.session.script.next r.key = (b.outcome, .inOrder rest otherwise) := by
    rw [hu.script]
    rfl
  have hfew : 1 + b.failures.length ≤ 1 + (c.policy.maxAttempts - 1).toNat := by
    have := hb.few
    omega
  obtain ⟨t, hattempts, ht⟩ := attempts_settled hnext hb.settled operation
    (1 + (c.policy.maxAttempts - 1).toNat - (1 + b.failures.length)) (1 + b.failures.length)
  exact ⟨_, t, (hreaches.send_eq hfew).trans hattempts, hu.trans ht⟩

end Client

/-- Two runs over the same outcomes, `t` with the delays in front of them and `s` without. `told` is
the record of retries that both began with. -/
inductive Behind (blocks : List Block) (otherwise : Exchange) (told : List (Event Float))
    (s t : World) : Prop
  | intro (used left : List Block) (events : List (Event Float)) (blocks_eq : used ++ left = blocks)
      (prompt : s.session.script = Block.prompt left otherwise)
      (delayed : t.session.script = Block.delayed left otherwise) (untold : s.retries = told)
      (told_eq : t.retries = told ++ events)
        (count : events.length = (Block.failuresIn used).length)
      (apart : s.apart = t.apart)

theorem World.Passes.behind {blocks used left : List Block} {otherwise : Exchange}
    {told events : List (Event Float)} {k : Nat} {s s' t t' : World}
    (hs : s.Passes (Block.prompt left otherwise) 0 s')
    (ht : t.Passes (Block.delayed left otherwise) k t') (hblocks : used ++ left = blocks)
    (huntold : s.retries = told) (htold : t.retries = told ++ events)
    (hcount : events.length + k = (Block.failuresIn used).length) (hapart : s.apart = t.apart) :
    Behind blocks otherwise told s' t' := by
  obtain ⟨none, hnone, hlength⟩ := hs.told
  obtain ⟨more, hmore, rfl⟩ := ht.told
  refine .intro used left (events ++ more) hblocks hs.script ht.script ?_ ?_ ?_
    (hs.apart.trans (hapart.trans ht.apart.symm))
  · rw [hnone, List.length_eq_zero_iff.mp hlength, List.append_nil, huntold]
  · rw [hmore, htold, List.append_assoc]
  · rw [List.length_append, hcount]

namespace Client

section Alike

variable {c : Client} {blocks : List Block} {otherwise : Exchange} {told : List (Event Float)}
  (hblocks : ∀ b ∈ blocks, b.Delays c.policy) (hotherwise : ¬ otherwise.Retried c.policy)
include hblocks hotherwise

theorem send_behind {s t : World} (h : Behind blocks otherwise told s t)
    (operation : String) (r : Request) :
    ∃ (e : Exchange) (i j : Nat) (s' t' : World), c.recording.send operation r s =
      (e.result i r.url, s') ∧
      c.recording.send operation r t = (e.result j r.url, t') ∧
      Behind blocks otherwise told s' t' := by
  obtain ⟨used, left, events, hall, hprompt, hdelayed, huntold, htold, hcount, hapart⟩ := h
  cases left with
  | nil =>
    have hnext {w : World} (hw : w.session.script = .inOrder [] otherwise) :
        w.session.script.next r.key = (otherwise, .inOrder [] otherwise) := by
      rw [hw]
      rfl
    obtain ⟨s', hs, hs'⟩ := attempts_settled (hnext hprompt) hotherwise operation
      (c.policy.maxAttempts - 1).toNat 1
    obtain ⟨t', ht, ht'⟩ := attempts_settled (hnext hdelayed) hotherwise operation
      (c.policy.maxAttempts - 1).toNat 1
    have hs' : s.Passes (Block.prompt [] otherwise) 0 s' := hs'
    exact ⟨otherwise, _, _, s', t', hs, ht, hs'.behind ht' hall huntold htold hcount hapart⟩
  | cons b left =>
    have hb : b.Delays c.policy := hblocks b (by simp [← hall])
    have hbare : Block.Delays c.policy ⟨[], b.outcome⟩ := by
      have hfew := hb.few
      exact ⟨hb.settled, nofun, by simp only [List.length_nil]; omega, by
        simp only [List.length_nil]; omega⟩
    obtain ⟨i, s', hs, hs'⟩ := send_block hbare hprompt operation r
    have hdelayed : t.session.script = .inOrder (b.exchanges ++ left.flatMap Block.exchanges)
        otherwise := hdelayed
    obtain ⟨j, t', ht, ht'⟩ := send_block hb hdelayed operation r
    have hall : (used ++ [b]) ++ left = blocks := by
      rw [List.append_assoc, List.singleton_append, hall]
    refine ⟨b.outcome, i, j, s', t', hs, ht, hs'.behind ht' hall huntold htold ?_ hapart⟩
    simp [Block.failuresIn, hcount]

theorem alike_explaining {refused failed : Failure → Failure}
    (hrefused : ∀ a i j url, refused (.badStatus (Answer.response a i url)) =
      refused (.badStatus (Answer.response a j url))) (operation path : String) (query :
      List (String × String)) :
    Run.Alike (Behind blocks otherwise told)
      (explaining refused failed (c.recording.getJson operation path query))
      (explaining refused failed (c.recording.getJson operation path query)) := by
  intro s t h
  obtain ⟨e, i, j, s', t', hs, ht, hend⟩ := send_behind hblocks hotherwise h operation
    (c.recording.request path query)
  simp only [explaining, tryCatch_apply, getJson, bind_apply, hs, ht]
  cases e with
  | error fault => exact ⟨rfl, hend⟩
  | ok a =>
    by_cases herror : a.isError = true
    · simp only [Exchange.result, herror, if_true]
      exact ⟨congrArg Except.error (hrefused a i j _), hend⟩
    · -- the number of a response is no part of its body
      have hjson (url : String) : (a.response i url).json = (a.response j url).json := rfl
      simp only [Exchange.result, herror, Bool.false_eq_true, if_false, Run.lift, hjson]
      cases (a.response j (c.recording.request path query).url).json with
      | error f => exact ⟨rfl, hend⟩
      | ok data => exact ⟨rfl, hend⟩

theorem alike_entry (operation path what : String) :
    Run.Alike (Behind blocks otherwise told) (c.recording.entry operation path what)
      (c.recording.entry operation path what) := by
  refine .bind (alike_explaining hblocks hotherwise (fun _ _ _ _ => rfl) operation path [])
    fun data => ?_
  split
  · exact .pure _
  · exact .throw _

theorem alike_fetchUser (name : Option String) :
    Run.Alike (Behind blocks otherwise told) (c.recording.fetchUser name)
      (c.recording.fetchUser name) := by
  unfold fetchUser
  dsimp only
  split
  · exact .throw _
  · exact alike_entry hblocks hotherwise _ _ _

theorem alike_lookupUser (name : Option String) :
    Run.Alike (Behind blocks otherwise told) (c.recording.lookupUser name)
      (c.recording.lookupUser name) := by
  unfold lookupUser
  dsimp only
  split
  · rw [throw_bind]
    exact .throw _
  · refine .bind (alike_explaining hblocks hotherwise (fun _ _ _ _ => rfl) _ _ []) fun data => ?_
    split
    · exact .pure _
    · exact .throw _

theorem alike_fetchBlacklist (username : Option String) :
    Run.Alike (Behind blocks otherwise told) (c.recording.fetchBlacklist username)
      (c.recording.fetchBlacklist username) := by
  unfold fetchBlacklist
  dsimp only
  split
  · rw [throw_bind]
    exact .throw _
  · exact .bind (alike_fetchUser hblocks hotherwise _) fun user => .pure _

theorem alike_fetchPost (ref : EntryRef) :
    Run.Alike (Behind blocks otherwise told) (c.recording.fetchPost ref)
      (c.recording.fetchPost ref) := by
  refine .bind (alike_entry hblocks hotherwise _ _ _) fun data => ?_
  split
  · exact .pure _
  · exact .throw _

theorem alike_searchPosts (tags : Option String) (page : Int) (limit : Option Int) :
    Run.Alike (Behind blocks otherwise told) (c.recording.searchPosts tags page limit)
      (c.recording.searchPosts tags page limit) := by
  unfold searchPosts
  dsimp only
  split
  · rw [throw_bind]
    exact .throw _
  split
  · rw [throw_bind]
    exact .throw _
  refine .bind (alike_explaining hblocks hotherwise (fun _ _ _ _ => rfl) _ _ _) fun data => ?_
  split
  · exact .pure _
  · exact .throw _

theorem alike_board : c.recording.board.Alike (Behind blocks otherwise told) c.recording.board where
  isAuthenticated := rfl
  fetchBlacklist := by
    dsimp only [board]
    exact alike_fetchBlacklist hblocks hotherwise none
  lookupUser := fun name => .bind (alike_lookupUser hblocks hotherwise (some name)) fun _ => .pure _
  searchPosts := fun tags page limit =>
    alike_searchPosts hblocks hotherwise (some tags) page (some limit)
  fetchPost := alike_fetchPost hblocks hotherwise
  fetchPool := fun _ => alike_entry hblocks hotherwise _ _ _
  fetchSet := fun _ => alike_entry hblocks hotherwise _ _ _

end Alike

end Client
end Booru
