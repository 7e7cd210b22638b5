import Mathlib.Algebra.Order.Field.Basic
import Mathlib.Tactic.Linarith
import Booru.Proofs.Retry.Attempts

/-! Requests that go as it is laid down: what each asking comes to, what the headers ask for and
what is drawn are given by number, and everything that is done on the way is put on record. The loop
asks up to the first outcome that no other attempt follows, tells of each failure before it, and
sleeps what it tells. -/

namespace Booru.Retry

open Run

/-- How a request is going to go. All is counted from one. -/
structure Trial (α : Type) where
  outcome : Nat → Except Failure Response
  hint : Nat → String → Except Failure (Option α)
  draw : Nat → α

structure Record (α : Type) where
  asked : Nat := 0
  released : List Response := []
  told : List (Event α) := []
  slept : List α := []

theorem Policy.isValid_iff {α : Type} [OfNat α 0] [OfNat α 1] [LT α] [LE α]
    [DecidableLT α] [DecidableLE α]
    {p : Policy α} : p.isValid = true ↔ ¬ p.maxAttempts < 1 ∧ ¬ p.baseDelay < 0 ∧ ¬ p.maxDelay < 0 ∧
      ¬ p.maxDelay < p.baseDelay ∧ (0 ≤ p.jitterRatio ∧ p.jitterRatio ≤ 1) ∧ ¬ p.hintCap < 0 := by
  have hcheck : p.isValid = true ↔ p.check = .ok () := by
    unfold isValid
    cases p.check <;> simp
  rw [hcheck, check]
  grind

namespace Trial

section Outcomes

variable {α : Type}

def surroundings (t : Trial α) : Surroundings (Record α) α where
  ask := fun r => (t.outcome (r.asked + 1), { r with asked := r.asked + 1 })
  release := fun response r => { r with released := r.released ++ [response] }
  readHint := fun value r => t.hint r.asked value
  draw := fun r => (t.draw r.asked, r)
  sleep := fun seconds r => { r with slept := r.slept ++ [seconds] }
  onRetry := fun e => modify fun r => { r with told := r.told ++ [e] }

def result (t : Trial α) (n : Nat) : Except Failure Response :=
  match t.outcome n with
  | .ok r => if r.isError then .error (.badStatus r) else .ok r
  | .error f => .error f

def verdict (t : Trial α) (p : Policy α) (n : Nat) (f : Failure) : Except Failure (Verdict α) :=
  p.verdict (t.hint n) f

/-- No attempt follows the outcome, however many are left. -/
inductive Final (t : Trial α) (p : Policy α) (n : Nat) : Prop
  | answered {r : Response} (h : t.result n = .ok r)
  | foreign {f : Failure} (h : t.result n = .error f) (foreign : f.kind.isRequest = false)
  | refused {f : Failure} {v : Verdict α} (h : t.result n = .error f)
    (judged : t.verdict p n f = .ok v)
      (refused : v.retry = false)

/-- The attempt `k` is the first with a final outcome, or the last one that is allowed. -/
structure Last (t : Trial α) (p : Policy α) (k : Nat) : Prop where
  pos : 1 ≤ k
  within : (k : Int) ≤ p.maxAttempts
  before : ∀ n, 1 ≤ n → n < k → ¬ t.Final p n
  ends : t.Final p k ∨ (k : Int) = p.maxAttempts

variable {t : Trial α} {p : Policy α} {k n : Nat} {f : Failure} {v : Verdict α}

theorem attempt_apply (t : Trial α) (r : Record α) :
    t.surroundings.attempt r = (t.result (r.asked + 1), { r with asked := r.asked + 1 }) := by
  simp only [Surroundings.attempt, bind_apply, surroundings, result]
  cases t.outcome (r.asked + 1) with
  | error f => rfl
  | ok response =>
    dsimp only
    split <;> rfl

theorem exists_last (hp : 1 ≤ p.maxAttempts) : ∃ k, t.Last p k := by
  have hstop : ∃ k : Nat, 1 ≤ k ∧ (t.Final p k ∨ (k : Int) = p.maxAttempts) :=
    ⟨p.maxAttempts.toNat, by omega, .inr (by omega)⟩
  classical
  have hspec := Nat.find_spec hstop
  refine ⟨Nat.find hstop, hspec.1, ?_, fun n hn hlt hfinal =>
    Nat.find_min hstop hlt ⟨hn, .inl hfinal⟩, hspec.2⟩
  have hle : Nat.find hstop ≤ p.maxAttempts.toNat := Nat.find_min' hstop ⟨by omega, .inr (by omega)⟩
  omega

theorem Last.unique {k' : Nat} (h : t.Last p k) (h' : t.Last p k') : k = k' := by
  have hle {k k' : Nat} (h : t.Last p k) (h' : t.Last p k') : k ≤ k' := by
    by_contra hlt
    rcases h'.ends with hfinal | hlimit
    · exact h.before k' h'.pos (by omega) hfinal
    · have := h.within
      omega
  exact Nat.le_antisymm (hle h h') (hle h' h)

theorem not_final (hresult : t.result n = .error f) (hrequest : f.kind.isRequest = true)
    (hjudged : t.verdict p n f = .ok v) (hretry : v.retry = true) : ¬ t.Final p n := by
  intro hfinal
  cases hfinal with
  | answered h => cases hresult.symm.trans h
  | foreign h hforeign =>
    cases hresult.symm.trans h
    cases hrequest.symm.trans hforeign
  | refused h hjudged' hrefused =>
    cases hresult.symm.trans h
    cases hjudged.symm.trans hjudged'
    cases hretry.symm.trans hrefused

end Outcomes

variable {α : Type} [OfNat α 0] [OfNat α 1] [Add α] [Sub α] [Mul α] [Neg α] [LT α]
  [LE α] [DecidableLT α]
  [DecidableLE α] [BEq α]

/-- The waits up to attempt `k` can be computed: the headers make sense, and no
wait is out of range. -/
structure Waits (t : Trial α) (p : Policy α) (k : Nat) : Prop where
  judged : ∀ n f, 1 ≤ n → n ≤ k → t.result n = .error f → ∃ v, t.verdict p n f = .ok v
  computed : ∀ n f v, 1 ≤ n → n < k → t.result n = .error f → t.verdict p n f = .ok v →
    ∃ seconds, p.wait n v.hint = .ok seconds

def event (t : Trial α) (p : Policy α) (operation url : String) (n : Nat)
    (f : Failure) (v : Verdict α)
    (seconds : α) : Event α where
  operation := operation
  url := url
  attempt := n
  maxAttempts := p.maxAttempts
  delay := p.jittered (t.draw n) seconds
  reason := v.reason
  status := v.status
  error := Text.strip f.message

/-- The event tells of the failure of its attempt, with the reason and the status that the policy
sees in it and the wait that the policy computes. -/
inductive Tells (t : Trial α) (p : Policy α) (operation url : String) : Event α → Prop
  | intro {n : Nat} {f : Failure} {v : Verdict α} {seconds : α} (failed : t.result n = .error f)
      (judged : t.verdict p n f = .ok v) (computed : p.wait n v.hint = .ok seconds) :
      Tells t p operation url (t.event p operation url n f v seconds)

/-- The record when `n` askings were made and all but the last `m` of them
failed and were told of. -/
structure Recorded (t : Trial α) (p : Policy α) (operation url : String)
    (asked told : Nat) (r : Record α) :
    Prop where
  asked : r.asked = asked
  numbers : r.told.map (·.attempt) = List.range' 1 told
  tells : ∀ e ∈ r.told, t.Tells p operation url e
  slept : r.slept = (r.told.map (·.delay)).filter (0 < ·)

variable {t : Trial α} {p : Policy α} {operation url : String} {k n : Nat}
  {r : Record α} {f : Failure}
  {v : Verdict α}

theorem pause_apply {seconds : α} (t : Trial α) (operation url : String) (hasked : r.asked = n)
    (hwait : p.wait n v.hint = .ok seconds) (f : Failure) :
    ∃ u, t.surroundings.pause p operation url n f v r = (.ok (), u) ∧ u.asked = n ∧
      u.told = r.told ++ [t.event p operation url n f v seconds] ∧
      u.slept = r.slept ++ [p.jittered (t.draw n) seconds].filter (0 < ·) := by
  obtain ⟨released, hrelease⟩ : ∃ released, t.surroundings.releaseFailed f r =
      (.ok (), { r with released := released }) := by
    unfold Surroundings.releaseFailed
    split
    · exact ⟨_, rfl⟩
    · exact ⟨r.released, rfl⟩
  have hpause : t.surroundings.pause p operation url n f v r =
      (do
        t.surroundings.onRetry (t.event p operation url n f v seconds)
        if 0 < p.jittered (t.draw n) seconds then
          modify (t.surroundings.sleep (p.jittered (t.draw n) seconds)) : Run (Record α) Unit)
        { r with released := released } := by
    rw [Surroundings.pause, bind_apply, hrelease, hwait]
    subst hasked
    rfl
  by_cases hpositive : 0 < p.jittered (t.draw n) seconds
  · rw [hpause, if_pos hpositive, List.filter_cons_of_pos (by simpa using hpositive)]
    exact ⟨_, rfl, hasked, rfl, rfl⟩
  · rw [hpause, if_neg hpositive, List.filter_cons_of_neg (by simpa using hpositive),
      List.filter_nil, List.append_nil]
    exact ⟨_, rfl, hasked, rfl, rfl⟩

theorem Recorded.concat {m : Nat} {u : Record α} {seconds : α}
    (h : t.Recorded p operation url m n r) (hresult : t.result (n + 1) = .error f)
    (hjudged : t.verdict p (n + 1) f = .ok v) (hwait : p.wait ↑(n + 1) v.hint = .ok seconds)
    (hasked : u.asked = n + 1)
    (htold : u.told = r.told ++ [t.event p operation url (n + 1) f v seconds])
    (hslept : u.slept = r.slept ++ [p.jittered (t.draw (n + 1)) seconds].filter (0 < ·)) :
    t.Recorded p operation url (n + 1) (n + 1) u := by
  refine ⟨hasked, ?_, ?_, ?_⟩
  · rw [htold, List.map_append, h.numbers, List.range'_concat, Nat.one_mul, Nat.add_comm 1]
    rfl
  · rw [htold]
    exact List.forall_mem_append.mpr ⟨h.tells,
      List.forall_mem_singleton.mpr (.intro hresult hjudged hwait)⟩
  · rw [hslept, h.slept, htold, List.map_append, List.filter_append]
    rfl

theorem exists_followed (h : t.Recorded p operation url n n r) (hfinal : ¬ t.Final p (n + 1))
    (hwaits : t.Waits p k) (hk : n + 1 < k) :
    ∃ u, t.surroundings.Followed p operation url (n + 1) r u ∧ t.Recorded p operation url (n + 1)
      (n + 1) u := by
  have hattempt := attempt_apply t r
  rw [h.asked] at hattempt
  cases hresult : t.result (n + 1) with
  | ok response => exact absurd (.answered hresult) hfinal
  | error f =>
    obtain ⟨v, hjudged⟩ := hwaits.judged (n + 1) f (by omega) (by omega) hresult
    obtain ⟨seconds, hwait⟩ := hwaits.computed (n + 1) f v (by omega) hk hresult hjudged
    have hrequest : f.kind.isRequest = true := by
      by_contra hforeign
      exact hfinal (.foreign hresult (Bool.not_eq_true _ ▸ hforeign))
    have hretry : v.retry = true := by
      by_contra hrefused
      exact hfinal (.refused hresult hjudged (Bool.not_eq_true _ ▸ hrefused))
    have hasked : { r with asked := n + 1 }.asked = n + 1 := rfl
    obtain ⟨u, hpause, hasked, htold, hslept⟩ := pause_apply t operation url hasked hwait f
    rw [hresult] at hattempt
    exact ⟨u, .intro hattempt hrequest hjudged hretry hpause,
      h.concat hresult hjudged hwait hasked htold hslept⟩

theorem exists_reaches (operation url : String) (hbefore : ∀ n, 1 ≤ n → n < k → ¬ t.Final p n)
    (hwaits : t.Waits p k) (hn : n < k) :
    ∃ r, t.surroundings.Reaches p operation url 1 {}
      (n + 1) r ∧ t.Recorded p operation url n n r := by
  induction n with
  | zero => exact ⟨{}, .here, rfl, rfl, List.forall_mem_nil _, rfl⟩
  | succ n ih =>
    obtain ⟨r, hreach, hrecorded⟩ := ih (by omega)
    obtain ⟨u, hfollowed, hmore⟩ :=
      exists_followed hrecorded (hbefore (n + 1) (by omega) hn) hwaits hn
    exact ⟨u, hreach.concat hfollowed, hmore⟩

theorem attempts_of_last {left : Nat} (hrecorded : t.Recorded p operation url n n r)
    (hend : t.Final p (n + 1) ∨ left = 0) (hwaits : t.Waits p (n + 1)) :
    t.surroundings.attempts p operation url left (n + 1) r =
      (t.result (n + 1), { r with asked := n + 1 }) := by
  have hattempt := attempt_apply t r
  rw [hrecorded.asked] at hattempt
  cases hresult : t.result (n + 1) with
  | ok response => exact Surroundings.attempts_of_ok (hresult ▸ hattempt)
  | error f =>
    rw [hresult] at hattempt
    cases hkind : f.kind.isRequest with
    | false => exact Surroundings.attempts_of_foreign hattempt hkind
    | true =>
      obtain ⟨v, hjudged⟩ := hwaits.judged (n + 1) f (by omega) (Nat.le_refl _) hresult
      refine Surroundings.attempts_of_refused hattempt hkind hjudged
        (hend.symm.imp_right fun hfinal => ?_)
      by_contra hretry
      exact not_final hresult hkind hjudged (Bool.not_eq_false _ ▸ hretry) hfinal

theorem send_last (operation url : String) (hk : t.Last p k) (hwaits : t.Waits p k) :
    ∃ r, t.surroundings.send p operation url {} = (t.result k, r) ∧
      t.Recorded p operation url k (k - 1) r := by
  obtain ⟨n, rfl⟩ : ∃ n, k = n + 1 := ⟨k - 1, by have := hk.pos; omega⟩
  have hwithin := hk.within
  obtain ⟨r, hreach, hrecorded⟩ :=
    exists_reaches operation url hk.before hwaits (Nat.lt_succ_self n)
  have hend : t.Final p (n + 1) ∨ 1 + (p.maxAttempts - 1).toNat - (n + 1) = 0 := by
    refine hk.ends.imp_right fun hlimit => ?_
    omega
  refine ⟨_, (hreach.send_eq (by omega)).trans (attempts_of_last hrecorded hend hwaits), ?_⟩
  exact ⟨rfl, hrecorded.numbers, hrecorded.tells, hrecorded.slept⟩

end Trial

/-! ### Exact durations -/

theorem lesser_eq_min {K : Type} [LinearOrder K] (a b : K) : lesser a b = min a b := by
  unfold lesser
  split
  · rename_i hlt
    rw [min_eq_right hlt.le]
  · rename_i hle
    rw [min_eq_left (not_lt.mp hle)]

theorem greater_eq_max {K : Type} [LinearOrder K] (a b : K) : greater a b = max a b := by
  unfold greater
  split
  · rename_i hlt
    rw [max_eq_right hlt.le]
  · rename_i hle
    rw [max_eq_left (not_lt.mp hle)]

section Exact

variable {K : Type} [Field K] [LinearOrder K] {p : Policy K} {hint : Option K} {n : Int}
  {seconds draw bound : K}

def Policy.longest (p : Policy K) : Option K → K
  | none => p.maxDelay
  | some hint => max p.maxDelay (p.capped hint)

theorem Policy.maxDelay_le_longest (p : Policy K) (hint : Option K) :
    p.maxDelay ≤ p.longest hint := by
  cases hint with
  | none => exact le_rfl
  | some hint => exact le_max_left _ _

theorem Policy.wait_le (h : p.wait n hint = .ok seconds) : seconds ≤ p.longest hint := by
  unfold wait at h
  dsimp only at h
  split at h
  · cases h
  · cases h
    cases hint with
    | none =>
      rw [lesser_eq_min]
      exact min_le_left _ _
    | some hint =>
      dsimp only
      rw [greater_eq_max, lesser_eq_min]
      exact max_le_max (min_le_left _ _) le_rfl

theorem Policy.jittered_le [IsStrictOrderedRing K] (hratio : 0 ≤ p.jitterRatio)
    (hdraw : 0 ≤ draw ∧ draw ≤ 1) (hbound : 0 ≤ bound) (hseconds : seconds ≤ bound) :
    p.jittered draw seconds ≤ (1 + p.jitterRatio) * bound := by
  have hspread : bound ≤ (1 + p.jitterRatio) * bound := by nlinarith
  unfold jittered
  split
  · rw [greater_eq_max]
    exact max_le (hbound.trans hspread) (hseconds.trans hspread)
  · rename_i hcase
    have hpositive : 0 < seconds := by
      simp only [Bool.or_eq_true, decide_eq_true_eq, not_or, not_le] at hcase
      exact hcase.1
    have hfactor : 1 + (-p.jitterRatio + (p.jitterRatio - -p.jitterRatio) * draw) ≤
        1 + p.jitterRatio := by
      nlinarith [hdraw.2]
    dsimp only
    rw [greater_eq_max]
    refine max_le (hbound.trans hspread) ?_
    calc seconds * (1 + (-p.jitterRatio + (p.jitterRatio - -p.jitterRatio) * draw))
        ≤ seconds * (1 + p.jitterRatio) := mul_le_mul_of_nonneg_left hfactor hpositive.le
      _ ≤ bound * (1 + p.jitterRatio) := mul_le_mul_of_nonneg_right hseconds (by linarith)
      _ = (1 + p.jitterRatio) * bound := mul_comm _ _

end Exact

namespace Trial

/-- However a request goes, there is one attempt that is the first with a final outcome or the last
one allowed. Unless a wait cannot be computed, the request is made just as often, and what that
attempt comes to is the result. Each attempt before it is told of, in order, and the waits told are
slept where they are positive. In exact arithmetic each of them is within the longest one of the
policy and of the server, spread upwards. -/
theorem send_up_to_last :
    (∀ {α : Type} [OfNat α 0] [OfNat α 1] [Add α] [Sub α] [Mul α] [Neg α] [LT α] [LE α]
      [DecidableLT α] [DecidableLE α] [BEq α] (t : Trial α) (p : Policy α)
      (operation url : String), p.isValid = true →
      (∃! k, t.Last p k) ∧ ∀ k, t.Last p k → t.Waits p k → ∃ r,
        t.surroundings.send p operation url {} = (t.result k, r) ∧
        t.Recorded p operation url k (k - 1) r) ∧
    ∀ {K : Type} [Field K] [LinearOrder K] [IsStrictOrderedRing K] (t : Trial K) (p : Policy K)
      (operation url : String), p.isValid = true → (∀ n, 0 ≤ t.draw n ∧ t.draw n ≤ 1) →
      ∀ k, t.Last p k → t.Waits p k → ∀ e ∈ (t.surroundings.send p operation url {}).2.told,
        ∃ f v, t.result e.attempt = .error f ∧ t.verdict p e.attempt f = .ok v ∧
          e.delay ≤ (1 + p.jitterRatio) * p.longest v.hint := by
  constructor
  · intro α _ _ _ _ _ _ _ _ _ _ _ t p operation url hp
    obtain ⟨k, hk⟩ := t.exists_last (p := p) (not_lt.mp (Policy.isValid_iff.mp hp).1)
    exact ⟨⟨k, hk, fun k' hk' => hk'.unique hk⟩, fun k hk hwaits =>
      send_last operation url hk hwaits⟩
  · intro K _ _ _ t p operation url hp hdraw k hk hwaits e he
    obtain ⟨-, -, hmax, -, hratio, -⟩ := Policy.isValid_iff.mp hp
    obtain ⟨r, hsend, hrecorded⟩ := send_last operation url hk hwaits
    rw [hsend] at he
    obtain ⟨hfailed, hjudged, hcomputed⟩ := hrecorded.tells e he
    rename_i n f v seconds
    have hlongest : 0 ≤ p.longest v.hint := (not_lt.mp hmax).trans (p.maxDelay_le_longest v.hint)
    exact ⟨f, v, hfailed, hjudged, Policy.jittered_le hratio.1 (hdraw n) hlongest
      (Policy.wait_le hcomputed)⟩

def busy : Response := ⟨0, "u", 503, "Busy", [("Retry-After", "7")], []⟩

def answer : Response := ⟨1, "u", 200, "OK", [], []⟩

def tooSlow : Failure := .raised ⟨.timeout, "too slow"⟩

def threeOutcomes : Trial ℚ where
  outcome
    | 1 => .error tooSlow
    | 2 => .ok busy
    | _ => .ok answer
  hint := fun _ _ => .ok (some 7)
  draw := fun _ => 1 / 2

def fourAttempts : Policy ℚ := ⟨4, 1, 30, 1 / 5, 120, retryStatuses⟩

theorem verdict_tooSlow : threeOutcomes.verdict fourAttempts 1 tooSlow =
    .ok ⟨true, some "timeout", none, none⟩ :=
  rfl

theorem verdict_busy :
    threeOutcomes.verdict fourAttempts 2 (.badStatus busy) =
      .ok ⟨true, some "http_503", some 503, some 7⟩ := by
  have hheader : busy.header? "Retry-After" = some "7" := by simp [busy, Response.header?]
  have hlisted : fourAttempts.statuses.contains busy.status = true := by decide
  rw [verdict, Policy.verdict, if_pos hlisted, hheader]
  rfl

theorem last_threeOutcomes : threeOutcomes.Last fourAttempts 3 := by
  refine ⟨by decide, by decide, fun n hn hlt => ?_, .inl (.answered rfl)⟩
  obtain rfl | rfl : n = 1 ∨ n = 2 := by omega
  · exact not_final rfl rfl verdict_tooSlow rfl
  · exact not_final rfl rfl verdict_busy rfl

theorem waits_threeOutcomes : threeOutcomes.Waits fourAttempts 3 := by
  have hcases (n : Nat) (f : Failure) (hn : 1 ≤ n) (hle : n ≤ 3)
      (h : threeOutcomes.result n = .error f) :
      n = 1 ∧ f = tooSlow ∨ n = 2 ∧ f = .badStatus busy := by
    obtain rfl | rfl | rfl : n = 1 ∨ n = 2 ∨ n = 3 := by omega
    · cases h
      exact .inl ⟨rfl, rfl⟩
    · cases h
      exact .inr ⟨rfl, rfl⟩
    · cases h
  constructor
  · intro n f hn hle h
    obtain ⟨rfl, rfl⟩ | ⟨rfl, rfl⟩ := hcases n f hn hle h
    · exact ⟨_, verdict_tooSlow⟩
    · exact ⟨_, verdict_busy⟩
  · intro n f v hn hlt h hjudged
    obtain ⟨rfl, rfl⟩ | ⟨rfl, rfl⟩ := hcases n f hn hlt.le h
    · exact ⟨_, rfl⟩
    · exact ⟨_, rfl⟩

theorem send_up_to_last_threeOutcomes : ∃ r,
    threeOutcomes.surroundings.send fourAttempts "posts.show" "u" {} = (.ok answer, r) ∧
      r.asked = 3 ∧ r.told.map (·.attempt) = [1, 2] ∧
      r.slept = (r.told.map (·.delay)).filter (0 < ·) ∧
      ∀ e ∈ r.told, e.attempt = 2 →
        e.status = some 503 ∧ e.delay ≤ (1 + 1 / 5) * max 30 (min 7 120) := by
  have hvalid : fourAttempts.isValid = true := by
    rw [Policy.isValid_iff, fourAttempts]
    norm_num
  obtain ⟨r, hsend, hrecorded⟩ :=
    (send_up_to_last.1 threeOutcomes fourAttempts "posts.show" "u" hvalid).2 3
    last_threeOutcomes waits_threeOutcomes
  refine ⟨r, hsend, hrecorded.asked, hrecorded.numbers, hrecorded.slept, fun e he hsecond => ?_⟩
  have hdraw (n : Nat) : 0 ≤ threeOutcomes.draw n ∧ threeOutcomes.draw n ≤ 1 := by
    norm_num [threeOutcomes]
  obtain ⟨f, v, hfailed, hjudged, hdelay⟩ :=
    send_up_to_last.2 threeOutcomes fourAttempts "posts.show" "u" hvalid
    hdraw 3 last_threeOutcomes waits_threeOutcomes e (hsend ▸ he)
  obtain ⟨hfailed', hjudged', hcomputed⟩ := hrecorded.tells e he
  obtain rfl : _ = 2 := hsecond
  cases hfailed'.symm.trans hfailed
  cases hjudged'.symm.trans hjudged
  cases hfailed
  cases hjudged.symm.trans verdict_busy
  refine ⟨rfl, hdelay.trans_eq ?_⟩
  norm_num [fourAttempts, Policy.longest, Policy.capped, lesser_eq_min]

end Trial
end Booru.Retry
