import Booru.Proofs.Retry.Waiting

/-! What becomes of the wait that a server asks for. Before the next attempt is made that wait, as
far as it counts, is slept but for the spread: a draw in the upper half only makes it longer, one in
the lower half cuts it short unless the computed wait makes up for it. -/

namespace Booru.Retry

open Run

namespace Surroundings

section Counting

variable {σ α : Type} {w : Surroundings σ α} {slept : σ → List α}

/-- What was slept is known in every state. A sleep is put behind those before it,
and nothing else is one. -/
structure Counts (w : Surroundings σ α) (slept : σ → List α) : Prop where
  asked : ∀ s, slept (w.ask s).2 = slept s
  released : ∀ r s, slept (w.release r s) = slept s
  drawn : ∀ s, slept (w.draw s).2 = slept s
  noted : ∀ e s, slept (w.onRetry e s).2 = slept s
  sleeps : ∀ seconds s, slept (w.sleep seconds s) = slept s ++ [seconds]

theorem Counts.attempt (h : w.Counts slept) (s : σ) : slept (w.attempt s).2 = slept s := by
  rw [Surroundings.attempt, bind_apply, ← h.asked s]
  rcases w.ask s with ⟨f | r, t⟩
  · rfl
  · dsimp only
    split <;> rfl

theorem Counts.releaseFailed (h : w.Counts slept) (f : Failure) (s : σ) :
    ∃ t, w.releaseFailed f s = (.ok (), t) ∧ slept t = slept s := by
  unfold Surroundings.releaseFailed
  split
  · exact ⟨_, rfl, h.released _ s⟩
  · exact ⟨s, rfl, rfl⟩

end Counting

variable {σ α : Type} [OfNat α 0] [OfNat α 1] [Add α] [Sub α] [Mul α] [Neg α] [LT α]
  [LE α] [DecidableLT α]
  [DecidableLE α] [BEq α]

/-- In a request that is begun in `s`, attempt number `n` is made in `t` and refused by a server
that asks for a wait, and the next attempt is made in `u`. -/
structure PutOff (w : Surroundings σ α) (p : Policy α) (operation url : String)
    (s t u : σ) (n : Nat)
    (seconds : α) : Prop where
  reached : w.Reaches p operation url 1 s n t
  followed : w.Followed p operation url n t u
  within : (n : Int) < p.maxAttempts
  asked : ∃ r value t', w.attempt t = (.error (.badStatus r), t') ∧
    r.header? "Retry-After" = some value ∧ w.readHint value t' = .ok (some seconds)

variable {w : Surroundings σ α} {slept : σ → List α} {p : Policy α} {operation url : String}
  {s t u : σ} {n : Nat}
  {f : Failure} {v : Verdict α} {seconds : α}

theorem Counts.pause (h : w.Counts slept) (hpause : w.pause p operation url n f v t = (.ok (), u)) :
    ∃ seconds t', p.wait n v.hint = .ok seconds ∧
      slept u = slept t ++ [p.jittered (w.draw t').1 seconds].filter (0 < ·) := by
  obtain ⟨t', hrelease, hslept⟩ := h.releaseFailed f t
  rw [Surroundings.pause, bind_apply, hrelease] at hpause
  cases hwait : p.wait n v.hint with
  | error e =>
    rw [hwait] at hpause
    cases hpause
  | ok seconds =>
    refine ⟨seconds, t', rfl, ?_⟩
    set delay := p.jittered (w.draw t').1 seconds
    obtain ⟨e, hrest⟩ : ∃ e, (w.onRetry e >>= fun _ =>
        if 0 < delay then modify (w.sleep delay) else pure ()) (w.draw t').2 = (.ok (), u) := by
      rw [hwait] at hpause
      exact ⟨_, hpause⟩
    have hnoted := h.noted e (w.draw t').2
    rw [h.drawn, hslept] at hnoted
    rw [bind_apply] at hrest
    split at hrest
    · rename_i told t'' hok
      rw [hok] at hnoted
      by_cases hpositive : 0 < delay
      · rw [if_pos hpositive] at hrest
        cases hrest
        rw [List.filter_cons_of_pos (by simpa using hpositive), List.filter_nil, ← hnoted]
        exact h.sleeps delay t''
      · rw [if_neg hpositive] at hrest
        cases hrest
        rw [List.filter_cons_of_neg (by simpa using hpositive), List.filter_nil, List.append_nil]
        exact hnoted
    · cases hrest

theorem PutOff.exists_pause (h : w.PutOff p operation url s t u n seconds) : ∃ f v t',
    w.attempt t = (.error f, t') ∧ v.hint = some seconds ∧
    w.pause p operation url n f v t' = (.ok (), u) := by
  obtain ⟨r, value, t', hfailed, hheader, hread⟩ := h.asked
  obtain ⟨hfailed', -, hjudged, hretry, hpaused⟩ := h.followed
  cases hfailed.symm.trans hfailed'
  refine ⟨_, _, _, hfailed, ?_, hpaused⟩
  simp only [Policy.verdict, hheader, hread] at hjudged
  split at hjudged
  · cases hjudged
    rfl
  · cases hjudged
    cases hretry

theorem PutOff.send_eq (h : w.PutOff p operation url s t u n seconds) : ∃ left,
    w.send p operation url s = w.attempts p operation url left (n + 1) u := by
  have hwithin := h.within
  exact ⟨_, (h.reached.concat h.followed).send_eq (by omega)⟩

end Surroundings

/-! ### Exact durations -/

namespace Policy

variable {p : Policy EReal} {n : Int} {draw seconds : EReal}

noncomputable def spreadWait (p : Policy EReal) (n : Int) (draw seconds : EReal) : EReal :=
  p.factor draw * max (p.computed n) (p.capped seconds)

theorem Sound.spreadWait_nonneg (h : p.Sound) (hdraw : 0 ≤ draw ∧ draw ≤ 1) (n : Int)
    (seconds : EReal) :
    0 ≤ p.spreadWait n draw seconds :=
  mul_nonneg (h.factor_nonneg hdraw) (le_max_of_le_left (h.computed_nonneg n))

theorem Sound.le_spreadWait (h : p.Sound) (hdraw : 0 ≤ draw ∧ draw ≤ 1) (n : Int)
    (seconds : EReal) :
    (1 - p.jitterRatio) * p.capped seconds ≤ p.spreadWait n draw seconds := by
  obtain ⟨hnonneg, hfactor, -⟩ := h.factor_mem hdraw
  calc (1 - p.jitterRatio) * p.capped seconds
      ≤ (1 - p.jitterRatio) * max (p.computed n) (p.capped seconds) :=
        mul_le_mul_of_nonneg_left (le_max_right _ _) hnonneg
    _ ≤ p.spreadWait n draw seconds :=
        mul_le_mul_of_nonneg_right hfactor (le_max_of_le_left (h.computed_nonneg n))

theorem Sound.one_le_factor_iff (h : p.Sound) (hdraw : 0 ≤ draw ∧ draw ≤ 1) :
    1 ≤ p.factor draw ↔ p.jitterRatio = 0 ∨ 1 ≤ draw + draw := by
  obtain ⟨r, d, hr, rfl, hfactor, hratio, hd⟩ := h.exists_factor hdraw
  have hreal : 1 ≤ 1 + r * (2 * d - 1) ↔ r = 0 ∨ 1 ≤ d + d := by
    constructor
    · intro hle
      by_contra hnot
      push Not at hnot
      have hpos : 0 < r := lt_of_le_of_ne hratio.1 hnot.1.symm
      nlinarith [hnot.2]
    · rintro (rfl | hle)
      · simp
      · nlinarith [mul_nonneg hratio.1 (show 0 ≤ 2 * d - 1 by linarith)]
  rw [hr, hfactor]
  exact_mod_cast hreal

theorem Sound.capped_le_spreadWait (h : p.Sound) (hdraw : 0 ≤ draw ∧ draw ≤ 1)
    (hlong : p.jitterRatio = 0 ∨ 1 ≤ draw + draw) (n : Int) (seconds : EReal) :
    p.capped seconds ≤ p.spreadWait n draw seconds := by
  have hmax : 0 ≤ max (p.computed n) (p.capped seconds) := le_max_of_le_left (h.computed_nonneg n)
  calc p.capped seconds ≤ 1 * max (p.computed n) (p.capped seconds) := by
        rw [one_mul]
        exact le_max_right _ _
    _ ≤ p.spreadWait n draw seconds :=
        mul_le_mul_of_nonneg_right ((h.one_le_factor_iff hdraw).mpr hlong) hmax

theorem Sound.spreadWait_lt (h : p.Sound) (hdraw : 0 ≤ draw ∧ draw ≤ 1)
    (hshort : ¬ (p.jitterRatio = 0 ∨ 1 ≤ draw + draw))
    (hcomputed : p.factor draw * p.computed n < p.capped seconds) (hpositive : 0 < p.capped seconds)
    (hfinite : p.capped seconds = ⊤ → p.factor draw ≤ 0) :
    p.spreadWait n draw seconds < p.capped seconds := by
  obtain ⟨r, d, hr, hd, hfactor, -⟩ := h.exists_factor hdraw
  have hlt : p.factor draw < 1 := not_le.mp fun hle => hshort ((h.one_le_factor_iff hdraw).mp hle)
  rcases le_total (p.computed n) (p.capped seconds) with hle | hle
  · rw [spreadWait, max_eq_right hle]
    by_cases htop : p.capped seconds = ⊤
    · rw [le_antisymm (hfinite htop) (h.factor_nonneg hdraw), zero_mul]
      exact hpositive
    obtain ⟨c, hc⟩ : ∃ c : ℝ, p.capped seconds = c :=
      ⟨_, (EReal.coe_toReal htop (ne_bot_of_gt hpositive)).symm⟩
    rw [hc, hfactor]
    rw [hfactor] at hlt
    rw [hc] at hpositive
    norm_cast at hlt hpositive ⊢
    nlinarith
  · rwa [spreadWait, max_eq_left hle]

theorem Sound.capped_le_spreadWait_iff (h : p.Sound) (hdraw : 0 ≤ draw ∧ draw ≤ 1) (n : Int)
    (seconds : EReal) :
    p.capped seconds ≤ p.spreadWait n draw seconds ↔
      (p.jitterRatio = 0 ∨ 1 ≤ draw + draw) ∨ p.capped seconds ≤ p.factor draw * p.computed n ∨
        p.capped seconds ≤ 0 ∨ p.capped seconds = ⊤ ∧ 0 < p.factor draw := by
  constructor
  · intro hle
    by_contra hnone
    obtain ⟨hshort, hrest⟩ := not_or.mp hnone
    obtain ⟨hcomputed, hrest⟩ := not_or.mp hrest
    obtain ⟨hpositive, hfinite⟩ := not_or.mp hrest
    exact not_lt.mpr hle (h.spreadWait_lt hdraw hshort (not_le.mp hcomputed) (not_le.mp hpositive)
      fun htop =>
      not_lt.mp fun hfactor => hfinite ⟨htop, hfactor⟩)
  · rintro (hlong | hcomputed | hnothing | ⟨htop, hpositive⟩)
    · exact h.capped_le_spreadWait hdraw hlong n seconds
    · exact hcomputed.trans (mul_le_mul_of_nonneg_left (le_max_left _ _) (h.factor_nonneg hdraw))
    · exact hnothing.trans (h.spreadWait_nonneg hdraw n seconds)
    · rw [spreadWait, htop, max_top_right, EReal.mul_top_of_pos hpositive]

end Policy

namespace Surroundings

/-- Wherever in a request a server asks for a wait and another attempt follows, that attempt comes
after a single sleep, if any: what the server asks for, as far as it counts, or the computed wait if
that is longer, spread by a draw. That is never less than what counts of the wait asked for without
the share of the ratio. It is all of that just with a draw in the upper half or a ratio of zero, or
where the computed wait makes up for the draw, nothing is asked for, or a wait without end is. -/
theorem asked_wait_slept_but_for_spread {σ : Type} (w : Surroundings σ EReal)
    (slept : σ → List EReal) (hw : w.Counts slept)
    (hdraw : ∀ s, 0 ≤ (w.draw s).1 ∧ (w.draw s).1 ≤ 1) (p : Policy EReal)
    (hp : p.isValid = true) (operation url : String) (s t u : σ) (n : ℕ) (seconds : EReal)
    (h : w.PutOff p operation url s t u n seconds) :
    (∃ left, w.send p operation url s = w.attempts p operation url left (n + 1) u) ∧
    ∃ draw delay, (∃ x, (w.draw x).1 = draw) ∧ delay = p.spreadWait n draw seconds ∧
      slept u = slept t ++ [delay].filter (0 < ·) ∧ 0 ≤ delay ∧
      (1 - p.jitterRatio) * p.capped seconds ≤ delay ∧
      (p.capped seconds ≤ delay ↔
        (p.jitterRatio = 0 ∨ 1 ≤ draw + draw) ∨ p.capped seconds ≤ p.factor draw * p.computed n ∨
          p.capped seconds ≤ 0 ∨ p.capped seconds = ⊤ ∧ 0 < p.factor draw) := by
  refine ⟨h.send_eq, ?_⟩
  have hsound := Policy.sound_of_isValid hp
  obtain ⟨f, v, t₁, hfailed, hhint, hpause⟩ := h.exists_pause
  obtain ⟨wait, t', hwait, hslept⟩ := hw.pause hpause
  have hattempt := hw.attempt t
  rw [hfailed] at hattempt
  rw [hhint] at hwait
  have hspread : p.jittered (w.draw t').1 wait = p.spreadWait n (w.draw t').1 seconds := by
    obtain rfl := Policy.eq_heeding hwait
    rw [hsound.jittered_eq (hdraw t') (hsound.heeding_nonneg n _),
      Policy.heeding_some, Policy.spreadWait]
  rw [hspread, hattempt] at hslept
  exact ⟨_, _, ⟨t', rfl⟩, rfl, hslept, hsound.spreadWait_nonneg (hdraw t') n seconds,
    hsound.le_spreadWait (hdraw t') n seconds, hsound.capped_le_spreadWait_iff (hdraw t') n seconds⟩

end Surroundings

namespace Trial

theorem counts {α : Type} (t : Trial α) : t.surroundings.Counts (·.slept) where
  asked _ := rfl
  released _ _ := rfl
  drawn _ := rfl
  noted _ _ := rfl
  sleeps _ _ := rfl

noncomputable def lowDraw : Trial EReal where
  outcome
    | 1 => .ok busy
    | _ => .ok answer
  hint := fun _ _ => .ok (some (7 : ℝ))
  draw := fun _ => 0

theorem exists_putOff_lowDraw :
    ∃ u, lowDraw.surroundings.PutOff Policy.fourExact "op" "u" {} {} u 1 ((7 : ℝ) : EReal) := by
  have hheader : busy.header? "Retry-After" = some "7" := by simp [busy, Response.header?]
  have hlisted : Policy.fourExact.statuses.contains busy.status = true := rfl
  have hattempt : lowDraw.surroundings.attempt {} = (.error (.badStatus busy), { asked := 1 }) :=
    attempt_apply lowDraw {}
  have hjudged : lowDraw.verdict Policy.fourExact 1 (.badStatus busy) =
      .ok ⟨true, some "http_503", some 503, some ((7 : ℝ) : EReal)⟩ := by
    rw [verdict, Policy.verdict, if_pos hlisted, hheader]
    rfl
  have hwait := Policy.fourExact.wait_of_le (n := (1 : ℕ)) (some ((7 : ℝ) : EReal)) (by decide)
  obtain ⟨u, hpause, -⟩ := pause_apply
    (v := ⟨true, some "http_503", some 503, some ((7 : ℝ) : EReal)⟩) lowDraw
    "op" "u" (r := { asked := 1 }) rfl hwait (.badStatus busy)
  exact ⟨u, .here, .intro hattempt rfl hjudged rfl hpause, by decide, busy, "7", _,
    hattempt, hheader, rfl⟩

theorem capped_seven : Policy.fourExact.capped ((7 : ℝ) : EReal) = ((7 : ℝ) : EReal) := by
  have hcap : 0 < Policy.fourExact.hintCap := EReal.coe_pos.mpr (by norm_num)
  have hle : ((7 : ℝ) : EReal) ≤ Policy.fourExact.hintCap := EReal.coe_le_coe (by norm_num)
  rw [Policy.capped_eq, if_pos hcap, min_eq_left hle]

end Trial

namespace Surroundings

/-- A fifth is cut off the seven seconds that the server asks for. -/
theorem asked_wait_cut_short : ∃ (u : Record EReal) (delay : EReal),
    Trial.lowDraw.surroundings.PutOff Policy.fourExact "op" "u" {} {} u 1 ((7 : ℝ) : EReal) ∧
    u.slept = [delay].filter (0 < ·) ∧ (1 - ((1 / 5 : ℝ) : EReal)) * (7 : ℝ) ≤ delay ∧
    delay < (7 : ℝ) := by
  obtain ⟨u, hput⟩ := Trial.exists_putOff_lowDraw
  have hdraw (r : Record EReal) : 0 ≤ (Trial.lowDraw.surroundings.draw r).1 ∧
      (Trial.lowDraw.surroundings.draw r).1 ≤ 1 := ⟨le_rfl, zero_le_one⟩
  obtain ⟨-, draw, delay, ⟨r, rfl⟩, -, hslept, -, hleast, hall⟩ :=
    asked_wait_slept_but_for_spread Trial.lowDraw.surroundings (·.slept) Trial.lowDraw.counts hdraw
      Policy.fourExact Policy.fourExact_isValid "op" "u" {} {} u 1 _ hput
  rw [Trial.capped_seven] at hleast hall
  have hsound := Policy.sound_of_isValid Policy.fourExact_isValid
  have hratio : Policy.fourExact.jitterRatio ≠ 0 := (EReal.coe_pos.mpr (by norm_num)).ne'
  have hlow : ¬ (1 : EReal) ≤ 0 + 0 := by
    rw [add_zero]
    exact not_le.mpr zero_lt_one
  have hshort : ¬ (Policy.fourExact.jitterRatio = 0 ∨ (1 : EReal) ≤ 0 + 0) :=
    not_or.mpr ⟨hratio, hlow⟩
  have hfactor : Policy.fourExact.factor 0 ≤ 1 := le_of_not_ge fun hle =>
    hshort ((hsound.one_le_factor_iff ⟨le_rfl, zero_le_one⟩).mp hle)
  have hcomputed : Policy.fourExact.computed (1 : ℕ) ≤ ((1 : ℝ) : EReal) := by
    rw [Policy.computed, lesser_eq_min]
    have hbase : Policy.fourExact.baseDelay = ((1 : ℝ) : EReal) := rfl
    refine (min_le_right _ _).trans ?_
    rw [hbase, Policy.doubled_eq, ← EReal.coe_mul]
    exact EReal.coe_le_coe (by norm_num)
  have hless : Policy.fourExact.factor 0 * Policy.fourExact.computed (1 : ℕ) < ((7 : ℝ) : EReal) :=
    calc Policy.fourExact.factor 0 * Policy.fourExact.computed (1 : ℕ)
        ≤ 1 * Policy.fourExact.computed (1 : ℕ) :=
          mul_le_mul_of_nonneg_right hfactor (hsound.computed_nonneg _)
      _ ≤ ((1 : ℝ) : EReal) := by rwa [one_mul]
      _ < ((7 : ℝ) : EReal) := EReal.coe_lt_coe_iff.mpr (by norm_num)
  have hpositive : (0 : EReal) < ((7 : ℝ) : EReal) := EReal.coe_pos.mpr (by norm_num)
  refine ⟨u, delay, hput, hslept, hleast, not_le.mp fun hle => ?_⟩
  obtain hlong | henough | hnothing | ⟨hendless, -⟩ := hall.mp hle
  · exact hshort hlong
  · exact not_lt.mpr henough hless
  · exact not_lt.mpr hnothing hpositive
  · exact EReal.coe_ne_top 7 hendless

end Surroundings
end Booru.Retry
