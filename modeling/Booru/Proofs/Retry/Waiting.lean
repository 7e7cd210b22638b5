import Mathlib.Data.EReal.Inv
import Booru.Proofs.Retry.Trial

/-! Waits in exact arithmetic. Every double but NaN is an extended real number, so durations are
taken there, where what a server asks for may also be without end. As long as the power of two fits
into a double, a wait comes out of every number of failures; it grows with the failures and with
what the server asks for, it stays within the longest that is allowed, and a draw moves it by no
more than the ratio of the policy. -/

namespace Booru.Retry.Policy

section Anywhere

variable {α : Type} [OfNat α 0] [OfNat α 1] [Add α] [Mul α] [LT α] [DecidableLT α]

def computed (p : Policy α) (n : Int) : α := lesser p.maxDelay (p.baseDelay * doubled (n - 1).toNat)

def heeding (p : Policy α) (n : Int) : Option α → α
  | none => p.computed n
  | some hint => greater (p.computed n) (p.capped hint)

variable {p : Policy α} {n : Int} {hint : Option α} {seconds : α}

theorem wait_of_le (p : Policy α) (hint : Option α) (hn : n ≤ 1024) :
    p.wait n hint = .ok (p.heeding n hint) := by
  have hfew : ¬ maxDoublings ≤ (n - 1).toNat := by
    unfold maxDoublings
    omega
  rw [wait, if_neg hfew]
  cases hint <;> rfl

theorem wait_of_lt (p : Policy α) (hint : Option α) (hn : 1024 < n) :
    p.wait n hint = .error .wait := by
  have hmany : maxDoublings ≤ (n - 1).toNat := by
    unfold maxDoublings
    omega
  rw [wait, if_pos hmany]

theorem eq_heeding (h : p.wait n hint = .ok seconds) : seconds = p.heeding n hint := by
  by_cases hn : n ≤ 1024
  · cases (p.wait_of_le hint hn).symm.trans h
    rfl
  · cases (p.wait_of_lt hint (by omega)).symm.trans h

end Anywhere

/-! ### Extended real numbers -/

structure Sound (p : Policy EReal) : Prop where
  base : 0 ≤ p.baseDelay
  longest : 0 ≤ p.maxDelay
  cap : 0 ≤ p.hintCap
  ratio : 0 ≤ p.jitterRatio ∧ p.jitterRatio ≤ 1

noncomputable def factor (p : Policy EReal) (draw : EReal) : EReal :=
  1 + (-p.jitterRatio + (p.jitterRatio - -p.jitterRatio) * draw)

variable {p : Policy EReal} {hint more : Option EReal} {m n : Int} {j k : ℕ}
  {a b draw seconds : EReal}

theorem sound_of_isValid (h : p.isValid = true) : p.Sound := by
  obtain ⟨-, hbase, hmax, -, hratio, hcap⟩ := isValid_iff.mp h
  exact ⟨not_lt.mp hbase, not_lt.mp hmax, not_lt.mp hcap, hratio⟩

theorem doubled_eq (k : ℕ) : (doubled k : EReal) = ((2 ^ k : ℝ) : EReal) := by
  induction k with
  | zero => simp [doubled]
  | succ k ih =>
    have htwo : (1 + 1 : EReal) = ((1 + 1 : ℝ) : EReal) := by norm_cast
    rw [doubled, ih, htwo, ← EReal.coe_mul, pow_succ, one_add_one_eq_two]

theorem doubled_mono (h : j ≤ k) : (doubled j : EReal) ≤ doubled k := by
  rw [doubled_eq, doubled_eq, EReal.coe_le_coe_iff]
  exact pow_le_pow_right₀ one_le_two h

theorem doubled_nonneg (k : ℕ) : (0 : EReal) ≤ doubled k := by
  rw [doubled_eq]
  exact EReal.coe_nonneg.mpr (by positivity)

theorem Sound.computed_nonneg (h : p.Sound) (n : Int) : 0 ≤ p.computed n := by
  rw [computed, lesser_eq_min]
  exact le_min h.longest (mul_nonneg h.base (doubled_nonneg _))

theorem Sound.computed_mono (h : p.Sound) (hmn : m ≤ n) : p.computed m ≤ p.computed n := by
  rw [computed, computed, lesser_eq_min, lesser_eq_min]
  exact min_le_min le_rfl (mul_le_mul_of_nonneg_left (doubled_mono (by omega)) h.base)

theorem computed_le (p : Policy EReal) (n : Int) : p.computed n ≤ p.maxDelay := by
  rw [computed, lesser_eq_min]
  exact min_le_left _ _

theorem capped_eq (p : Policy EReal) (a : EReal) :
    p.capped a = if 0 < p.hintCap then min a p.hintCap else a := by
  rw [capped, lesser_eq_min]

theorem capped_mono (p : Policy EReal) (hab : a ≤ b) : p.capped a ≤ p.capped b := by
  rw [capped_eq, capped_eq]
  split
  · exact min_le_min hab le_rfl
  · exact hab

theorem heeding_some (p : Policy EReal) (n : Int) (a : EReal) :
    p.heeding n (some a) = max (p.computed n) (p.capped a) := by
  rw [heeding, greater_eq_max]

theorem computed_le_heeding (p : Policy EReal) (n : Int) (hint : Option EReal) :
    p.computed n ≤ p.heeding n hint := by
  cases hint with
  | none => exact le_rfl
  | some a =>
    rw [heeding_some]
    exact le_max_left _ _

theorem Sound.heeding_nonneg (h : p.Sound) (n : Int) (hint : Option EReal) : 0 ≤ p.heeding n hint :=
  (h.computed_nonneg n).trans (p.computed_le_heeding n hint)

theorem Sound.heeding_mono (h : p.Sound) (hmn : m ≤ n) (hmore : ∀ a ∈ hint, ∃ b ∈ more, a ≤ b) :
    p.heeding m hint ≤ p.heeding n more := by
  have hcomputed := h.computed_mono hmn
  cases hint with
  | none => exact hcomputed.trans (p.computed_le_heeding n more)
  | some a =>
    obtain ⟨b, hb, hab⟩ := hmore a rfl
    cases hb
    rw [heeding_some, heeding_some]
    exact max_le_max hcomputed (p.capped_mono hab)

theorem heeding_le (p : Policy EReal) (n : Int) (hint : Option EReal) :
    p.heeding n hint ≤ hint.elim p.maxDelay fun a => max p.maxDelay (p.capped a) := by
  cases hint with
  | none => exact p.computed_le n
  | some a =>
    rw [heeding_some]
    exact max_le_max (p.computed_le n) le_rfl

/-! ### The spread -/

theorem exists_real (h : 0 ≤ a ∧ a ≤ 1) : ∃ x : ℝ, a = x ∧ 0 ≤ x ∧ x ≤ 1 := by
  have hbot : a ≠ ⊥ := fun hbot => absurd h.1 (by simp [hbot])
  have htop : a ≠ ⊤ := fun htop => absurd h.2 (htop ▸ not_le.mpr (EReal.coe_lt_top 1))
  have hreal := EReal.coe_toReal htop hbot
  refine ⟨a.toReal, hreal.symm, EReal.coe_nonneg.mp (hreal ▸ h.1), ?_⟩
  rw [← EReal.coe_le_coe_iff, hreal]
  exact h.2

theorem Sound.exists_factor (h : p.Sound) (hdraw : 0 ≤ draw ∧ draw ≤ 1) :
    ∃ r d : ℝ, p.jitterRatio = r ∧ draw = d ∧
    p.factor draw = ((1 + r * (2 * d - 1) : ℝ) : EReal) ∧ (0 ≤ r ∧ r ≤ 1) ∧ 0 ≤ d ∧ d ≤ 1 := by
  obtain ⟨r, hr, hratio⟩ := exists_real h.ratio
  obtain ⟨d, rfl, hd⟩ := exists_real hdraw
  refine ⟨r, d, hr, rfl, ?_, hratio, hd⟩
  have hspread : 1 + r * (2 * d - 1) = 1 + (-r + (r - -r) * d) := by ring
  rw [factor, hr, hspread]
  norm_cast

theorem Sound.factor_mem (h : p.Sound) (hdraw : 0 ≤ draw ∧ draw ≤ 1) :
    0 ≤ 1 - p.jitterRatio ∧ 1 - p.jitterRatio ≤ p.factor draw ∧
    p.factor draw ≤ 1 + p.jitterRatio := by
  obtain ⟨r, d, hr, -, hfactor, hratio, hd⟩ := h.exists_factor hdraw
  have hlow : (1 : EReal) - r = ((1 - r : ℝ) : EReal) := by norm_cast
  have hhigh : (1 : EReal) + r = ((1 + r : ℝ) : EReal) := by norm_cast
  rw [hr, hfactor, hlow, hhigh, EReal.coe_le_coe_iff, EReal.coe_le_coe_iff]
  refine ⟨EReal.coe_nonneg.mpr (by linarith [hratio.2]), ?_, ?_⟩
  · nlinarith [mul_nonneg hratio.1 hd.1]
  · nlinarith [mul_nonneg hratio.1 (sub_nonneg.mpr hd.2)]

theorem Sound.factor_nonneg (h : p.Sound) (hdraw : 0 ≤ draw ∧ draw ≤ 1) : 0 ≤ p.factor draw :=
  (h.factor_mem hdraw).1.trans (h.factor_mem hdraw).2.1

theorem Sound.jittered_eq (h : p.Sound) (hdraw : 0 ≤ draw ∧ draw ≤ 1) (hseconds : 0 ≤ seconds) :
    p.jittered draw seconds = p.factor draw * seconds := by
  have hproduct : 0 ≤ p.factor draw * seconds := mul_nonneg (h.factor_nonneg hdraw) hseconds
  unfold jittered
  split
  · rename_i hplain
    rw [greater_eq_max, max_eq_right hseconds]
    rcases Bool.or_eq_true_iff.mp hplain with hzero | hratio
    · rw [le_antisymm (of_decide_eq_true hzero) hseconds, mul_zero]
    · obtain ⟨r, d, hr, -, hfactor, -⟩ := h.exists_factor hdraw
      rw [eq_of_beq hratio] at hr
      obtain rfl : r = 0 := (EReal.coe_eq_zero.mp hr.symm)
      rw [hfactor]
      simp
  · dsimp only
    rw [← factor, mul_comm, greater_eq_max, max_eq_right hproduct]

/-- Whatever the durations are counted in, the wait after up to 1024 failures is a number, and
beyond that there is none. In exact arithmetic it is never negative, grows with the failures and
with what the server asks for, and is no longer than the longest delay and what the server may ask
for. A draw leaves it between its parts by the ratio. -/
theorem waits_unless_beyond {α : Type} [OfNat α 0] [OfNat α 1] [Add α] [Mul α] [LT α]
    [DecidableLT α] (q : Policy α) (n : Int) (asked : Option α) :
    ((∃ seconds, q.wait n asked = .ok seconds) ↔ n ≤ 1024) ∧
    (1024 < n → q.wait n asked = .error .wait) ∧
    ∀ (p : Policy EReal) (hint : Option EReal) (seconds : EReal),
      p.isValid = true → p.wait n hint = .ok seconds →
      0 ≤ seconds ∧
      (∀ m more longer, n ≤ m → (∀ a ∈ hint, ∃ b ∈ more, a ≤ b) → p.wait m more = .ok longer →
        seconds ≤ longer) ∧
      seconds ≤ hint.elim p.maxDelay
        (fun a => max p.maxDelay (if 0 < p.hintCap then min a p.hintCap else a)) ∧
      ∀ draw, 0 ≤ draw → draw ≤ 1 → (1 - p.jitterRatio) * seconds ≤ p.jittered draw seconds ∧
        p.jittered draw seconds ≤ (1 + p.jitterRatio) * seconds := by
  refine ⟨⟨fun ⟨seconds, hwait⟩ => ?_, fun hn => ⟨_, q.wait_of_le asked hn⟩⟩,
    q.wait_of_lt asked, ?_⟩
  · by_contra hn
    cases (q.wait_of_lt asked (by omega)).symm.trans hwait
  · intro p hint seconds hvalid hwait
    have hp := sound_of_isValid hvalid
    obtain rfl := eq_heeding hwait
    have hnonneg := hp.heeding_nonneg n hint
    refine ⟨hnonneg, fun m more longer hle hmore hlonger => ?_, ?_, fun draw hlow hhigh => ?_⟩
    · rw [eq_heeding hlonger]
      exact hp.heeding_mono hle hmore
    · simpa only [capped_eq] using p.heeding_le n hint
    · obtain ⟨-, hmin, hmax⟩ := hp.factor_mem ⟨hlow, hhigh⟩
      rw [hp.jittered_eq ⟨hlow, hhigh⟩ hnonneg]
      exact ⟨mul_le_mul_of_nonneg_right hmin hnonneg, mul_le_mul_of_nonneg_right hmax hnonneg⟩

noncomputable def fourExact : Policy EReal :=
  ⟨4, (1 : ℝ), (30 : ℝ), (1 / 5 : ℝ), (120 : ℝ), retryStatuses⟩

theorem fourExact_isValid : fourExact.isValid = true := by
  have hle {x y : ℝ} (hxy : x ≤ y) : (x : EReal) ≤ y := EReal.coe_le_coe hxy
  refine isValid_iff.mpr ⟨by decide, not_lt.mpr ?_, not_lt.mpr ?_, not_lt.mpr ?_,
    ⟨?_, ?_⟩, not_lt.mpr ?_⟩
  · exact hle zero_le_one
  · exact hle (by norm_num)
  · exact hle (by norm_num)
  · exact hle (by norm_num)
  · exact hle (by norm_num)
  · exact hle (by norm_num)

/-- A server that asks for a wait without end gets what it may ask for at most. -/
theorem waits_unless_beyond_endless :
    ∃ seconds, fourExact.wait 1 (some ⊤) = .ok seconds ∧ 0 ≤ seconds ∧
    seconds ≤ (120 : ℝ) ∧ fourExact.jittered 1 seconds ≤ (1 + (1 / 5 : ℝ)) * seconds := by
  obtain ⟨hwaits, -, hexact⟩ := waits_unless_beyond fourExact 1 (some ⊤)
  obtain ⟨seconds, hwait⟩ := hwaits.mpr (by decide)
  obtain ⟨hnonneg, -, hlongest, hspread⟩ :=
    hexact fourExact (some ⊤) seconds fourExact_isValid hwait
  have hcap : 0 < fourExact.hintCap := EReal.coe_pos.mpr (by norm_num)
  have hmax : fourExact.maxDelay ≤ (120 : ℝ) := EReal.coe_le_coe (by norm_num)
  refine ⟨seconds, hwait, hnonneg, hlongest.trans ?_, (hspread 1 zero_le_one le_rfl).2⟩
  rw [Option.elim_some, if_pos hcap]
  exact max_le hmax (min_le_right _ _)

end Booru.Retry.Policy
