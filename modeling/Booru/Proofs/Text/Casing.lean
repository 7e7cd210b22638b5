import Booru.Text.Lowercase

/-! Lower case is stable: no small letter of the table is itself a capital of the table, so putting
a character into lower case twice is the same as doing it once. -/

namespace Booru.Text

namespace CaseRun

def low (r : CaseRun) : Nat := (r.first + r.shift).toNat

def high (r : CaseRun) : Nat := (r.last + r.shift).toNat

/-- The small letters of `r` are no capitals of `s`: they lie before or behind them, or between
them. All pairs of runs are compared, so the comparison is one that the kernel does at once. -/
def apart (r s : CaseRun) : Bool :=
  Nat.blt r.high s.first || Nat.blt s.last r.low ||
    ((r.step == 2 || r.first == r.last) && s.step == 2 && (r.low + s.first) % 2 == 1)

def sane (r : CaseRun) : Bool :=
  0 ≤ (r.first : Int) + r.shift && r.high < 0xD800 ||
    0 ≤ (r.first : Int) + r.shift && 0xDFFF < r.low && r.high < 0x110000

def beyond (r : CaseRun) : Bool := 128 ≤ r.low || r.low == 0x6B && r.high == 0x6B

end CaseRun

theorem lowerRuns_apart : (lowerRuns.all fun r => lowerRuns.all r.apart) = true := by decide +kernel

set_option maxRecDepth 4000 in
theorem lowerRuns_sane : lowerRuns.all CaseRun.sane = true := by decide

set_option maxRecDepth 4000 in
theorem lowerRuns_beyond : lowerRuns.all CaseRun.beyond = true := by decide

set_option maxRecDepth 4000 in
theorem lowerRuns_undotted : (lowerRuns.all fun r => r.high < 0x130 || 0x130 < r.low) = true := by
  decide

variable {r s : CaseRun} {n : Nat}

theorem CaseRun.covers_iff :
    r.covers n = true ↔ r.first ≤ n ∧ n ≤ r.last ∧ (n - r.first) % r.step = 0 := by
  simp [CaseRun.covers, and_assoc]

theorem CaseRun.sane_of_mem (hr : r ∈ lowerRuns) : r.sane = true :=
  List.all_eq_true.mp lowerRuns_sane r hr

theorem CaseRun.shifted (hsane : r.sane = true) (h : r.covers n = true) :
    (r.apply n).toNat = (n + r.shift).toNat ∧ r.low ≤ (n + r.shift).toNat ∧
      (n + r.shift).toNat ≤ r.high := by
  obtain ⟨hfirst, hlast, -⟩ := CaseRun.covers_iff.mp h
  simp only [CaseRun.sane, Bool.or_eq_true, Bool.and_eq_true, decide_eq_true_eq] at hsane
  have hlow : r.low ≤ (n + r.shift).toNat := by
    unfold CaseRun.low
    omega
  have hhigh : (n + r.shift).toNat ≤ r.high := by
    unfold CaseRun.high
    omega
  have hvalid : (n + r.shift).toNat.isValidChar := by
    unfold Nat.isValidChar
    omega
  refine ⟨?_, hlow, hhigh⟩
  rw [CaseRun.apply, Char.ofNat, dif_pos hvalid]
  rfl

theorem CaseRun.not_covers_shifted (hr : r ∈ lowerRuns) (hs : s ∈ lowerRuns)
    (h : r.covers n = true) :
    s.covers (n + r.shift).toNat = false := by
  have hsane := CaseRun.sane_of_mem hr
  obtain ⟨-, hlow, hhigh⟩ := CaseRun.shifted hsane h
  obtain ⟨hfirst, hlast, hstep⟩ := CaseRun.covers_iff.mp h
  simp only [CaseRun.sane, Bool.or_eq_true, Bool.and_eq_true, decide_eq_true_eq] at hsane
  have hapart := List.all_eq_true.mp (List.all_eq_true.mp lowerRuns_apart r hr) s hs
  rw [Bool.eq_false_iff]
  intro hcov
  obtain ⟨hfirst', hlast', hstep'⟩ := CaseRun.covers_iff.mp hcov
  simp only [CaseRun.apart, Bool.or_eq_true, Bool.and_eq_true, Nat.blt_eq, beq_iff_eq] at hapart
  rcases hapart with (hbefore | hbehind) | ⟨⟨hr2, hs2⟩, hodd⟩
  · omega
  · omega
  · -- both advance in twos, from starts an odd number apart
    have hlow' : r.low = (r.first + r.shift).toNat := rfl
    rw [hs2] at hstep'
    rcases hr2 with hr2 | hone
    · rw [hr2] at hstep
      omega
    · omega

theorem lowerChar_ascii {c : Char} (h : c.toNat < 128) :
    lowerChar c = c.toLower := by simp [lowerChar, h]

theorem lowerFrom_plain {cs : List Char} (h : ∀ c ∈ cs, c ≠ 'Σ' ∧ c ≠ dottedCapitalI)
    (before : List Char) :
    lowerFrom before cs = cs.map lowerChar := by
  induction cs generalizing before with
  | nil => rfl
  | cons c cs ih =>
    obtain ⟨⟨hsigma, hdot⟩, htail⟩ := List.forall_mem_cons.mp h
    rw [lowerFrom, if_neg hsigma, lowerChars, if_neg hdot, ih htail]
    rfl

theorem toList_lower_ascii {s : String} (h : ∀ c ∈ s.toList, c.toNat < 128) :
    (lower s).toList = s.toList.map Char.toLower := by
  have hplain : ∀ c ∈ s.toList, c ≠ 'Σ' ∧ c ≠ dottedCapitalI := by
    intro c hc
    have hlow := h c hc
    constructor
    · rintro rfl
      exact absurd hlow (by decide)
    · rintro rfl
      exact absurd hlow (by decide)
  rw [lower, String.toList_ofList, lowerFrom_plain hplain]
  exact List.map_congr_left fun c hc => lowerChar_ascii (h c hc)

theorem lowerChar_cases {motive : Char → Prop} (c : Char) (ascii : c.toNat < 128 → motive c.toLower)
    (run : ∀ r ∈ lowerRuns, r.covers c.toNat = true → motive (r.apply c.toNat))
    (same : ¬ c.toNat < 128 → lowerChar c = c → motive c) : motive (lowerChar c) := by
  by_cases h : c.toNat < 128
  · rw [lowerChar_ascii h]
    exact ascii h
  · cases hfind : lowerRuns.find? (·.covers c.toNat) with
    | none =>
      have hdef : lowerChar c = c := by rw [lowerChar, if_neg h, hfind]
      rw [hdef]
      exact same h hdef
    | some r =>
      rw [lowerChar, if_neg h, hfind]
      exact run r (List.mem_of_find?_eq_some hfind) (by simpa using List.find?_some hfind)

theorem forall_ascii {motive : Char → Prop} (h : ∀ n < 128, motive (Char.ofNat n)) {c : Char}
    (hc : c.toNat < 128) : motive c := by
  simpa using h c.toNat hc

theorem toLower_ascii {c : Char} (h : c.toNat < 128) :
    c.toLower.toNat < 128 ∧ c.toLower.toLower = c.toLower :=
  forall_ascii (motive := fun c => c.toLower.toNat < 128 ∧ c.toLower.toLower = c.toLower)
    (by decide) h

theorem lowerChar_lowerChar (c : Char) : lowerChar (lowerChar c) = lowerChar c := by
  refine lowerChar_cases (motive := fun low => lowerChar low = low) c (fun h => ?_)
    (fun r hr hcov => ?_)
    fun _ h => h
  · rw [lowerChar_ascii (toLower_ascii h).1, (toLower_ascii h).2]
  · obtain ⟨hval, hlow, hhigh⟩ := CaseRun.shifted (CaseRun.sane_of_mem hr) hcov
    have hbeyond := List.all_eq_true.mp lowerRuns_beyond r hr
    simp only [CaseRun.beyond, Bool.or_eq_true, Bool.and_eq_true, decide_eq_true_eq,
      beq_iff_eq] at hbeyond
    rcases hbeyond with habove | ⟨hk, hk'⟩
    · have hnone : lowerRuns.find? (·.covers (r.apply c.toNat).toNat) = none := by
        rw [List.find?_eq_none]
        intro s hs
        rw [hval, CaseRun.not_covers_shifted hr hs hcov]
        simp
      have hge : ¬ (r.apply c.toNat).toNat < 128 := by omega
      simp [lowerChar, hge, hnone]
    · have : r.apply c.toNat = 'k' := by
        rw [← Char.toNat_inj, hval, show 'k'.toNat = 0x6B from rfl]
        omega
      rw [this]
      rfl

theorem lowerChar_ne_dottedCapitalI {c : Char} (h : c ≠ dottedCapitalI) :
    lowerChar c ≠ dottedCapitalI := by
  refine lowerChar_cases (motive := (· ≠ dottedCapitalI)) c (fun hc => ?_) (fun r hr hcov => ?_)
    fun _ _ => h
  · intro heq
    have := (toLower_ascii hc).1
    rw [heq] at this
    exact absurd this (by decide)
  · intro heq
    obtain ⟨hval, hlow, hhigh⟩ := CaseRun.shifted (CaseRun.sane_of_mem hr) hcov
    have hout := List.all_eq_true.mp lowerRuns_undotted r hr
    simp only [Bool.or_eq_true, decide_eq_true_eq] at hout
    rw [heq, show dottedCapitalI.toNat = 0x130 from rfl] at hval
    omega

theorem lowerChar_of_ascii {c low : Char} (h : lowerChar c = low) (hlow : low.toNat < 128)
    (hk : low ≠ 'k') :
    c.toNat < 128 := by
  revert h
  refine lowerChar_cases (motive := fun x => x = low → c.toNat < 128) c (fun hc _ => hc)
    (fun r hr hcov heq => ?_) fun hc _ heq => ?_
  · obtain ⟨hval, hleast, hhigh⟩ := CaseRun.shifted (CaseRun.sane_of_mem hr) hcov
    have hbeyond := List.all_eq_true.mp lowerRuns_beyond r hr
    simp only [CaseRun.beyond, Bool.or_eq_true, Bool.and_eq_true, decide_eq_true_eq,
      beq_iff_eq] at hbeyond
    rw [heq] at hval
    have : low ≠ 'k' ↔ low.toNat ≠ 0x6B := not_congr Char.toNat_inj.symm
    have := this.mp hk
    omega
  · rw [← heq] at hlow
    exact absurd hlow hc

end Booru.Text
