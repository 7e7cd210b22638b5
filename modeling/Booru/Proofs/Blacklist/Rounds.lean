import Mathlib.Data.List.Forall2
import Booru.Blacklist.Resolution
import Booru.Proofs.Run

/-! Rounds of resolving the users of one blacklist, each with a look-up of its own. A round changes
all user terms or none: up to the first that succeeds the blacklist stays as it is, and from then on
there is nothing left to ask for. -/

namespace Booru.Blacklist

open Run

variable {σ : Type}

def UserLookup.recorded (lookup : UserLookup σ) :
    UserLookup (σ × List (String × Except Failure Json)) := fun name s =>
  let (answer, t) := lookup name s.1
  (answer, (t, s.2 ++ [(name, answer)]))

structure Round where
  calls : List (String × Except Failure Json)
  result : Except Failure Nat
  left : Blacklist

def round (lookup : UserLookup σ) (s : σ × Blacklist) : Round where
  calls := (resolveInPlace lookup.recorded ((s.1, []), s.2)).2.1.2
  result := (resolveInPlace lookup s).1
  left := (resolveInPlace lookup s).2.2

def rounds : List (UserLookup σ) → σ × Blacklist → List Round
  | [], _ => []
  | lookup :: later, s => round lookup s :: rounds later (resolveInPlace lookup s).2

def unresolvedNames (b : Blacklist) : List String :=
  ((b.tokens.filter (·.isUnresolvedUser)).map (·.payload)).eraseDups

/-- What is raised where a call does not give an integer of 64 bits. -/
inductive Refused (name : String) : Except Failure Json → Failure → Prop
  | interrupted {f : Failure} (h : f.isInterrupt = true) : Refused name (.error f) f
  | failed {f : Failure} (h : f.isInterrupt = false) :
    Refused name (.error f) (.unresolvable name f)
  | outOfRange {n : Int} (h : fitsWord n = false) (hshort : Text.isLong n = false) :
      Refused name (.ok (.int n)) (.userOutOfRange name n)
  | noInteger {answer : Json} (h : ∀ n, answer ≠ .int n) (hshort : answer.hasLongInteger = false) :
      Refused name (.ok answer) (.nonIntegerUser name answer)
  | unwritable {answer : Json} (h : ∀ n, answer = .int n → fitsWord n = false)
      (hlong : answer.hasLongInteger = true) :
      Refused name (.ok answer) (.argument .longInteger)

def answered (e : String × Int) : String × Except Failure Json := (e.1, .ok (.int e.2))

/-- A term before and after a round that succeeds. -/
inductive Rewritten (numbers : List (String × Int)) : Token → Token → Prop
  | kept {t : Token} (h : t.isUnresolvedUser = false) : Rewritten numbers t t
  | user {t u : Token} {n : Int} (h : t.isUnresolvedUser = true) (number : (t.payload, n) ∈ numbers)
      (resolved : t.withUser n = .ok u) (sign : u.negated = t.negated) : Rewritten numbers t u

/-- The names are asked for one after the other up to the first that is refused. -/
inductive Round.Failed (b : Blacklist) : Round → Prop
  | intro {numbers : List (String × Int)} {name : String} {rest : List String}
      {answer : Except Failure Json} {f : Failure}
      (names : b.unresolvedNames = numbers.map Prod.fst ++ name :: rest)
      (fit : ∀ e ∈ numbers, fitsWord e.2 = true) (refused : Refused name answer f) :
      Round.Failed b ⟨numbers.map answered ++ [(name, answer)], .error f, b⟩

/-- Every name is asked for, and every user term has the number of its name. -/
inductive Round.Succeeded (b : Blacklist) : Round → Prop
  | intro {numbers : List (String × Int)} {lines : List Line}
      (names : b.unresolvedNames = numbers.map Prod.fst)
      (fit : ∀ e ∈ numbers, fitsWord e.2 = true)
      (rewritten : List.Forall₂ (List.Forall₂ (Rewritten numbers)) b.lines lines) :
      Round.Succeeded b
        ⟨numbers.map answered, .ok (b.tokens.countP (·.isUnresolvedUser)), ⟨lines⟩⟩

theorem refused_refusal (name : String) {answer : Json}
    (h : ∀ n, answer = .int n → fitsWord n = false) :
    Refused name (.ok answer) (refusal name answer) := by
  unfold refusal
  cases hlong : answer.hasLongInteger with
  | true => exact .unwritable h hlong
  | false =>
    cases answer with
    | int n => exact .outOfRange (h n rfl) hlong
    | _ => exact .noInteger nofun hlong

theorem userNumber_cases (name : String) (answer : Json) :
    (∃ n, answer = .int n ∧ fitsWord n = true ∧ userNumber name answer = .ok n) ∨
      ∃ f, Refused name (.ok answer) f ∧ userNumber name answer = .error f := by
  cases answer with
  | int n =>
    by_cases h : fitsWord n = true
    · exact .inl ⟨n, rfl, h, if_pos h⟩
    · refine .inr ⟨_, refused_refusal name fun m hm => ?_, if_neg h⟩
      cases hm
      exact Bool.not_eq_true _ ▸ h
  | _ => exact .inr ⟨_, refused_refusal name nofun, rfl⟩

theorem lookUpNumber_recorded (lookup : UserLookup σ) (name : String) (s : σ)
    (log : List (String × Except Failure Json)) :
    (∃ n t, fitsWord n = true ∧ lookUpNumber lookup.recorded name (s, log) =
      (.ok n, (t, log ++ [answered (name, n)]))) ∨
    ∃ answer f t, Refused name answer f ∧ lookUpNumber lookup.recorded name (s, log) =
      (.error f, (t, log ++ [(name, answer)])) := by
  have hrun : lookUpNumber lookup.recorded name (s, log) = match lookup name s with
      | (.ok answer, t) => (userNumber name answer, (t, log ++ [(name, .ok answer)]))
      | (.error f, t) =>
        (.error (if f.isInterrupt then f else .unresolvable name f),
          (t, log ++ [(name, .error f)])) := by
    rw [lookUpNumber, bind_apply, tryCatch_apply]
    rcases h : lookup name s with ⟨f | answer, t⟩ <;> simp only [UserLookup.recorded, h]
    · rfl
    · rfl
  rw [hrun]
  rcases lookup name s with ⟨f | answer, t⟩
  · right
    by_cases h : f.isInterrupt = true
    · exact ⟨.error f, f, t, .interrupted h, by simp only [if_pos h]⟩
    · exact ⟨.error f, _, t, .failed (Bool.not_eq_true _ ▸ h), by simp only [if_neg h]⟩
  · obtain ⟨n, rfl, h, hn⟩ | ⟨f, h, hf⟩ := userNumber_cases name answer
    · exact .inl ⟨n, t, h, by simp only [hn, answered]⟩
    · exact .inr ⟨.ok answer, f, t, h, by simp only [hf]⟩

/-- The names that are still to be asked for when some are known. -/
def pending (known : List (String × Int)) (tokens : List Token) : List String :=
  (((tokens.filter (·.isUnresolvedUser)).map (·.payload)).filter
    fun name => (known.lookup name).isNone).eraseDups

theorem pending_nil (tokens : List Token) :
    pending [] tokens = ((tokens.filter (·.isUnresolvedUser)).map (·.payload)).eraseDups := by
  simp [pending]

theorem pending_cons_new {known : List (String × Int)} {t : Token} (tokens : List Token) (n : Int)
    (h : (t.isUnresolvedUser && (known.lookup t.payload).isNone) = true) :
    pending known (t :: tokens) = t.payload :: pending (known ++ [(t.payload, n)]) tokens := by
  rw [Bool.and_eq_true] at h
  have hnew (name : String) : ((known ++ [(t.payload, n)]).lookup name).isNone =
      ((known.lookup name).isNone && !(name == t.payload)) := by
    rw [List.lookup_append, List.lookup_cons]
    cases name == t.payload <;> cases known.lookup name <;> rfl
  simp only [pending, List.filter_cons, h, if_true, List.map_cons, List.eraseDups_cons,
    List.filter_filter, hnew, Bool.and_comm]

theorem pending_cons_old {known : List (String × Int)} {t : Token} (tokens : List Token)
    (h : (t.isUnresolvedUser && (known.lookup t.payload).isNone) = false) :
    pending known (t :: tokens) = pending known tokens := by
  by_cases hu : t.isUnresolvedUser = true
  · have hk : (known.lookup t.payload).isNone = false := by simpa [hu] using h
    simp [pending, hu, hk]
  · simp [pending, hu]

theorem lookUpNumbers_recorded (lookup : UserLookup σ) (tokens : List Token)
    (known : List (String × Int)) (s : σ) (log : List (String × Except Failure Json)) :
    (∃ (numbers : List (String × Int)) (t : σ), pending known tokens = numbers.map Prod.fst ∧
      (∀ e ∈ numbers, fitsWord e.2 = true) ∧
      lookUpNumbers lookup.recorded tokens known (s, log) =
        (.ok (known ++ numbers), (t, log ++ numbers.map answered))) ∨
    ∃ (numbers : List (String × Int)) (name : String) (rest : List String)
        (answer : Except Failure Json) (f : Failure) (t : σ),
      pending known tokens = numbers.map Prod.fst ++ name :: rest ∧
      (∀ e ∈ numbers, fitsWord e.2 = true) ∧ Refused name answer f ∧
      lookUpNumbers lookup.recorded tokens known (s, log) =
        (.error f, (t, log ++ (numbers.map answered ++ [(name, answer)]))) := by
  induction tokens generalizing known s log with
  | nil => exact .inl ⟨[], s, rfl, by simp, by simp [lookUpNumbers]; rfl⟩
  | cons u tokens ih =>
    cases h : u.isUnresolvedUser && (known.lookup u.payload).isNone with
    | false =>
      rw [pending_cons_old tokens h, lookUpNumbers, if_neg (Bool.not_eq_true _ ▸ h)]
      exact ih known s log
    | true =>
      rw [lookUpNumbers, if_pos h, bind_apply]
      obtain ⟨n, t, hn, hr⟩ | ⟨answer, f, t, hf, hr⟩ := lookUpNumber_recorded lookup u.payload s log
      · have hnames := pending_cons_new tokens n h
        rw [hr, hnames]
        obtain ⟨numbers, t', hp, hfit, hrun⟩
            | ⟨numbers, name, rest, answer, f, t', hp, hfit, hf, hrun⟩ :=
          ih (known ++ [(u.payload, n)]) t (log ++ [answered (u.payload, n)])
        · refine .inl ⟨(u.payload, n) :: numbers, t', by rw [hp]; rfl, ?_, ?_⟩
          · simpa [hn] using hfit
          · simpa using hrun
        · refine .inr ⟨(u.payload, n) :: numbers, name, rest, answer, f,
            t', by rw [hp]; rfl, ?_, hf, ?_⟩
          · simpa [hn] using hfit
          · simpa using hrun
      · rw [hr]
        exact .inr ⟨[], u.payload, _, answer, f, t, pending_cons_new tokens 0 h, by simp, hf, rfl⟩

theorem alike_lookUpNumbers {τ : Type} {R : σ → τ → Prop} {lookup : UserLookup σ}
    {lookup' : UserLookup τ} (h : ∀ name, Alike R (lookup name) (lookup' name))
    (tokens : List Token) (known : List (String × Int)) :
    Alike R (lookUpNumbers lookup tokens known) (lookUpNumbers lookup' tokens known) := by
  have hone (name : String) : Alike R (lookUpNumber lookup name) (lookUpNumber lookup' name) :=
    .bind (.tryCatch (h name) fun _ => .throw _) fun _ => .lift _
  induction tokens generalizing known with
  | nil => exact .pure known
  | cons t tokens ih =>
    simp only [lookUpNumbers]
    split
    · exact .bind (hone t.payload) fun n => ih _
    · exact ih known

theorem alike_resolve {τ : Type} {R : σ → τ → Prop} {lookup : UserLookup σ} {lookup' : UserLookup τ}
    (h : ∀ name, Alike R (lookup name) (lookup' name)) (b : Blacklist) :
    Alike R (b.resolve lookup) (b.resolve lookup') := by
  intro s t hst
  have hnumbers := alike_lookUpNumbers h b.tokens [] s t hst
  simp only [resolve, resolveInPlace]
  generalize lookUpNumbers lookup b.tokens [] s = end₁ at hnumbers ⊢
  generalize lookUpNumbers lookup' b.tokens [] t = end₂ at hnumbers ⊢
  obtain ⟨_ | numbers, s'⟩ := end₁ <;> obtain ⟨_ | numbers', t'⟩ :=
    end₂ <;> obtain ⟨⟨⟩, hend⟩ := hnumbers
  · exact ⟨rfl, hend⟩
  · exact ⟨rfl, hend⟩

theorem shadows_lookUpNumbers (lookup : UserLookup σ) (tokens : List Token)
    (known : List (String × Int)) :
    Shadows Prod.fst (lookUpNumbers lookup.recorded tokens known)
      (lookUpNumbers lookup tokens known) :=
  shadows_iff_alike.mpr <| alike_lookUpNumbers (fun _ => shadows_iff_alike.mp
    fun _ => rfl) tokens known

theorem mem_of_lookup_eq_some {numbers : List (String × Int)} {name : String} {n : Int}
    (h : numbers.lookup name = some n) : (name, n) ∈ numbers := by
  obtain ⟨front, back, rfl, -⟩ := List.lookup_eq_some_iff.1 h
  simp

theorem Token.numbered_eq_ok {numbers : List (String × Int)} {t : Token}
    (h : t.isUnresolvedUser = true) (hname : t.payload ∈ numbers.map Prod.fst) :
    ∃ u, t.numbered numbers = .ok u ∧ Rewritten numbers t u := by
  have hsome : (numbers.lookup t.payload).isSome := by
    rw [List.lookup_isSome_iff]
    simpa using hname
  obtain ⟨n, hn⟩ := Option.isSome_iff_exists.1 hsome
  have hkind : (t.kind == .user) = true := by
    simp only [Token.isUnresolvedUser, Bool.and_eq_true] at h
    exact h.1
  have hu : t.withUser n = .ok (t.resolvedTo n) := if_pos hkind
  exact ⟨_, by simp [numbered, hn, hu], .user h (mem_of_lookup_eq_some hn) hu rfl⟩

theorem Line.numbered_eq_ok {numbers : List (String × Int)} (l : Line)
    (h : ∀ t ∈ l, t.isUnresolvedUser = true → t.payload ∈ numbers.map Prod.fst) :
    ∃ l', Line.numbered numbers l = (.ok (l.countP (·.isUnresolvedUser)), l') ∧
      List.Forall₂ (Rewritten numbers) l l' := by
  induction l with
  | nil => exact ⟨[], rfl, .nil⟩
  | cons t l ih =>
    obtain ⟨l', hl, hrest⟩ := ih fun u hu => h u (List.mem_cons_of_mem t hu)
    cases ht : t.isUnresolvedUser with
    | false => exact ⟨t :: l', by simp [numbered, ht, hl], .cons (.kept ht) hrest⟩
    | true =>
      obtain ⟨u, hu, htu⟩ := Token.numbered_eq_ok ht (h t List.mem_cons_self ht)
      exact ⟨u :: l', by simp [numbered, ht, hu, hl, Except.map], .cons htu hrest⟩

theorem numberedLines_eq_ok {numbers : List (String × Int)} (lines : List Line)
    (h : ∀ t ∈ lines.flatten, t.isUnresolvedUser = true → t.payload ∈ numbers.map Prod.fst) :
    ∃ lines', numberedLines numbers lines =
        (.ok (lines.flatten.countP (·.isUnresolvedUser)), lines') ∧
      List.Forall₂ (List.Forall₂ (Rewritten numbers)) lines lines' := by
  induction lines with
  | nil => exact ⟨[], rfl, .nil⟩
  | cons l lines ih =>
    rw [List.flatten_cons] at h ⊢
    obtain ⟨l', hl, hline⟩ := Line.numbered_eq_ok l fun t ht => h t (List.mem_append_left _ ht)
    obtain ⟨lines', hls, hrest⟩ := ih fun t ht => h t (List.mem_append_right _ ht)
    refine ⟨l' :: lines', ?_, .cons hline hrest⟩
    simp [numberedLines, hl, hls, Except.map, List.countP_append]

theorem round_cases (lookup : UserLookup σ) (s : σ) (b : Blacklist) :
    (round lookup (s, b)).Failed b ∨ (round lookup (s, b)).Succeeded b := by
  have hshadow := shadows_lookUpNumbers lookup b.tokens [] (s, [])
  have hnames : pending [] b.tokens = b.unresolvedNames := pending_nil b.tokens
  obtain ⟨numbers, t, hp, hfit, hrun⟩ | ⟨numbers, name, rest, answer, f, t, hp, hfit, hf, hrun⟩ :=
    lookUpNumbers_recorded lookup b.tokens [] s []
  · right
    rw [hp] at hnames
    have hcovered : ∀ t ∈ b.tokens, t.isUnresolvedUser = true →
        t.payload ∈ numbers.map Prod.fst := by
      intro t ht hu
      rw [hnames, unresolvedNames, List.mem_eraseDups]
      exact List.mem_map_of_mem (List.mem_filter.2 ⟨ht, hu⟩)
    obtain ⟨lines, hlines, hrewritten⟩ := numberedLines_eq_ok b.lines hcovered
    simp only [hrun] at hshadow
    have hround : round lookup (s, b) =
        ⟨numbers.map answered, .ok (b.tokens.countP (·.isUnresolvedUser)), ⟨lines⟩⟩ := by
      simp only [round, resolveInPlace, hrun, hshadow, List.nil_append, hlines]
      rfl
    rw [hround]
    exact .intro hnames.symm hfit hrewritten
  · left
    rw [hp] at hnames
    simp only [hrun] at hshadow
    have hround : round lookup (s, b) =
        ⟨numbers.map answered ++ [(name, answer)], .error f, b⟩ := by
      simp only [round, resolveInPlace, hrun, hshadow, List.nil_append]
    rw [hround]
    exact .intro hnames.symm hfit hf

theorem isResolved_iff (b : Blacklist) :
    b.isResolved = true ↔ ∀ l ∈ b.lines, ∀ t ∈ l, t.isUnresolvedUser = false := by
  simp [isResolved, hasUnresolvedUsers, tokens]

theorem Rewritten.isUnresolvedUser {numbers : List (String × Int)} {t u : Token}
    (h : Rewritten numbers t u) : u.isUnresolvedUser = false := by
  cases h with
  | kept h => exact h
  | user h number resolved sign =>
    simp only [Token.withUser] at resolved
    split at resolved
    · cases resolved
      rfl
    · cases resolved

theorem Rewritten.eq {numbers : List (String × Int)} {t u : Token}
    (ht : t.isUnresolvedUser = false) (h : Rewritten numbers t u) : t = u := by
  cases h with
  | kept => rfl
  | user h => exact absurd (ht.symm.trans h) Bool.false_ne_true

theorem forall_mem_right {α β : Type} {R : α → β → Prop} {P : β → Prop} {xs : List α} {ys : List β}
    (hR : ∀ x y, R x y → P y) (h : List.Forall₂ R xs ys) : ∀ y ∈ ys, P y := by
  induction h with
  | nil => exact fun _ hy => nomatch hy
  | cons hxy _ ih => exact List.forall_mem_cons.2 ⟨hR _ _ hxy, ih⟩

theorem eq_of_forall₂ {α : Type} {R : α → α → Prop} {P : α → Prop} {xs ys : List α}
    (hR : ∀ x y, P x → R x y → x = y) (hP : ∀ x ∈ xs, P x) (h : List.Forall₂ R xs ys) :
    xs = ys := by
  have hboth := (List.forall₂_and_left xs ys).2 ⟨hP, h⟩
  have heq : List.Forall₂ (· = ·) xs ys := hboth.imp fun x y hxy => hR x y hxy.1 hxy.2
  rwa [List.forall₂_eq_eq_eq] at heq

theorem Round.Succeeded.isResolved_left {b : Blacklist} {r : Round} (h : r.Succeeded b) :
    r.left.isResolved = true := by
  obtain ⟨names, fit, rewritten⟩ := h
  rw [isResolved_iff]
  exact forall_mem_right (fun _ _ => forall_mem_right fun _ _ => Rewritten.isUnresolvedUser)
    rewritten

theorem unresolvedNames_eq_nil {b : Blacklist} (h : b.isResolved = true) :
    b.unresolvedNames = [] := by
  have hnone : b.tokens.filter (·.isUnresolvedUser) = [] := by
    simpa [isResolved, hasUnresolvedUsers, List.filter_eq_nil_iff] using h
  rw [unresolvedNames, hnone]
  rfl

theorem Round.Succeeded.eq_of_isResolved {b : Blacklist} {r : Round} (h : r.Succeeded b)
    (hb : b.isResolved = true) : r = ⟨[], .ok 0, b⟩ := by
  have hcount : b.tokens.countP (·.isUnresolvedUser) = 0 := by
    simpa [isResolved, hasUnresolvedUsers, List.countP_eq_zero] using hb
  obtain @⟨numbers, lines, names, fit, rewritten⟩ := h
  rw [unresolvedNames_eq_nil hb, eq_comm, List.map_eq_nil_iff] at names
  have hlines : b.lines = lines :=
    eq_of_forall₂ (fun _ _ => eq_of_forall₂ fun _ _ => Rewritten.eq)
      ((isResolved_iff b).1 hb) rewritten
  rw [names, hcount, ← hlines]
  rfl

theorem Round.Failed.result_eq {b : Blacklist} {r : Round} (h : r.Failed b) :
    ∃ f, r.result = .error f := by
  cases h
  exact ⟨_, rfl⟩

theorem Round.Succeeded.result_eq {b : Blacklist} {r : Round} (h : r.Succeeded b) :
    ∃ n, r.result = .ok n := by
  cases h
  exact ⟨_, rfl⟩

theorem Round.Failed.left_eq {b : Blacklist} {r : Round} (h : r.Failed b) : r.left = b := by
  cases h
  rfl

theorem Round.Failed.not_isResolved {b : Blacklist} {r : Round} (h : r.Failed b) :
    b.isResolved = false := by
  by_contra hb
  obtain ⟨names, fit, refused⟩ := h
  simp [unresolvedNames_eq_nil (Bool.not_eq_false _ ▸ hb)] at names

theorem Round.Succeeded.left_ne_iff {b : Blacklist} {r : Round} (h : r.Succeeded b) :
    r.left ≠ b ↔ b.hasUnresolvedUsers = true := by
  have hleft := h.isResolved_left
  constructor
  · intro hne
    by_contra hb
    have hres : b.isResolved = true := by simpa [isResolved] using hb
    exact hne (by rw [h.eq_of_isResolved hres])
  · intro hb heq
    rw [heq] at hleft
    simp [isResolved, hb] at hleft

theorem rounds_cons (lookup : UserLookup σ) (later : List (UserLookup σ)) (s : σ) (b : Blacklist) :
    rounds (lookup :: later) (s, b) = round lookup (s, b) ::
      rounds later ((resolveInPlace lookup (s, b)).2.1, (round lookup (s, b)).left) := rfl

theorem length_rounds (lookups : List (UserLookup σ)) (s : σ × Blacklist) :
    (rounds lookups s).length = lookups.length := by
  induction lookups generalizing s with
  | nil => rfl
  | cons lookup later ih => exact congrArg (· + 1) (ih _)

theorem rounds_of_isResolved (lookups : List (UserLookup σ)) (s : σ) {b : Blacklist}
    (hb : b.isResolved = true) : ∀ r ∈ rounds lookups (s, b), r = ⟨[], .ok 0, b⟩ := by
  induction lookups generalizing s with
  | nil => exact fun _ hr => nomatch hr
  | cons lookup later ih =>
    have hround : round lookup (s, b) = ⟨[], .ok 0, b⟩ := by
      obtain h | h := round_cases lookup s b
      · exact absurd (hb.symm.trans h.not_isResolved) Bool.noConfusion
      · exact h.eq_of_isResolved hb
    rw [rounds_cons, hround]
    exact List.forall_mem_cons.2 ⟨rfl, ih _⟩

/-- Over any rounds a blacklist changes at most once, in the first round that succeeds, and
only if it names users then. The rounds before that one fail and leave it alone, those
after it ask for nothing. -/
theorem rounds_all_or_nothing (lookups : List (UserLookup σ)) (s : σ) (b : Blacklist) :
    (rounds lookups (s, b)).length = lookups.length ∧
    ∃ failed, (∀ r ∈ failed, r.Failed b) ∧
      (rounds lookups (s, b) = failed ∨ ∃ first later,
        rounds lookups (s, b) = failed ++ first :: later ∧ first.Succeeded b ∧
        first.left.isResolved = true ∧ (first.left ≠ b ↔ b.hasUnresolvedUsers = true) ∧
        ∀ r ∈ later, r = ⟨[], .ok 0, first.left⟩) := by
  refine ⟨length_rounds lookups (s, b), ?_⟩
  induction lookups generalizing s with
  | nil => exact ⟨[], List.forall_mem_nil _, .inl rfl⟩
  | cons lookup later ih =>
    obtain h | h := round_cases lookup s b
    · obtain ⟨failed, hfailed, hrest⟩ := ih (resolveInPlace lookup (s, b)).2.1
      rw [rounds_cons, h.left_eq]
      refine ⟨round lookup (s, b) :: failed, List.forall_mem_cons.2 ⟨h, hfailed⟩, ?_⟩
      obtain hall | ⟨first, after, hsplit, hfirst⟩ := hrest
      · exact .inl (by rw [hall])
      · exact .inr ⟨first, after, by rw [hsplit]; rfl, hfirst⟩
    · refine ⟨[], List.forall_mem_nil _,
        .inr ⟨_, _, rounds_cons lookup later s b, h, h.isResolved_left, h.left_ne_iff, ?_⟩⟩
      exact rounds_of_isResolved later (resolveInPlace lookup (s, b)).2.1 h.isResolved_left

end Booru.Blacklist
