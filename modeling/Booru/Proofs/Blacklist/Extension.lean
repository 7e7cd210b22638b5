import Booru.Proofs.Blacklist.Histories

/-! Resolving a blacklist that was joined from two. A name that stands in both is asked for once
only, but as long as a look-up says the same of a name whenever it is asked, every term comes out as
if it had been looked up by itself. So users can be resolved before the joining or after it. -/

namespace Booru.Blacklist

open Run

variable {σ : Type} {lookup : UserLookup σ} {number : String → Except Failure Int}

/-- What comes of a name does not depend on when it is asked for. -/
def UserLookup.Steady (lookup : UserLookup σ) : Prop := ∀ name s t,
    (lookup name s).1 = (lookup name t).1

def Token.settled (number : String → Except Failure Int) (t : Token) : Except Failure Token :=
  if t.isUnresolvedUser then (number t.payload).map t.resolvedTo else .ok t

def settledLines (number : String → Except Failure Int) (lines : List Line) :
    Except Failure (List Line) :=
  lines.mapM fun l => l.mapM (Token.settled number)

/-- Numbers that are right for their names, one for each name among the terms. -/
structure Answering (number : String → Except Failure Int) (tokens : List Token)
    (numbers : List (String × Int)) : Prop where
  right : ∀ e ∈ numbers, number e.1 = .ok e.2
  covers : ∀ t ∈ tokens, t.isUnresolvedUser = true → t.payload ∈ numbers.map Prod.fst

theorem mapM_error_of_flatten {α β : Type} {g : α → Except Failure β}
    {xss : List (List α)} {f : Failure}
    (h : xss.flatten.mapM g = .error f) : xss.mapM (fun xs => xs.mapM g) = .error f := by
  induction xss with
  | nil => cases h
  | cons xs xss ih =>
    obtain hxs | ⟨ys, hxs, hrest⟩ := mapM_append_eq_error.mp h
    · exact mapM_cons_eq_error.mpr (.inl hxs)
    · exact mapM_cons_eq_error.mpr (.inr ⟨ys, hxs, ih hrest⟩)

theorem Token.settled_of_known {known : List (String × Int)} {t : Token}
    (hright : ∀ e ∈ known, number e.1 = .ok e.2)
    (h : (t.isUnresolvedUser && (known.lookup t.payload).isNone) = false) :
    ∃ u, t.settled number = .ok u := by
  unfold settled
  split
  · rename_i hu
    have hsome : (known.lookup t.payload).isNone = false := by simpa [hu] using h
    obtain ⟨n, hn⟩ := Option.isSome_iff_exists.mp (Option.isNone_eq_false_iff.mp hsome)
    rw [hright _ (mem_of_lookup_eq_some hn)]
    exact ⟨_, rfl⟩
  · exact ⟨t, rfl⟩

/-- The look-ups in a row find a number for every name, or end with the first term that has none. -/
theorem lookUpNumbers_cases (h : ∀ name s, (lookUpNumber lookup name s).1 = number name)
    (tokens : List Token) {known : List (String × Int)} (hright : ∀ e ∈ known, number e.1 = .ok e.2)
    (s : σ) :
    (∃ numbers t, lookUpNumbers lookup tokens known s = (.ok numbers, t) ∧ known ⊆ numbers ∧
      Answering number tokens numbers) ∨
    ∃ f t, lookUpNumbers lookup tokens known s = (.error f, t) ∧
      tokens.mapM (Token.settled number) = .error f := by
  induction tokens generalizing known s with
  | nil => exact .inl ⟨known, s, rfl, List.Subset.refl known, hright, List.forall_mem_nil _⟩
  | cons t tokens ih =>
    rw [List.mapM_cons]
    cases hnew : t.isUnresolvedUser && (known.lookup t.payload).isNone with
    | false =>
      rw [lookUpNumbers, if_neg (Bool.not_eq_true _ ▸ hnew)]
      obtain ⟨numbers, s', hrun, hkept, hnumbers⟩ | ⟨f, s', hrun, hf⟩ := ih hright s
      · refine .inl ⟨numbers, s', hrun, hkept, hnumbers.right, ?_⟩
        refine List.forall_mem_cons.mpr ⟨fun hu => ?_, hnumbers.covers⟩
        have hknown : (known.lookup t.payload).isNone = false := by simpa [hu] using hnew
        obtain ⟨n, hn⟩ := Option.isSome_iff_exists.mp (Option.isNone_eq_false_iff.mp hknown)
        exact List.mem_map.mpr ⟨(t.payload, n), hkept (mem_of_lookup_eq_some hn), rfl⟩
      · obtain ⟨u, hu⟩ := Token.settled_of_known hright hnew
        exact .inr ⟨f, s', hrun, by rw [hu, hf]; rfl⟩
    | true =>
      have hu : t.isUnresolvedUser = true := (Bool.and_eq_true_iff.mp hnew).1
      have hasked := h t.payload s
      rw [lookUpNumbers, if_pos hnew, bind_apply, Token.settled, if_pos hu]
      rcases hend : lookUpNumber lookup t.payload s with ⟨f | n, s₁⟩ <;> rw [hend] at hasked
      · exact .inr ⟨f, s₁, rfl, by rw [← hasked]; rfl⟩
      · have hright' : ∀ e ∈ known ++ [(t.payload, n)], number e.1 = .ok e.2 :=
          List.forall_mem_append.mpr ⟨hright, by simpa using hasked.symm⟩
        obtain ⟨numbers, s', hrun, hkept, hnumbers⟩ | ⟨f, s', hrun, hf⟩ := ih hright' s₁
        · refine .inl ⟨numbers, s', hrun, fun e he => hkept (List.mem_append_left _ he),
            hnumbers.right, ?_⟩
          refine List.forall_mem_cons.mpr ⟨fun _ => ?_, hnumbers.covers⟩
          exact List.mem_map.mpr ⟨(t.payload, n),
            hkept (List.mem_append_right known List.mem_cons_self), rfl⟩
        · exact .inr ⟨f, s', hrun, by rw [← hasked, hf]; rfl⟩

theorem Rewritten.settled {numbers : List (String × Int)} {t u : Token}
    (hright : ∀ e ∈ numbers, number e.1 = .ok e.2) (h : Rewritten numbers t u) :
    t.settled number = .ok u := by
  cases h with
  | kept h => exact if_neg (Bool.not_eq_true _ ▸ h)
  | user h hnumber resolved sign =>
    rw [Token.settled, if_pos h, hright _ hnumber]
    unfold Token.withUser at resolved
    split at resolved
    · cases resolved
      rfl
    · cases resolved

theorem resolve_eq_settled (h : ∀ name s, (lookUpNumber lookup name s).1 = number name)
    (b : Blacklist) (s : σ) :
    (b.resolve lookup s).1 = (settledLines number b.lines).map
      fun lines => (⟨lines⟩, b.tokens.countP (·.isUnresolvedUser)) := by
  unfold resolve resolveInPlace
  obtain ⟨numbers, t, hrun, -, hnumbers⟩ | ⟨f, t, hrun, hf⟩ :=
    lookUpNumbers_cases h b.tokens (List.forall_mem_nil _) s
  · obtain ⟨lines, hlines, hrewritten⟩ := numberedLines_eq_ok b.lines hnumbers.covers
    have hsettled : settledLines number b.lines = .ok lines :=
      mapM_eq_ok_iff.mpr <| hrewritten.imp fun _ _ hl =>
        mapM_eq_ok_iff.mpr <| hl.imp fun _ _ ht => ht.settled hnumbers.right
    simp only [hrun, hlines, hsettled]
    rfl
  · have hsettled : settledLines number b.lines = .error f := mapM_error_of_flatten hf
    simp only [hrun, hsettled]
    rfl

theorem UserLookup.Steady.lookUpNumber (h : lookup.Steady) (name : String) (s t : σ) :
    (lookUpNumber lookup name s).1 = (lookUpNumber lookup name t).1 := by
  have hsame : Alike (fun _ _ => True) (lookup name) (lookup name) :=
    fun s t _ => ⟨h name s t, trivial⟩
  have hnumber : Alike (fun _ _ => True) (Blacklist.lookUpNumber lookup name)
      (Blacklist.lookUpNumber lookup name) :=
    .bind (.tryCatch hsame fun _ => .throw _) fun _ => .lift _
  exact (hnumber s t trivial).1

theorem refused_of_lookUpNumber {name : String} {s : σ} {f : Failure}
    (h : (lookUpNumber lookup name s).1 = .error f) : Refused name (lookup name s).1 f := by
  rw [lookUpNumber, bind_apply, tryCatch_apply] at h
  rcases hend : lookup name s with ⟨g | answer, t⟩ <;> rw [hend] at h
  · obtain rfl : (if g.isInterrupt then g else .unresolvable name g) = f := Except.error.inj h
    by_cases hg : g.isInterrupt = true
    · rw [if_pos hg]
      exact .interrupted hg
    · rw [if_neg hg]
      exact .failed (Bool.not_eq_true _ ▸ hg)
  · obtain ⟨n, -, -, hn⟩ | ⟨e, he, hanswer⟩ := userNumber_cases name answer
    · cases hn.symm.trans h
    · rwa [Except.error.inj (hanswer.symm.trans h)] at he

def UserLookup.numberIn (lookup : UserLookup σ) (s : σ) (name : String) : Except Failure Int :=
  (lookUpNumber lookup name s).1

theorem UserLookup.Steady.resolve_eq_settled (h : lookup.Steady) (b : Blacklist) (s t : σ) :
    (b.resolve lookup t).1 = (settledLines (lookup.numberIn s) b.lines).map
      fun lines => (⟨lines⟩, b.tokens.countP (·.isUnresolvedUser)) :=
  Blacklist.resolve_eq_settled (fun name t => h.lookUpNumber name t s) b t

theorem UserLookup.Steady.resolve_extend (h : lookup.Steady) (a b : Blacklist) (s t u : σ) :
    ((a.extend b).resolve lookup s).1 = do
      let (a', m) ← (a.resolve lookup t).1
      let (b', n) ← (b.resolve lookup u).1
      return (a'.extend b', m + n) := by
  have hcount : (a.extend b).tokens.countP (·.isUnresolvedUser) =
      a.tokens.countP (·.isUnresolvedUser) + b.tokens.countP (·.isUnresolvedUser) := by
    simp only [tokens, extend, List.flatten_append, List.countP_append]
  rw [h.resolve_eq_settled _ s s, h.resolve_eq_settled a s t, h.resolve_eq_settled b s u, hcount]
  simp only [settledLines, extend, List.mapM_append]
  cases a.lines.mapM fun l => l.mapM (Token.settled (lookup.numberIn s)) with
  | error f => rfl
  | ok lines =>
    cases b.lines.mapM fun l => l.mapM (Token.settled (lookup.numberIn s)) with
    | error f => rfl
    | ok lines' => rfl

theorem UserLookup.Steady.refused (h : lookup.Steady) {b : Blacklist} {s : σ} {f : Failure}
    (hf : (b.resolve lookup s).1 = .error f) :
    ∃ t ∈ b.tokens, t.isUnresolvedUser = true ∧ Refused t.payload (lookup t.payload s).1 f := by
  rw [h.resolve_eq_settled b s s] at hf
  have hlines : settledLines (lookup.numberIn s) b.lines = .error f := by
    cases hl : settledLines (lookup.numberIn s) b.lines <;> rw [hl] at hf <;> cases hf
    rfl
  obtain ⟨l, hl, hline⟩ := exists_of_mapM_error hlines
  obtain ⟨t, ht, hterm⟩ := exists_of_mapM_error hline
  refine ⟨t, List.mem_flatten.mpr ⟨l, hl, ht⟩, ?_⟩
  unfold Token.settled at hterm
  split at hterm
  · rename_i hu
    refine ⟨hu, refused_of_lookUpNumber ?_⟩
    change (lookup.numberIn s t.payload).map t.resolvedTo = .error f at hterm
    change lookup.numberIn s t.payload = .error f
    cases hn : lookup.numberIn s t.payload <;> rw [hn] at hterm <;> cases hterm
    rfl
  · cases hterm

theorem Refused.kind {name : String} {answer : Except Failure Json} {f : Failure}
    (h : Refused name answer f) (hf : f.isInterrupt = false)
    (hshort : ∀ v, answer = .ok v → v.hasLongInteger = false) :
    f.kind = .resolver := by
  cases h with
  | interrupted h => exact absurd (h.symm.trans hf) Bool.noConfusion
  | unwritable _ hlong => exact absurd (hlong.symm.trans (hshort _ rfl)) Bool.noConfusion
  | _ => rfl

theorem left_of_resolve (lookup : UserLookup σ) (b : Blacklist) (s : σ) :
    (∀ r, (b.resolve lookup s).1 = .ok r → (resolveInPlace lookup (s, b)).2.2 = r.1) ∧
      ∀ f, (b.resolve lookup s).1 = .error f → (resolveInPlace lookup (s, b)).2.2 = b := by
  have hresult : (b.resolve lookup s).1 =
      (round lookup (s, b)).result.map fun n => ((round lookup (s, b)).left, n) := rfl
  rw [hresult]
  obtain h | h := round_cases lookup s b
  · obtain ⟨f, hf⟩ := h.result_eq
    rw [hf]
    exact ⟨fun _ hr => (by cases hr), fun _ _ => h.left_eq⟩
  · obtain ⟨n, hn⟩ := h.result_eq
    rw [hn]
    refine ⟨fun r hr => ?_, fun _ hf => (by cases hf)⟩
    cases hr
    rfl

theorem resolve_joined (lookup : UserLookup σ) (s : σ) {shelf : Shelf} {a b : Blacklist} {i j : Nat}
    (ha : shelf.blacklist? i = some a) (hb : shelf.blacklist? j = some b) : ∃ joined after,
      shelf.join? i j = some joined ∧
      Shelf.resolve shelf.blacklists.length lookup (s, joined) =
        (((a.extend b).resolve lookup s).1.map Prod.snd, ((a.extend b).resolve lookup s).2, after) ∧
      (∀ k < shelf.blacklists.length, after.blacklist? k = shelf.blacklist? k) ∧
      after.blacklist? shelf.blacklists.length =
        some (resolveInPlace lookup (s, a.extend b)).2.2 := by
  have hjoin : shelf.join? i j = some (shelf.add (a.extend b)) := by
    rw [Shelf.join?, ha, hb]
    rfl
  refine ⟨_, _, hjoin, (Shelf.resolve_add ..).trans ?_, fun k hk => Shelf.blacklist?_add_of_lt hk _,
    Shelf.blacklist?_add ..⟩
  rw [resolve]
  rcases resolveInPlace lookup (s, a.extend b) with ⟨f | n, t⟩ <;> rfl

/-- With a steady look-up the join of two blacklists resolves as its parts do, which stay as they
are in their places. What it is refused with is a failure of the look-up, unless that was an
interruption or the answer has an integer that is too long to be written. -/
theorem resolve_join (h : lookup.Steady) (a b : Blacklist) (s t u : σ) :
    ((∃ r, ((a.extend b).resolve lookup s).1 = .ok r) ↔
      (∃ r, (a.resolve lookup t).1 = .ok r) ∧ ∃ r, (b.resolve lookup u).1 = .ok r) ∧
    (∀ a' b' m n, (a.resolve lookup t).1 = .ok (a', m) → (b.resolve lookup u).1 = .ok (b', n) →
      ((a.extend b).resolve lookup s).1 = .ok (a'.extend b', m + n)) ∧
    (∀ f, (a.resolve lookup t).1 = .error f → ((a.extend b).resolve lookup s).1 = .error f) ∧
    (∀ r f, (a.resolve lookup t).1 = .ok r → (b.resolve lookup u).1 = .error f →
      ((a.extend b).resolve lookup s).1 = .error f) ∧
    (∀ f, ((a.extend b).resolve lookup s).1 = .error f → ∃ v ∈ (a.extend b).tokens,
      v.isUnresolvedUser = true ∧ Refused v.payload (lookup v.payload s).1 f ∧
      (f.isInterrupt = false → (∀ answer, (lookup v.payload s).1 = .ok answer →
        answer.hasLongInteger = false) → f.kind = .resolver)) ∧
    ∀ (shelf : Shelf) (i j : Nat), shelf.blacklist? i = some a → shelf.blacklist? j = some b →
      ∃ joined after, shelf.join? i j = some joined ∧
        Shelf.resolve shelf.blacklists.length lookup (s, joined) =
          (((a.extend b).resolve lookup s).1.map Prod.snd,
            ((a.extend b).resolve lookup s).2, after) ∧
        (∀ k < shelf.blacklists.length, after.blacklist? k = shelf.blacklist? k) ∧
        (∀ r, ((a.extend b).resolve lookup s).1 = .ok r →
          after.blacklist? shelf.blacklists.length = some r.1) ∧
        ∀ f, ((a.extend b).resolve lookup s).1 = .error f →
          after.blacklist? shelf.blacklists.length = some (a.extend b) := by
  have hjoin := h.resolve_extend a b s t u
  refine ⟨?_, fun a' b' m n ha hb => ?_, fun f ha => ?_, fun r f ha hb => ?_, fun f hf => ?_,
    fun shelf i j hi hj => ?_⟩
  · rw [hjoin]
    cases (a.resolve lookup t).1 with
    | error f => simp [bind, Except.bind]
    | ok r => cases (b.resolve lookup u).1 <;> simp [bind, Except.bind, pure, Except.pure]
  · rw [hjoin, ha, hb]
    rfl
  · rw [hjoin, ha]
    rfl
  · rw [hjoin, ha, hb]
    rfl
  · obtain ⟨v, hv, hu, hrefused⟩ := h.refused hf
    exact ⟨v, hv, hu, hrefused, hrefused.kind⟩
  · obtain ⟨joined, after, hjoined, hresolved, hothers, hlast⟩ := resolve_joined lookup s hi hj
    obtain ⟨hok, herror⟩ := left_of_resolve lookup (a.extend b) s
    exact ⟨joined, after, hjoined, hresolved, hothers, fun r hr => by rw [hlast, hok r hr],
      fun f hf => by rw [hlast, herror f hf]⟩

def onlyBob : UserLookup Nat := fun name calls =>
  (if name = "bob" then .ok (.int 7) else .error (.lookup (.unknown (some name))), calls + 1)

def bobs : Blacklist := ⟨[[.ofUser "bob" false, .ofTag "a" false], [.ofUser "bob" true]]⟩

def numberedBobs : Blacklist :=
  ⟨[[(Token.ofUser "bob" false).resolvedTo 7, .ofTag "a" false],
    [(Token.ofUser "bob" true).resolvedTo 7]]⟩

def bobAndEve : Blacklist := ⟨[[.ofUser "bob" false], [.ofUser "eve" false]]⟩

def bobsShelf : Shelf := (Shelf.empty.add bobs).add bobAndEve

/-- Each of two equal parts asks for bob, their join asks once. With eve in it, a join fails. -/
theorem resolve_join_bobs :
    onlyBob.Steady ∧ (bobs.resolve onlyBob 0).2 = 1 ∧ ((bobs.extend bobs).resolve onlyBob 0).2 = 1 ∧
    ((bobs.extend bobs).resolve onlyBob 0).1 = .ok (numberedBobs.extend numberedBobs, 4) ∧
    ((bobs.extend bobAndEve).resolve onlyBob 0).1 =
      .error (.unresolvable "eve" (.lookup (.unknown (some "eve")))) ∧
    ∃ joined after, bobsShelf.join? 0 0 = some joined ∧
      (Shelf.resolve 2 onlyBob (0, joined)).2.2 = after ∧ after.blacklist? 0 = some bobs ∧
      after.blacklist? 2 = some (numberedBobs.extend numberedBobs) := by
  have hsteady : onlyBob.Steady := fun _ _ _ => rfl
  have hbobs : (bobs.resolve onlyBob 0).1 = .ok (numberedBobs, 2) := rfl
  obtain ⟨-, hok, -, -, -, hshelf⟩ := resolve_join hsteady bobs bobs 0 0 0
  obtain ⟨-, -, -, herror, -⟩ := resolve_join hsteady bobs bobAndEve 0 0 0
  have hjoined := hok _ _ _ _ hbobs hbobs
  obtain ⟨joined, after, hjoin, hresolved, hothers, hlast, -⟩ := hshelf bobsShelf 0 0 rfl rfl
  exact ⟨hsteady, rfl, rfl, hjoined, herror _ _ hbobs rfl, joined, after, hjoin,
    congrArg (·.2.2) hresolved, hothers 0 (by decide), hlast _ hjoined⟩

def stopping : UserLookup Unit := fun _ => throw (.raised ⟨.interrupt, ""⟩)

def tooLong : UserLookup Unit := fun _ => pure (.int (10 ^ Text.maxDigits : Nat))

theorem resolve_of_first {b : Blacklist} {t : Token} {rest : List Token} {s s' : σ} {f : Failure}
    (htokens : b.tokens = t :: rest) (hu : t.isUnresolvedUser = true)
    (hlookup : lookUpNumber lookup t.payload s = (.error f, s')) :
    b.resolve lookup s = (.error f, s') := by
  have hnumbers : lookUpNumbers lookup b.tokens [] s = (.error f, s') := by
    rw [htokens, lookUpNumbers, if_pos (by simpa using hu), bind_apply, hlookup]
  simp only [resolve, resolveInPlace, hnumbers]
  rfl

/-- What a join is refused with need not be a failure of the look-up. -/
theorem interruption_and_long_number_pass :
    stopping.Steady ∧
    ((bobs.extend bobs).resolve stopping ()).1 = .error (.raised ⟨.interrupt, ""⟩) ∧
    tooLong.Steady ∧ ((bobs.extend bobs).resolve tooLong ()).1 = .error (.argument .longInteger) ∧
    (Failure.raised ⟨.interrupt, ""⟩).kind ≠ .resolver ∧
    (Failure.argument .longInteger).kind ≠ .resolver := by
  have hlong : userNumber "bob" (.int (10 ^ Text.maxDigits : Nat)) =
      .error (.argument .longInteger) := by
    have hfits : fitsWord (10 ^ Text.maxDigits : Nat) = false := by decide +kernel
    have hvalue : (Json.int (10 ^ Text.maxDigits : Nat)).hasLongInteger = true :=
      Text.isLong_iff.mpr (Nat.le_of_eq (Int.natAbs_natCast _).symm)
    simp only [userNumber, refusal, hfits, hvalue, Bool.false_eq_true, if_false, if_true]
  have hlookup : lookUpNumber tooLong "bob" () = (.error (.argument .longInteger), ()) := by
    rw [← hlong]
    rfl
  refine ⟨fun _ _ _ => rfl, ?_, fun _ _ _ => rfl, ?_, by decide, by decide⟩
  · rw [resolve_of_first (t := .ofUser "bob" false) rfl rfl rfl]
    rfl
  · rw [resolve_of_first (t := .ofUser "bob" false) rfl rfl hlookup]

end Booru.Blacklist
