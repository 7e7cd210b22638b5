import Booru.Proofs.Blacklist.Histories
import Booru.Proofs.Search.Alike

/-! What the blacklist of a session and a search fail with: what the board and the journal fail
with, and what a text of a blacklist or an answer of the board can be at fault for. Neither makes a
mistake in what it asks for. -/

namespace Booru

open Run

/-! ### Mistakes of a caller -/

def ApiError.isMisuse : ApiError → Bool
  | .blankUsername | .noUsername | .pageBelowOne | .limitOutOfRange => true
  | _ => false

def LookupError.isMisuse : LookupError → Bool
  | .blank => true
  | _ => false

namespace Failure

/-- An operation was given what it does not take, be it for the look-up of a user. -/
def isMisuse : Failure → Bool
  | .unresolvedUsers | .policy _ | .argument .negativePages => true
  | .api e => e.isMisuse
  | .lookup e => e.isMisuse
  | .unresolvable _ cause => cause.isMisuse
  | _ => false

/-- No mistake of a caller. Where `H` is true, it does not go by the name of one either. -/
structure NoMistake (H : Prop) (f : Failure) : Prop where
  right : f.isMisuse = false
  kind : H → f.kind ≠ .precondition

variable {H : Prop} {f : Failure}

theorem NoMistake.of_eq_false (h : (f.isMisuse || f.kind == .precondition) = false) :
    f.NoMistake H := by
  obtain ⟨hright, hkind⟩ := Bool.or_eq_false_iff.mp h
  exact ⟨hright, fun _ => by simpa using hkind⟩

theorem NoMistake.unresolvable (h : f.NoMistake H) (name : String) :
    (Failure.unresolvable name f).NoMistake H :=
  ⟨h.right, fun _ => FailureKind.noConfusion⟩

theorem NoMistake.ofLex (e : Blacklist.LexFailure) : (Failure.ofLex e).NoMistake H := by
  cases e <;> exact .of_eq_false rfl

theorem NoMistake.integer (e : Text.IntegerError) : (Failure.integer e).NoMistake H :=
  .of_eq_false rfl

end Failure

variable {σ : Type} {P : σ → Prop} {H : Prop}

/-! ### Resolving users -/

namespace Blacklist

variable {lookup : UserLookup σ}

theorem upholds_lookUpNumber {name : String}
    (h : Upholds P (lookup name) (fun _ => True) (Failure.NoMistake H)) :
    Upholds P (lookUpNumber lookup name) (fun _ => True) (Failure.NoMistake H) := by
  refine .bind (.tryCatch h fun f hf => .throw ?_) fun answer _ =>
    .lift (fun _ _ => trivial) fun f hf => ?_
  · split
    · exact hf
    · exact hf.unresolvable name
  · obtain ⟨n, -, -, hn⟩ | ⟨g, hg, hanswer⟩ := userNumber_cases name answer
    · cases hn.symm.trans hf
    · cases Except.error.inj (hanswer.symm.trans hf)
      cases hg <;> exact .of_eq_false rfl

theorem upholds_lookUpNumbers {tokens : List Token} (known : List (String × Int))
    (h : ∀ t ∈ tokens, t.isUnresolvedUser = true →
      Upholds P (lookup t.payload) (fun _ => True) (Failure.NoMistake H)) :
    Upholds P (lookUpNumbers lookup tokens known)
      (fun numbers => known ⊆ numbers ∧
        ∀ t ∈ tokens, t.isUnresolvedUser = true → t.payload ∈ numbers.map Prod.fst)
          (Failure.NoMistake H) := by
  induction tokens generalizing known with
  | nil => exact .pure ⟨List.Subset.refl known, List.forall_mem_nil _⟩
  | cons t tokens ih =>
    obtain ⟨ht, htokens⟩ := List.forall_mem_cons.mp h
    rw [lookUpNumbers]
    split
    · rename_i hnew
      refine (upholds_lookUpNumber (ht (Bool.and_eq_true_iff.mp hnew).1)).bind fun n _ =>
        (ih _ htokens).weaken fun numbers hnumbers => ?_
      have hnumber : (t.payload, n) ∈ numbers :=
        hnumbers.1 (List.mem_append_right known List.mem_cons_self)
      refine ⟨fun e he => hnumbers.1 (List.mem_append_left _ he),
        List.forall_mem_cons.mpr ⟨fun _ => ?_, ?_⟩⟩
      · exact List.mem_map.mpr ⟨_, hnumber, rfl⟩
      · exact hnumbers.2
    · rename_i hold
      refine (ih known htokens).weaken fun numbers hnumbers =>
        ⟨hnumbers.1, List.forall_mem_cons.mpr ⟨fun hu => ?_, hnumbers.2⟩⟩
      have hknown : (known.lookup t.payload).isNone = false := by simpa [hu] using hold
      obtain ⟨n, hn⟩ := Option.isSome_iff_exists.mp (Option.isNone_eq_false_iff.mp hknown)
      exact List.mem_map.mpr ⟨_, hnumbers.1 (mem_of_lookup_eq_some hn), rfl⟩

theorem upholds_resolve {b : Blacklist} (h : ∀ t ∈ b.tokens, t.isUnresolvedUser = true →
      Upholds P (lookup t.payload) (fun _ => True) (Failure.NoMistake H)) :
    Upholds P (b.resolve lookup) (fun r => r.1.isResolved = true) (Failure.NoMistake H) := by
  refine ⟨fun s hs => ?_⟩
  have hend := (upholds_lookUpNumbers [] h).ensures s hs
  simp only [resolve, resolveInPlace]
  rcases hnumbers : lookUpNumbers lookup b.tokens [] s with ⟨f | numbers, t⟩ <;>
    rw [hnumbers] at hend
  · exact hend
  · obtain ⟨lines, hlines, hrewritten⟩ := numberedLines_eq_ok b.lines hend.2.2
    simp only [hlines]
    refine ⟨hend.1, (isResolved_iff _).mpr ?_⟩
    exact forall_mem_right (fun _ _ => forall_mem_right fun _ _ =>
      Rewritten.isUnresolvedUser) hrewritten

theorem strip_payload_ne {source : String} {b : Blacklist} (h : parse source = .ok b) {t : Token}
    (ht : t ∈ b.tokens) (hu : t.isUnresolvedUser = true) : Text.strip t.payload ≠ "" := by
  obtain ⟨l, hl, htl⟩ := List.mem_flatten.mp ht
  cases (regular_parse h l hl).2 t htl with
  | numbered hfit => cases hu
  | canonical hcanonical =>
    cases hcanonical with
    | @user payload negated hfolded =>
      have htrim := hfolded.isName.isWord.trimmed.trim_eq
      intro hblank
      have hnil : payload.toList = [] := by
        simpa [Text.strip, htrim] using congrArg String.toList hblank
      exact hfolded.isName.nonempty hnil
    | _ => cases hu

end Blacklist

/-! ### Boards -/

/-- Whatever is asked of a board in the right way keeps `P`, and fails for no mistake. -/
structure Board.Within (P : σ → Prop) (H : Prop) (b : Board σ) : Prop where
  fetchBlacklist : b.isAuthenticated = true →
    Upholds P b.fetchBlacklist (fun _ => True) (Failure.NoMistake H)
  lookupUser : ∀ name, Text.strip name ≠ "" →
    Upholds P (b.lookupUser name) (fun _ => True) (Failure.NoMistake H)
  searchPosts : ∀ tags page limit, 1 ≤ page → 1 ≤ limit → limit ≤ Client.maxPageSize →
    Upholds P (b.searchPosts tags page limit) (fun _ => True) (Failure.NoMistake H)
  fetchPost : ∀ post, Upholds P (b.fetchPost post) (fun _ => True) (Failure.NoMistake H)
  fetchPool : ∀ pool, Upholds P (b.fetchPool pool) (fun _ => True) (Failure.NoMistake H)
  fetchSet : ∀ set, Upholds P (b.fetchSet set) (fun _ => True) (Failure.NoMistake H)

def Journal.Within (P : σ → Prop) (H : Prop) (j : Journal σ) : Prop :=
  ∀ level event fields, Upholds P (j.tell level event fields) (fun _ => True) (Failure.NoMistake H)

variable {board : Board σ} {j : Journal σ}

theorem Board.Within.sessionBlacklist (h : board.Within P H) (hj : j.Within P H)
    (wanted : Settings.Hiding) :
    Upholds P (board.sessionBlacklist wanted j) (fun b => ∀ c, b = some c → c.isResolved = true)
      (Failure.NoMistake H) := by
  have hskip (reason : String) : Upholds P
      (j.tell .info "blacklist_skipped" [("reason", .string reason)] >>= fun _ =>
        pure (none : Option Blacklist))
      (fun b => ∀ c, b = some c → c.isResolved = true) (Failure.NoMistake H) :=
    (hj _ _ _).bind fun _ _ => .pure nofun
  have hload (source : String) : Upholds P (Run.lift (Blacklist.parse source))
      (fun b => ∀ t ∈ b.tokens, t.isUnresolvedUser = true →
        Upholds P (board.lookupUser t.payload) (fun _ => True) (Failure.NoMistake H))
          (Failure.NoMistake H) := by
    refine .lift (fun b hb t ht hu => h.lookupUser _ (Blacklist.strip_payload_ne hb ht hu))
      fun f hf => ?_
    unfold Blacklist.parse at hf
    split at hf <;> cases hf
    exact .ofLex _
  have hresolve (b : Blacklist) (hb : ∀ t ∈ b.tokens, t.isUnresolvedUser = true →
      Upholds P (board.lookupUser t.payload) (fun _ => True) (Failure.NoMistake H)) :=
    (Blacklist.upholds_resolve hb).bind fun r hr =>
      (hj .info "blacklist_loaded" [("lines", .int r.1.lines.length),
        ("extra_lines", .int wanted.extraLines.length)]).bind fun _ _ =>
          Upholds.pure (a := some r.1) (Q := fun b => ∀ c, b = some c → c.isResolved = true)
            fun c hc => by
            cases hc
            exact hr
  unfold Board.sessionBlacklist
  split
  · exact hskip _
  split
  · exact hskip _
  split
  · rename_i hauthenticated
    refine (h.fetchBlacklist hauthenticated).bind fun profile _ => (hload _).bind
      fun blacklist hb => ?_
    split
    · exact hskip _
    · exact hresolve blacklist hb
  · refine .bind (Q := fun _ => True) (.pure trivial) fun profile _ => (hload _).bind
      fun blacklist hb => ?_
    split
    · exact hskip _
    · exact hresolve blacklist hb

/-! ### Searches -/

theorem SearchResult.noMistake_ofItems {b : Option Blacklist}
    (hb : ∀ c, b = some c → c.isResolved = true) {items : List Json} {f : Failure}
    (h : ofItems b items = .error f) : f.NoMistake H := by
  simp only [ofItems, bind, Except.bind, pure, Except.pure] at h
  cases hbatch : Post.ofPayload (.array items) with
  | error e =>
    simp only [hbatch, mapError_error, Except.error.injEq] at h
    exact h ▸ .integer e
  | ok batch =>
    simp only [hbatch, mapError_ok] at h
    cases b with
    | none => cases h
    | some c =>
      have hresolved : c.hasUnresolvedUsers = false := by
        simpa [Blacklist.isResolved] using hb c rfl
      simp [Blacklist.filter, hresolved] at h

structure SearchPlan.Sane (plan : SearchPlan σ) : Prop where
  resolved : ∀ c, plan.blacklist = some c → c.isResolved = true
  pages : 0 ≤ plan.maxPages
  nonempty : 1 ≤ plan.postsPerPage
  full : plan.postsPerPage ≤ Client.maxPageSize

namespace SearchPlan.Sane

variable {plan : SearchPlan σ}

theorem exhaustive (h : plan.Sane) : SearchPlan.Sane { plan with maxPages := 0 } :=
  ⟨h.resolved, Int.le_refl 0, h.nonempty, h.full⟩

theorem pagesFrom (h : plan.Sane) (hboard : board.Within P H)
    (hj : plan.journal.Within P H) (tags : String) {page : Nat} (hpage : 1 ≤ page) (left : Nat)
    (found : SearchResult) :
    Upholds P (plan.pagesFrom board tags left page found) (fun _ => True)
      (Failure.NoMistake H) := by
  induction left generalizing page found with
  | zero =>
    rw [SearchPlan.pagesFrom]
    split
    · exact .throw (.of_eq_false rfl)
    · exact .pure trivial
  | succ left ih =>
    rw [SearchPlan.pagesFrom]
    refine (hboard.searchPosts tags page _ hpage h.nonempty h.full).bind fun items _ => ?_
    split
    · exact .pure trivial
    · refine .bind (Q := fun _ => True) (.lift (fun _ _ => trivial) fun f hf =>
        SearchResult.noMistake_ofItems h.resolved hf) fun r _ => ?_
      exact (hj _ _ _).bind fun _ _ => ih (Nat.le_succ_of_le hpage) _

theorem run (h : plan.Sane) (hboard : board.Within P H)
    (hj : plan.journal.Within P H) (tags : String) :
    Upholds P (plan.run board tags) (fun _ => True) (Failure.NoMistake H) := by
  rw [run_eq, if_neg (Int.not_lt.mpr h.pages)]
  exact (h.pagesFrom hboard hj tags (Nat.le_refl 1) _ _).bind fun r _ => (hj _ _ _).bind
    fun _ _ => .pure trivial

end SearchPlan.Sane
end Booru
