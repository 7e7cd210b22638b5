import Booru.Proofs.Retry.Attempts

/-! What a caller of the client has to reckon with. A question to the board is answered, or it fails
in the words of the board: whatever the network and the server do is explained. The only thing that
is not is a wait beyond all bounds, and it is said exactly when there is one. -/

namespace Booru.Client

open Run Retry

variable {c : Client} {α : Type} {operation path : String}
  {query : List (String × String)} {r : Request}
  {w : World} {e : RangeError}

/-! ### Waits beyond all bounds -/

def allowed (c : Client) : Nat := 1 + (c.policy.maxAttempts - 1).toNat

/-- A failed attempt of a request that starts in `w` asks for a wait beyond all bounds,
or is followed by one. -/
inductive Overdue (c : Client) (operation : String) (r : Request) (w : World) : RangeError → Prop
  | date {n : Nat} {t u : World} {answer : Response} {value : String} {e : RangeError}
      (reached : (World.surroundings r c.onRetry).Reaches c.policy operation r.url 1 w n t)
        (within : n ≤ c.allowed)
      (failed : (World.surroundings r c.onRetry).attempt t = (.error (.badStatus answer), u))
      (listed : c.policy.statuses.contains answer.status = true)
      (header : answer.header? "Retry-After" = some value)
        (beyond : readHint u.now value = .error e) :
      Overdue c operation r w e
  | doubled {n : Nat} {t u : World} {f : Failure} {v : Verdict Float}
      (reached : (World.surroundings r c.onRetry).Reaches c.policy operation r.url 1 w n t)
        (within : n < c.allowed)
      (failed : (World.surroundings r c.onRetry).attempt t = (.error f, u))
        (request : f.kind.isRequest = true)
      (judged : c.policy.verdict ((World.surroundings r c.onRetry).readHint · u) f = .ok v)
      (retry : v.retry = true) (beyond : Policy.maxDoublings < n) : Overdue c operation r w .wait

theorem wait_eq_error {p : Policy Float} {n : Nat} {hint : Option Float} :
    p.wait n hint = .error e ↔ Policy.maxDoublings < n ∧ e = .wait := by
  have hcount : Policy.maxDoublings ≤ ((n : Int) - 1).toNat ↔ Policy.maxDoublings < n := by
    unfold Policy.maxDoublings
    omega
  unfold Policy.wait
  simp only [hcount]
  split
  · rename_i hlong
    simp [hlong, eq_comm]
  · rename_i hshort
    simp [hshort]

theorem surroundings_readHint_eq_error {onRetry : Event Float → Run World Unit} {value : String} :
    (World.surroundings r onRetry).readHint value w = .error (.range e) ↔
    readHint w.now value = .error e := by
  simp only [World.surroundings]
  cases readHint w.now value <;> simp

theorem overdue_iff_stuck : c.Overdue operation r w e ↔ ∃ n t rest,
    (World.surroundings r c.onRetry).Reaches c.policy operation r.url 1 w n t ∧
    n + rest = c.allowed ∧
      (World.surroundings r c.onRetry).Stuck c.policy n t rest (.range e) := by
  constructor
  · intro h
    cases h with
    | @date n t u answer value e reached within failed listed header beyond =>
      have hjudged : c.policy.verdict ((World.surroundings r c.onRetry).readHint · u)
          (.badStatus answer) = .error (.range e) := Policy.verdict_eq_error.mpr
        ⟨answer, value, rfl, listed, header, surroundings_readHint_eq_error.mpr beyond⟩
      exact ⟨n, t, c.allowed - n, reached, Nat.add_sub_of_le within, .hint failed rfl hjudged⟩
    | @doubled n t u f v reached within failed request judged retry beyond =>
      refine ⟨n, t, c.allowed - n - 1 + 1, reached, by omega, ?_⟩
      exact .wait failed request judged retry (wait_eq_error.mpr ⟨beyond, rfl⟩)
  · rintro ⟨n, t, rest, reached, hcount, hstuck⟩
    cases hstuck with
    | hint failed request unjudged =>
      obtain ⟨answer, value, rfl, listed, header, beyond⟩ := Policy.verdict_eq_error.mp unjudged
      exact .date reached (by omega) failed listed header (surroundings_readHint_eq_error.mp beyond)
    | wait failed request judged retry beyond =>
      obtain ⟨hlong, rfl⟩ := wait_eq_error.mp beyond
      exact .doubled reached (by omega) failed request judged retry hlong

theorem send_range_iff (hquiet : c.Quiet) (hserved : Served w) :
    (∃ t, c.send operation r w = (.error (.range e), t)) ↔ c.Overdue operation r w e := by
  rw [overdue_iff_stuck]
  constructor
  · rintro ⟨t, hend⟩
    exact (keeps_served hquiet r).exists_stuck hserved rfl hend
  · rintro ⟨n, t, rest, reached, hcount, hstuck⟩
    obtain ⟨u, hend⟩ := hstuck.attempts_eq operation r.url
    have hrest : c.allowed - n = rest := by omega
    rw [← hrest] at hend
    exact ⟨u, (reached.send_eq (show n ≤ c.allowed by omega)).trans hend⟩

/-! ### Failures in the words of an operation -/

theorem content_error {answer : Response} {fault : Fault} (h : answer.content = .error fault) :
    .error fault ∈ answer.body := by
  have hfold (chunks : List Chunk) (done : ByteArray)
      (h : chunks.foldlM (fun done chunk => chunk.map (done ++ ·)) done = .error fault) :
      .error fault ∈ chunks := by
    induction chunks generalizing done with
    | nil => cases h
    | cons chunk rest ih =>
      rw [List.foldlM_cons] at h
      cases chunk with
      | error fault' =>
        cases h
        exact List.mem_cons_self
      | ok bytes => exact List.mem_cons_of_mem _ (ih _ h)
  exact hfold answer.body _ h

theorem isWire_of_json {answer : Response} {f : Failure}
    (hbody : ∀ chunk ∈ answer.body, chunk.Honest)
    (h : answer.json = .error f) : isWire f = true := by
  simp only [Response.json, Response.text, bind, Except.bind] at h
  cases hcontent : answer.content with
  | error fault =>
    rw [hcontent] at h
    cases h
    have hrequest : fault.kind.isRequest = true := hbody _ (content_error hcontent) fault rfl
    simp only [isWire, Failure.kind, hrequest, Bool.true_or]
  | ok bytes =>
    simp only [hcontent, mapError_ok, Except.map] at h
    cases hread : Json.read (Response.textOf bytes) with
    | ok data => simp [hread] at h
    | error fault =>
      rw [hread] at h
      cases h
      cases fault <;> rfl

theorem explaining_error {α : Type} {refused failed : Failure → Failure}
    {x : Run World α} {f : Failure} {t : World} (h : x w = (.error f, t)) :
    explaining refused failed x w =
      (.error (if f.kind = .http then refused f else if isWire f then failed f else f), t) := by
  rw [explaining, tryCatch_apply, h]
  rfl

theorem ensures_explaining (hquiet : c.Quiet) (hserved : Served w)
    (refused failed : Failure → Failure) (operation path : String)
    (query : List (String × String)) :
    Ensures (· = w) (explaining refused failed (c.getJson operation path query)) (fun _ _ => True)
      fun f _ => (∃ g, f = refused g ∨ f = failed g) ∨
        ∃ e, f = .range e ∧ c.Overdue operation (c.request path query) w e := by
  have hjson : Ensures (· = w) (c.getJson operation path query) (fun _ _ => True) fun f _ =>
      isWire f = true ∨ ∃ e, f = .range e ∧ c.Overdue operation (c.request path query) w e := by
    refine .bind (((ensures_send hquiet operation (c.request path query)).result
      hserved).weakenError ?_)
      fun answer => ?_
    · rintro f t ⟨⟨-, hrequest | ⟨e, rfl⟩⟩, hend⟩
      · left
        simp only [isWire, hrequest, Bool.true_or]
      · exact .inr ⟨e, rfl, (send_range_iff hquiet hserved).mp ⟨t, hend⟩⟩
    · exact .lift (fun _ _ _ _ => trivial) fun f hf t ht => .inl (isWire_of_json ht.1.2 hf)
  intro s hs
  have hend := hjson s hs
  rcases hresult : c.getJson operation path query s with ⟨f | data, t⟩
  · rw [explaining_error hresult]
    rw [hresult] at hend
    dsimp only
    split
    · exact .inl ⟨f, .inl rfl⟩
    · split
      · exact .inl ⟨f, .inr rfl⟩
      · rename_i hwire
        exact .inr (hend.resolve_left hwire)
  · rw [explaining, tryCatch_apply, hresult]
    trivial

theorem Overdue.explaining (hquiet : c.Quiet) (hserved : Served w)
    (refused failed : Failure → Failure) (h : c.Overdue operation (c.request path query) w e) :
    ∃ t, explaining refused failed (c.getJson operation path query) w = (.error (.range e), t) := by
  obtain ⟨t, hsend⟩ := (send_range_iff hquiet hserved).mpr h
  refine ⟨t, ?_⟩
  have hjson : c.getJson operation path query w = (.error (.range e), t) := by
    rw [getJson, bind_apply, hsend]
  rw [explaining_error hjson]
  rfl

/-! ### The questions -/

inductive Question : Type → Type
  | lookup (name : Option String) : Question Int
  | user (name : Option String) : Question Json.Members
  | blacklist (username : Option String) : Question String
  | post (ref : EntryRef) : Question Json
  | pool (ref : EntryRef) : Question Json.Members
  | set (ref : EntryRef) : Question Json.Members
  | search (tags : Option String) (page : Int) (limit : Option Int) : Question (List Json)

namespace Question

def ask (c : Client) : Question α → Run World α
  | lookup name => c.lookupUser name
  | user name => c.fetchUser name
  | blacklist username => c.fetchBlacklist username
  | post ref => c.fetchPost ref
  | pool ref => c.fetchPool ref
  | set ref => c.fetchSet ref
  | search tags page limit => c.searchPosts tags page limit

/-- Failures in the words of the board: those of a look-up are their own. -/
def Explains : Question α → Failure → Prop
  | lookup _, f => ∃ e, f = .lookup e
  | _, f => ∃ e, f = .api e

def userRequest? (c : Client) (operation user : String) : Option (String × Request) :=
  if user.isEmpty then none else some (operation, c.request (userPath user) [])

/-- The request that is made for a question, with the name of its operation, if one is made. -/
def request? (c : Client) : Question α → Option (String × Request)
  | lookup name => userRequest? c "users.lookup" (Text.strip (name.getD ""))
  | user name => userRequest? c "users.show" (Text.strip (name.getD ""))
  | blacklist username =>
    let name := Text.strip ((nonEmpty? username).getD c.credentials.username)
    if name.isEmpty then none else userRequest? c "users.show" (Text.strip name)
  | post ref => some ("posts.show", c.request ("/posts/" ++ toString ref.id ++ ".json") [])
  | pool ref => some ("pools.show", c.request ("/pools/" ++ toString ref.id ++ ".json") [])
  | set ref => some ("post_sets.show", c.request ("/post_sets/" ++ toString ref.id ++ ".json") [])
  | search tags page limit =>
    let perPage := limit.getD c.site.postsPerPage
    if 1 ≤ page ∧ 1 ≤ perPage ∧ perPage ≤ maxPageSize then
      some ("posts.index", c.request "/posts.json"
        [("tags", Text.strip (tags.getD "")), ("page", toString page), ("limit", toString perPage)])
    else none

end Question

/-- An operation that makes at most this one request is answered, or it fails in the words of
`Explained`, or for a wait beyond all bounds, exactly where the request meets one. -/
structure Answers (c : Client) (w : World) (request? : Option (String × Request))
    (Explained : Failure → Prop)
    (x : Run World α) : Prop where
  ensures : Ensures (· = w) x (fun _ _ => True) fun f _ => Explained f ∨ ∃ e operation r,
    f = .range e ∧ request? = some (operation, r) ∧ c.Overdue operation r w e
  overdue : ∀ e operation r, request? = some (operation, r) → c.Overdue operation r w e →
    ∃ t, x w = (.error (.range e), t)

namespace Answers

variable {request? : Option (String × Request)} {Explained : Failure → Prop} {β : Type}

theorem explaining (hquiet : c.Quiet) (hserved : Served w) {refused failed : Failure → Failure}
    (hrefused : ∀ f, Explained (refused f)) (hfailed : ∀ f, Explained (failed f))
    (operation path : String) (query : List (String × String)) :
    c.Answers w (some (operation, c.request path query)) Explained
      (explaining refused failed (c.getJson operation path query)) where
  ensures := by
    refine (ensures_explaining hquiet hserved refused failed operation path query).weakenError ?_
    rintro f t (⟨g, rfl | rfl⟩ | ⟨e, rfl, hoverdue⟩)
    · exact .inl (hrefused g)
    · exact .inl (hfailed g)
    · exact .inr ⟨e, operation, _, rfl, rfl, hoverdue⟩
  overdue := by
    rintro e _ _ ⟨⟩ hoverdue
    exact hoverdue.explaining hquiet hserved refused failed

theorem bind {x : Run World α} {k : α → Run World β} (h : c.Answers w request? Explained x)
    (hk : ∀ a, Ensures (fun _ => True) (k a) (fun _ _ => True) fun f _ => Explained f) :
    c.Answers w request? Explained (x >>= k) where
  ensures := h.ensures.bind fun a => (hk a).weakenError fun _ _ hf => .inl hf
  overdue e operation r hrequest hoverdue := by
    obtain ⟨t, hend⟩ := h.overdue e operation r hrequest hoverdue
    exact ⟨t, by rw [bind_apply, hend]⟩

theorem throw {f : Failure} (hf : Explained f) :
    c.Answers w none Explained (throw f : Run World α) where
  ensures := .throw fun _ _ => .inl hf
  overdue := nofun

end Answers

section Ask

variable (hquiet : c.Quiet) (hserved : Served w)
include hquiet hserved

theorem answers_entry (operation path what : String) :
    c.Answers w (some (operation, c.request path [])) (fun f => ∃ e, f = .api e)
      (c.entry operation path what) := by
  refine .bind (.explaining hquiet hserved (fun _ => ⟨_, rfl⟩) (fun _ => ⟨_, rfl⟩) operation
    path []) fun data => ?_
  split
  · exact .pure fun _ _ => trivial
  · exact .throw fun _ _ => ⟨_, rfl⟩

theorem answers_fetchUser (name : Option String) :
    c.Answers w (Question.userRequest? c "users.show" (Text.strip (name.getD "")))
      (fun f => ∃ e, f = .api e)
      (c.fetchUser name) := by
  unfold fetchUser Question.userRequest?
  dsimp only
  split
  · exact .throw ⟨_, rfl⟩
  · exact answers_entry hquiet hserved _ _ _

theorem answers_lookupUser (name : Option String) :
    c.Answers w (Question.userRequest? c "users.lookup" (Text.strip (name.getD "")))
      (fun f => ∃ e, f = .lookup e)
      (c.lookupUser name) := by
  unfold lookupUser Question.userRequest?
  dsimp only
  split
  · rw [throw_bind]
    exact .throw ⟨_, rfl⟩
  · refine .bind (.explaining hquiet hserved (fun _ => ⟨_, rfl⟩) (fun _ => ⟨_, rfl⟩) _ _ [])
      fun data => ?_
    split
    · exact .pure fun _ _ => trivial
    · exact .throw fun _ _ => ⟨_, rfl⟩

theorem answers_fetchBlacklist (username : Option String) :
    c.Answers w ((Question.blacklist username).request? c) (fun f => ∃ e, f = .api e)
      (c.fetchBlacklist username) := by
  unfold Question.request? fetchBlacklist
  dsimp only
  split
  · rw [throw_bind]
    exact .throw ⟨_, rfl⟩
  · have huser := answers_fetchUser hquiet hserved
      (some (Text.strip ((nonEmpty? username).getD c.credentials.username)))
    rw [Option.getD_some] at huser
    exact huser.bind fun user => .pure fun _ _ => trivial

theorem answers_fetchPost (ref : EntryRef) :
    c.Answers w ((Question.post ref).request? c) (fun f => ∃ e, f = .api e) (c.fetchPost ref) := by
  unfold Question.request? fetchPost
  refine .bind (answers_entry hquiet hserved _ _ _) fun data => ?_
  split
  · exact .pure fun _ _ => trivial
  · exact .throw fun _ _ => ⟨_, rfl⟩

theorem answers_searchPosts (tags : Option String) (page : Int) (limit : Option Int) :
    c.Answers w ((Question.search tags page limit).request? c) (fun f => ∃ e, f = .api e)
      (c.searchPosts tags page limit) := by
  unfold Question.request? searchPosts
  dsimp only
  by_cases hpage : page < 1
  · rw [if_pos hpage, if_neg fun h => absurd h.1 (Int.not_le.mpr hpage), throw_bind]
    exact .throw ⟨_, rfl⟩
  · rw [if_neg hpage]
    by_cases hlimit : 1 ≤ limit.getD c.site.postsPerPage ∧
      limit.getD c.site.postsPerPage ≤ maxPageSize
    · rw [if_pos ⟨Int.not_lt.mp hpage, hlimit⟩, if_neg (by simp [hlimit])]
      refine .bind (.explaining hquiet hserved (fun _ => ⟨_, rfl⟩) (fun _ => ⟨_, rfl⟩) _ _ _)
        fun data => ?_
      split
      · exact .pure fun _ _ => trivial
      · exact .throw fun _ _ => ⟨_, rfl⟩
    · rw [if_neg fun h => hlimit h.2, if_pos (by simpa [← Bool.decide_and] using hlimit)]
      exact .throw ⟨_, rfl⟩

theorem answers_ask (q : Question α) : c.Answers w (q.request? c) q.Explains (q.ask c) := by
  cases q with
  | lookup name => exact answers_lookupUser hquiet hserved name
  | user name => exact answers_fetchUser hquiet hserved name
  | blacklist username => exact answers_fetchBlacklist hquiet hserved username
  | post ref => exact answers_fetchPost hquiet hserved ref
  | pool ref => exact answers_entry hquiet hserved _ _ _
  | set ref => exact answers_entry hquiet hserved _ _ _
  | search tags page limit => exact answers_searchPosts hquiet hserved tags page limit

end Ask

/-- Whatever is asked, and whatever the network and the server do: an answer of the right kind comes
back, or a failure in the words of the board. The only other failure is that of a wait beyond all
bounds, and it comes exactly where the request for the question meets one. -/
theorem ask_explained_unless_overdue (c : Client) (w : World) (hquiet : c.Quiet)
    (hserved : Served w) {α : Type} (q : Question α) :
    (∀ f t, q.ask c w = (.error f, t) → q.Explains f ∨ ∃ e, f = .range e) ∧
    ∀ e, (∃ t, q.ask c w = (.error (.range e), t)) ↔
      ∃ operation r, q.request? c = some (operation, r) ∧ c.Overdue operation r w e := by
  have hanswers := answers_ask hquiet hserved q
  have hend (f : Failure) (t : World) (h : q.ask c w = (.error f, t)) : q.Explains f ∨
      ∃ e operation r, f = .range e ∧ q.request? c = some (operation, r) ∧
        c.Overdue operation r w e := by
    have hcase := hanswers.ensures w rfl
    rwa [h] at hcase
  refine ⟨fun f t h => (hend f t h).imp_right fun ⟨e, _, _, hf, _⟩ => ⟨e, hf⟩, fun e => ⟨?_, ?_⟩⟩
  · rintro ⟨t, h⟩
    obtain hexplained | ⟨_, operation, r, ⟨⟩, hrequest, hoverdue⟩ := hend _ t h
    · cases q <;> obtain ⟨_, ⟨⟩⟩ := hexplained
    · exact ⟨operation, r, hrequest, hoverdue⟩
  · rintro ⟨operation, r, hrequest, hoverdue⟩
    exact hanswers.overdue e operation r hrequest hoverdue

def visitor : Client := { site := {}, policy := policyOf {}, onRetry := World.noteRetry }

def farDate : String := "1 Jan 2147483648 0:0"

def busyForever : Answer :=
  { status := 503, reason := "Busy", headers := [("Retry-After", farDate)] }

def farFuture : World :=
  { session := { script := .inOrder [.ok busyForever] (.error ⟨.connection, "no network"⟩) }
    now := ⟨0⟩
    draw := 0 }

theorem readHint_farDate : readHint ⟨0⟩ farDate = .error .fieldAbove := by
  have hstrip : Text.strip farDate = farDate := by decide +kernel
  have hnumber : Decimal.read? farDate = none := by
    rw [Decimal.read?]
    rfl
  have hdate : Time.MailDate.read? farDate = some ⟨2147483648, 1, 1, 0, 0, 0, none⟩ := by
    decide +kernel
  rw [readHint]
  simp only [hstrip, hnumber, hdate]
  rfl

theorem lookup_farFuture :
    ∃ t, visitor.lookupUser (some "alice") farFuture = (.error (.range .fieldAbove), t) := by
  have hserved : Served farFuture := by
    refine ⟨?_, rfl⟩
    simp [Exchange.Honest, busyForever]
  refine ((ask_explained_unless_overdue visitor farFuture (fun _ _ => ⟨_, rfl, rfl⟩) hserved
    (.lookup (some "alice"))).2 .fieldAbove).mpr ⟨"users.lookup",
      visitor.request (userPath "alice") [], rfl, ?_⟩
  refine .date (t := farFuture) .here (by decide) rfl (by decide) ?_ readHint_farDate
  simp [Response.header?, busyForever]

end Booru.Client
