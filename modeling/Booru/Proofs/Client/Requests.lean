import Booru.Proofs.Client.Contract
import Booru.Proofs.Text.Escaping

/-! Which requests are made for a user. Whatever a user is called, it is the user that is
asked for: the name is a single part of the address, from which it can be read back, so no two
names share an address. -/

namespace Booru

open Run

/-- From `w` to `t` this request is made, once or several times, and no other. -/
def World.AskedOnly (r : Request) (w t : World) : Prop :=
  ∃ n, t.session.requests = w.session.requests ++ List.replicate (n + 1) r

namespace Client

variable {c : Client} {α : Type} {operation path : String}
  {query : List (String × String)} {w : World}

def TellsWithoutRequests (c : Client) : Prop :=
  ∀ e w, (c.onRetry e w).2.session.requests = w.session.requests

theorem get_requests (r : Request) (s : Session) :
    (Session.get r s).2.requests = s.requests ++ [r] := by
  simp only [Session.get]
  cases (s.script.next r.key).1 <;> rfl

theorem askedOnly_ask (r : Request) (onRetry : Retry.Event Float → Run World Unit) (w : World) :
    w.AskedOnly r ((World.surroundings r onRetry).ask w).2 := ⟨0, get_requests r w.session⟩

theorem askedOnly_again {r : Request} {t u : World} (h : w.AskedOnly r t)
    (hagain : t.AskedOnly r u) :
    w.AskedOnly r u := by
  obtain ⟨n, ht⟩ := h
  obtain ⟨m, hu⟩ := hagain
  refine ⟨n + m + 1, ?_⟩
  rw [hu, ht, List.append_assoc, List.replicate_append_replicate, Nat.add_right_comm n 1 (m + 1)]
  rfl

theorem ensures_bare {β : Type} {P Q : World → Prop} {x : Run World β} (h : ∀ t, P t → Q (x t).2) :
    Ensures P x (fun _ t => Q t ∧ True) fun _ t => Q t ∧ True :=
  .of_state fun t ht => ⟨h t ht, trivial⟩

theorem ensures_send_asked (h : c.TellsWithoutRequests) (operation : String)
    (r : Request) (w : World) :
    Ensures (· = w) (c.send operation r) (fun _ => w.AskedOnly r) fun _ => w.AskedOnly r := by
  have hfirst : Ensures (· = w) (World.surroundings r c.onRetry).ask
      (fun _ t => w.AskedOnly r t ∧ True)
      fun _ t => w.AskedOnly r t ∧ True := by
    refine ensures_bare ?_
    rintro t rfl
    exact askedOnly_ask r c.onRetry t
  have hkeeps : (World.surroundings r c.onRetry).KeepsAndFailsIn (w.AskedOnly r) (fun _ => True)
      fun _ => True :=
    { asked := ensures_bare fun t ht => askedOnly_again ht (askedOnly_ask r c.onRetry t)
      refused := fun _ => trivial
      ranged := fun _ => trivial
      released := fun _ _ ht => ht
      hinted := fun _ _ _ _ => trivial
      drawn := fun _ ht => ht
      slept := fun _ _ ht => ht
      noted := by
        intro e
        refine (Ensures.of_state fun t ht => ?_).weakenError fun _ _ ht => ⟨ht, trivial⟩
        obtain ⟨n, ht⟩ := ht
        exact ⟨n, (h e t).trans ht⟩ }
  have hend := hkeeps.ensures_attempts_of_asked hfirst c.policy operation r.url
    (c.policy.maxAttempts - 1).toNat 1
  exact (hend.weaken (fun _ ht => ht) fun _ _ ht => ht.1).weakenError fun _ _ ht => ht.1

theorem ensures_getJson_asked (h : c.TellsWithoutRequests) (operation path : String)
    (query : List (String × String)) (refused failed : Failure → Failure) (w : World) :
    Ensures (· = w) (explaining refused failed (c.getJson operation path query))
      (fun _ => w.AskedOnly (c.request path query)) fun _ =>
        w.AskedOnly (c.request path query) := by
  have hjson : Ensures (· = w) (c.getJson operation path query)
      (fun _ => w.AskedOnly (c.request path query))
      fun _ => w.AskedOnly (c.request path query) := by
    refine (ensures_send_asked h operation _ w).bind fun answer => ?_
    exact .lift (fun _ _ _ ht => ht) fun _ _ _ ht => ht
  exact hjson.tryCatch fun f => .throw fun _ ht => ht

theorem askedOnly_getJson (h : c.TellsWithoutRequests) (operation path : String)
    (query : List (String × String)) (refused failed : Failure → Failure) {k : Json → Run World α}
    (hk : ∀ data t, (k data t).2 = t) (w : World) :
    w.AskedOnly (c.request path query)
      ((explaining refused failed (c.getJson operation path query) >>= k) w).2 := by
  have hasked := ensures_getJson_asked h operation path query refused failed w
  refine (hasked.bind fun data => .of_state fun t ht => ?_).state rfl
  rwa [hk]

def userRequest (c : Client) (name : String) : Request := c.request (userPath (Text.strip name)) []

theorem lookupUser_asks (h : c.TellsWithoutRequests) {name : String}
    (hname : Text.strip name ≠ "") (w : World) :
    w.AskedOnly (c.userRequest name) (c.lookupUser (some name) w).2 := by
  unfold lookupUser
  rw [Option.getD_some, if_neg (by simpa using hname)]
  exact askedOnly_getJson h _ _ _ _ _ (fun data t => by cases data.member "id" <;> rfl) w

theorem fetchUser_asks (h : c.TellsWithoutRequests) {name : String}
    (hname : Text.strip name ≠ "") (w : World) :
    w.AskedOnly (c.userRequest name) (c.fetchUser (some name) w).2 := by
  unfold fetchUser
  rw [Option.getD_some, if_neg (by simpa using hname)]
  exact askedOnly_getJson h _ _ _ _ _ (fun data t => by cases data <;> rfl) w

theorem userRequest_url (c : Client) (name : String) :
    (c.userRequest name).url = c.baseUrl ++ "/users/" ++ Text.percentEncode
      (Text.strip name) ++ ".json" := by
  simp only [userRequest, request, userPath, String.append_assoc]

theorem userRequest_url_ne {name other : String} (h : Text.strip other ≠ Text.strip name) :
    (c.userRequest other).url ≠ (c.userRequest name).url := by
  rw [userRequest_url, userRequest_url]
  intro hsame
  rw [String.append_left_inj, String.append_right_inj] at hsame
  exact h (Text.percentEncode_injective hsame)

def separators : List Char := ['/', '?', '#', '@']

theorem separator_not_mem {part : String} (h : Text.Escaped part.toList) : ∀ ch ∈ separators,
    ch ∉ part.toList := by
  intro ch hch hmem
  have hchecked : separators.all (fun ch => ch != '%' && !Text.isPlain ch) = true := by decide
  have hmark := List.all_eq_true.mp hchecked ch hch
  simp only [Bool.and_eq_true, bne_iff_ne, Bool.not_eq_true'] at hmark
  rw [h.plain_of_mem hmem hmark.1] at hmark
  cases hmark.2

/-- To look a user up, or to fetch one, one request is made until it succeeds or is given up,
whatever the server does. The name is a part of its address on its own, of plain characters and
escapes, without any mark that sets parts apart. It is read back from there, so that another name
makes another address. -/
theorem user_asked_by_name (c : Client) (hreserved : c.TellsWithoutRequests) (name : String)
    (hname : Text.strip name ≠ "") :
    (∀ w : World, w.AskedOnly (c.userRequest name) (c.lookupUser (some name) w).2 ∧
      w.AskedOnly (c.userRequest name) (c.fetchUser (some name) w).2) ∧
    ∃ part, (c.userRequest name).url = c.baseUrl ++ "/users/" ++ part ++ ".json" ∧
      (c.userRequest name).query = [] ∧
      Text.Escaped part.toList ∧ (∀ ch ∈ separators, ch ∉ part.toList) ∧
      Text.percentDecoded? part = some (Text.strip name) ∧
      ∀ other, Text.strip other ≠ Text.strip name →
        (c.userRequest other).url ≠ (c.userRequest name).url := by
  have hescaped := Text.escaped_percentEncode (Text.strip name)
  refine ⟨fun w => ⟨lookupUser_asks hreserved hname w, fetchUser_asks hreserved hname w⟩,
    _, userRequest_url c name, rfl, hescaped, separator_not_mem hescaped,
    Text.percentDecoded_percentEncode _, fun other => userRequest_url_ne⟩

theorem reserved_visitor : visitor.TellsWithoutRequests := fun _ _ => rfl

/-- A name with all the marks, and with what looks like an escape. -/
theorem user_asked_by_name_with_marks :
    visitor.TellsWithoutRequests ∧ Text.strip " ../a?b#c@d%2F " ≠ "" ∧
    (visitor.userRequest " ../a?b#c@d%2F ").url =
      "https://e621.net/users/..%2Fa%3Fb%23c%40d%252F.json" ∧
    (∀ w : World, w.AskedOnly (visitor.userRequest " ../a?b#c@d%2F ")
      (visitor.lookupUser (some " ../a?b#c@d%2F ") w).2) ∧
    (visitor.userRequest " ../a?b#c@d%2F ").url ≠ (visitor.userRequest "../a?b#c@d/").url := by
  have hname : Text.strip " ../a?b#c@d%2F " ≠ "" := by decide +kernel
  obtain ⟨hasked, part, -, -, -, -, -, hapart⟩ :=
    user_asked_by_name visitor reserved_visitor _ hname
  have hother : Text.strip "../a?b#c@d/" ≠ Text.strip " ../a?b#c@d%2F " := by decide +kernel
  exact ⟨reserved_visitor, hname, by decide +kernel, fun w => (hasked w).1, (hapart _ hother).symm⟩

end Client
end Booru
