import Booru.Proofs.Collection.PoolOrder
import Booru.Proofs.Grabber.Replies

/-! What a grabber holds after any run: only posts that the board gave, that can be downloaded, and
that no line of the blacklist hides. -/

namespace Booru

open Run

variable {σ : Type}

/-- A post that may be grabbed: it comes from an item among the replies, its file is there, and no
line of the blacklist fires on it. -/
structure Post.Admitted (blacklist : Option Blacklist) (replies : List Reply)
    (p : Post) : Prop where
  origin : ∃ item, .item item ∈ replies ∧ Post.ofItem? item = .ok (some p)
  present : p.deleted = false
  located : ∃ url, p.fileUrl = some url ∧ Text.trim url.toList ≠ []
  shown : ∀ b, blacklist = some b → ∀ l ∈ b.lines, Blacklist.Line.fires l p = false

def GrabbedPost.StandsFor (q : GrabbedPost) (p : Post) : Prop :=
  q.postId = p.id ∧ p.fileUrl = some q.url

/-- All that a haul holds stands for admitted posts, its single posts for safe ones where that is
wanted. -/
structure Haul.Sound (g : Grabber σ) (replies : List Reply) (h : Haul) : Prop where
  single : ∀ q ∈ h.single, ∃ p : Post,
    p.Admitted g.blacklist replies ∧ q.StandsFor p ∧ (g.safeMode = true → p.rating = "s")
  others : ∀ c ∈ h.others, ∀ q ∈ c.posts, ∃ p : Post, p.Admitted g.blacklist replies ∧ q.StandsFor p

/-- A missing address is a failure that came from outside, as the last reply. -/
def Reply.Blamed (f : Failure) (replies : List Reply) : Prop :=
  ∀ id, f = .argument (.noFileUrl id) → replies.getLast? = some (.failure f)

open Reply (Blamed)

namespace Post

theorem isInvalid_eq_false {p : Post} (h : p.isInvalid = false) :
    p.deleted = false ∧ ∃ url, p.fileUrl = some url ∧ Text.trim url.toList ≠ [] := by
  unfold isInvalid at h
  rw [Bool.or_eq_false_iff] at h
  refine ⟨h.1, ?_⟩
  cases hu : p.fileUrl with
  | none => simp [hu, Text.trim, Text.dropEndWhile] at h
  | some url => exact ⟨url, rfl, by simpa [hu] using h.2⟩

theorem Admitted.mono {b : Option Blacklist} {before after : List Reply} {p : Post}
    (hsub : before ⊆ after)
    (h : p.Admitted b before) : p.Admitted b after := by
  obtain ⟨item, hmem, hitem⟩ := h.origin
  exact ⟨⟨item, hsub hmem, hitem⟩, h.present, h.located, h.shown⟩

theorem url_of_located {p : Post} (h : ∃ url, p.fileUrl = some url ∧ Text.trim url.toList ≠ []) :
    ∃ url, p.fileUrl = some url ∧ p.url = .ok url := by
  obtain ⟨url, hurl, hne⟩ := h
  have hfull : url.isEmpty = false := by
    rw [Bool.eq_false_iff]
    intro hempty
    rw [String.isEmpty_iff] at hempty
    exact hne (by simp [hempty, Text.trim, Text.dropEndWhile])
  exact ⟨url, hurl, by simp [Post.url, hurl, nonEmpty?, Option.filter, hfull]⟩

theorem grabbed_of_located {p : Post} (h : ∃ url, p.fileUrl = some url ∧ Text.trim url.toList ≠ [])
    (naming : Naming) : ∃ q, p.grabbed naming = .ok q ∧ q.StandsFor p := by
  obtain ⟨url, hurl, hok⟩ := url_of_located h
  exact ⟨_, by simp only [Post.grabbed, hok, Except.map]; rfl, rfl, hurl⟩

theorem Admitted.url_eq {b : Option Blacklist} {replies : List Reply} {p : Post}
    (h : p.Admitted b replies) : ∃ url, p.fileUrl = some url ∧ p.url = .ok url :=
  url_of_located h.located

theorem Admitted.grabbed_eq {b : Option Blacklist} {replies : List Reply} {p : Post}
    (h : p.Admitted b replies) (naming : Naming) : ∃ q, p.grabbed naming = .ok q ∧ q.StandsFor p :=
  grabbed_of_located h.located naming

theorem mapM_grabbed {b : Option Blacklist} {replies : List Reply} {posts : List Post}
    (h : ∀ p ∈ posts, p.Admitted b replies) (naming : Naming) :
    ∃ qs, posts.mapM (fun p => p.grabbed naming) = .ok qs ∧ ∀ q ∈ qs, ∃ p ∈ posts,
    q.StandsFor p := by
  induction posts with
  | nil => exact ⟨[], rfl, by simp⟩
  | cons p rest ih =>
    obtain ⟨q, hq, hstands⟩ := (h p (by simp)).grabbed_eq naming
    obtain ⟨qs, hqs, hall⟩ := ih fun p hp => h p (List.mem_cons_of_mem _ hp)
    refine ⟨q :: qs, by rw [List.mapM_cons, hq, hqs]; rfl, ?_⟩
    intro q' hq'
    rcases List.mem_cons.mp hq' with rfl | hmem
    · exact ⟨p, by simp, hstands⟩
    · obtain ⟨p', hp', hs'⟩ := hall q' hmem
      exact ⟨p', List.mem_cons_of_mem _ hp', hs'⟩

theorem grabbedPages_eq {b : Option Blacklist} {replies : List Reply} {posts : List Post}
    (h : ∀ p ∈ posts, p.Admitted b replies) (pool : String) (page : Nat) :
    ∃ qs, grabbedPages pool page posts = .ok qs ∧ ∀ q ∈ qs, ∃ p ∈ posts, q.StandsFor p := by
  induction posts generalizing page with
  | nil => exact ⟨[], rfl, by simp⟩
  | cons p rest ih =>
    obtain ⟨url, hurl, hok⟩ := (h p (by simp)).url_eq
    obtain ⟨qs, hqs, hall⟩ := ih (fun p hp => h p (List.mem_cons_of_mem _ hp)) (page + 1)
    refine ⟨_, by simp only [grabbedPages, hok, hqs]; rfl, ?_⟩
    intro q' hq'
    rcases List.mem_cons.mp hq' with rfl | hmem
    · exact ⟨p, by simp, rfl, hurl⟩
    · obtain ⟨p', hp', hs'⟩ := hall q' hmem
      exact ⟨p', List.mem_cons_of_mem _ hp', hs'⟩

theorem mem_of_mem_orderPool {ids : List Int} {posts : List Post} {p : Post}
    (h : p ∈ orderPool ids posts) :
    p ∈ posts :=
  (mem_latestPosts.mp ((takeInTurn_perm ids _).mem_iff.mp h)).mem

theorem mem_ofEntries {entries : List Json} {posts : List Post} {skipped : Nat}
    (h : ofEntries entries = .ok (posts, skipped)) :
    ∀ p ∈ posts, ∃ item ∈ entries, ofItem? item = .ok (some p) := by
  induction entries generalizing posts skipped with
  | nil =>
    cases h
    simp
  | cons entry rest ih =>
    simp only [ofEntries, bind, Except.bind, pure, Except.pure] at h
    cases hentry : ofEntry? entry with
    | error e => simp [hentry] at h
    | ok found =>
      cases hrest : ofEntries rest with
      | error e => simp [hentry, hrest] at h
      | ok others =>
        have hothers := ih hrest
        have hcons : ∀ p ∈ others.1, ∃ item ∈ entry :: rest, ofItem? item = .ok (some p) := by
          intro p hp
          obtain ⟨item, hitem, hof⟩ := hothers p hp
          exact ⟨item, List.mem_cons_of_mem _ hitem, hof⟩
        cases found with
        | none =>
          simp only [hentry, hrest, Except.ok.injEq, Prod.mk.injEq] at h
          exact h.1 ▸ hcons
        | some first =>
          simp only [hentry, hrest, Except.ok.injEq, Prod.mk.injEq] at h
          have hfirst : ofItem? entry = .ok (some first) := by
            cases entry <;> simp_all [ ofEntry?]
          intro p hp
          rw [← h.1] at hp
          rcases List.mem_cons.mp hp with rfl | hmem
          · exact ⟨entry, by simp, hfirst⟩
          · exact hcons p hmem

end Post

theorem Blacklist.mem_filter {b : Blacklist} {posts kept : List Post} {hidden : Nat}
    (h : b.filter posts = .ok (kept, hidden)) :
    ∀ p ∈ kept, p ∈ posts ∧ ∀ l ∈ b.lines, Line.fires l p = false := by
  unfold Blacklist.filter at h
  split at h
  · simp at h
  · simp only [Except.ok.injEq, Prod.mk.injEq] at h
    intro p hp
    rw [← h.1, List.mem_filter] at hp
    exact ⟨hp.1, by simpa [Blacklist.hides] using hp.2⟩

theorem Blacklist.filter_nothing_hidden {b : Blacklist} {posts kept : List Post}
    (h : b.filter posts = .ok (kept, 0)) : kept = posts := by
  unfold Blacklist.filter at h
  split at h
  · simp at h
  · simp only [Except.ok.injEq, Prod.mk.injEq] at h
    have hle := List.length_filter_le (!b.hides ·) posts
    rw [← h.1]
    refine List.filter_eq_self.mpr (List.length_filter_eq_length_iff.mp ?_)
    omega

theorem Blacklist.filter_error {b : Blacklist} {posts : List Post} {f : Failure}
    (h : b.filter posts = .error f) : f = .unresolvedUsers := by
  unfold Blacklist.filter at h
  split at h
  · exact (Except.error.inj h).symm
  · simp at h

end Booru
