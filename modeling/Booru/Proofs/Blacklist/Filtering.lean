import Booru.Proofs.Post.Sifting
import Booru.Proofs.Run

/-! Lists of posts filtered where they stand. A filter takes out what some line hides and tells how
many posts that were, so a second time there is nothing to take out, filters after one another are
one filter with the lines of both, and the order of filters does not matter. A filter whose users
are not resolved refuses and leaves the list alone. -/

namespace Booru

open Run

variable {b c : Blacklist} {posts : List Post}

namespace Blacklist

theorem filterInPlace_resolved (h : b.isResolved = true) (posts : List Post) :
    b.filterInPlace posts = (.ok (posts.countP b.hides), posts.filter (!b.hides ·)) := by
  have hget : (get : Run (List Post) (List Post)) posts = (.ok posts, posts) := rfl
  simp only [filterInPlace, bind_apply, hget, filter_resolved h, Run.lift]
  rfl

theorem filterInPlace_unresolved (h : b.isResolved = false) (posts : List Post) :
    b.filterInPlace posts = (.error .unresolvedUsers, posts) := by
  have hget : (get : Run (List Post) (List Post)) posts = (.ok posts, posts) := rfl
  have hrefused : b.filter posts = .error .unresolvedUsers := by
    rw [isResolved, Bool.not_eq_false'] at h
    rw [filter, if_pos h]
  simp only [filterInPlace, bind_apply, hget, hrefused, Run.lift]

theorem isResolved_extend : (b.extend c).isResolved = (b.isResolved && c.isResolved) := by
  simp [isResolved, hasUnresolvedUsers, tokens, extend]

theorem hides_extend (b c : Blacklist) (p : Post) :
    (b.extend c).hides p = (b.hides p || c.hides p) := by
  simp [hides, extend]

theorem not_hides (b : Blacklist) (p : Post) : (!b.hides p) = b.lines.all fun l =>
    !Line.fires l p := by
  rw [hides, List.not_any_eq_all_not]

end Blacklist

theorem removeInvalidInPlace_apply (posts : List Post) : Post.removeInvalidInPlace posts =
    (.ok (posts.countP (·.isInvalid)), posts.filter (!·.isInvalid)) := by
  have happly : Post.removeInvalidInPlace posts =
      (.ok (Post.removeInvalid posts).2, (Post.removeInvalid posts).1) := rfl
  rw [happly, Post.removeInvalid_eq]

theorem countP_or (f g : Post → Bool) (posts : List Post) :
    posts.countP (fun p => f p || g p) = posts.countP f + (posts.filter (!f ·)).countP g := by
  induction posts with
  | nil => rfl
  | cons p rest ih =>
    cases hf : f p <;> cases hg : g p <;> simp [hf, hg, ih] <;> omega

namespace Blacklist

theorem filterInPlace_again (h : b.isResolved = true) (posts : List Post) :
    b.filterInPlace (posts.filter (!b.hides ·)) = (.ok 0, posts.filter (!b.hides ·)) := by
  have hnone : (posts.filter (!b.hides ·)).countP b.hides = 0 := by
    rw [List.countP_eq_zero]
    intro p hp
    simpa using (List.mem_filter.mp hp).2
  rw [filterInPlace_resolved h, hnone, List.filter_filter]
  simp only [Bool.and_self]

theorem filterInPlace_extend (hb : b.isResolved = true) (hc : c.isResolved = true)
    (posts : List Post) :
    (do let n ← b.filterInPlace
        let m ← c.filterInPlace
        pure (n + m)) posts = (b.extend c).filterInPlace posts := by
  have hboth : (b.extend c).isResolved = true := by rw [isResolved_extend, hb, hc, Bool.and_self]
  have hcount : posts.countP (b.extend c).hides = posts.countP b.hides +
      (posts.filter (!b.hides ·)).countP c.hides := by
    rw [← countP_or]
    exact List.countP_congr fun p _ => by rw [hides_extend]
  have hleft : posts.filter (!(b.extend c).hides ·) =
      (posts.filter (!b.hides ·)).filter (!c.hides ·) := by
    rw [List.filter_filter]
    exact List.filter_congr fun p _ => by rw [hides_extend, Bool.not_or, Bool.and_comm]
  simp only [bind_apply, filterInPlace_resolved hb, filterInPlace_resolved hc,
    filterInPlace_resolved hboth, hcount, hleft]
  rfl

theorem filterInPlace_extend_comm (b c : Blacklist) :
    (c.extend b).filterInPlace = (b.extend c).filterInPlace := by
  funext posts
  have hhides : (c.extend b).hides = (b.extend c).hides := by
    funext p
    rw [hides_extend, hides_extend, Bool.or_comm]
  have hresolved : (c.extend b).isResolved = (b.extend c).isResolved := by
    rw [isResolved_extend, isResolved_extend, Bool.and_comm]
  cases h : (b.extend c).isResolved with
  | true => rw [filterInPlace_resolved h, filterInPlace_resolved (hresolved.trans h), hhides]
  | false => rw [filterInPlace_unresolved h, filterInPlace_unresolved (hresolved.trans h)]

theorem filterInPlace_removeInvalid (h : b.isResolved = true) (posts : List Post) :
    ((b.filterInPlace >>= fun _ => Post.removeInvalidInPlace) posts).2 =
      ((Post.removeInvalidInPlace >>= fun _ => b.filterInPlace) posts).2 := by
  simp only [bind_apply, filterInPlace_resolved h, removeInvalidInPlace_apply, List.filter_filter]
  exact List.filter_congr fun p _ => Bool.and_comm _ _

/-- The laws of filters on a list of posts: what one leaves and counts, what it does a second time
and beside the filter of posts that cannot be downloaded; two of them, one after the other and
joined in either order; and one whose users are not all resolved. -/
theorem filter_laws (posts : List Post) :
    (∀ b : Blacklist, b.isResolved = true → ∃ removed left,
      b.filterInPlace posts = (.ok removed, left) ∧
      left = posts.filter (fun p => b.lines.all fun l => !Line.fires l p) ∧
      removed + left.length = posts.length ∧ b.filterInPlace left = (.ok 0, left) ∧
      ((b.filterInPlace >>= fun _ => Post.removeInvalidInPlace) posts).2 =
        ((Post.removeInvalidInPlace >>= fun _ => b.filterInPlace) posts).2) ∧
    (∀ b c : Blacklist, b.isResolved = true → c.isResolved = true →
      (do let n ← b.filterInPlace
          let m ← c.filterInPlace
          pure (n + m)) posts = (b.extend c).filterInPlace posts ∧
      (c.extend b).filterInPlace posts = (b.extend c).filterInPlace posts) ∧
    (∀ b : Blacklist, (∃ t ∈ b.tokens, t.kind = .user ∧ t.resolved = false) →
      ∃ f, f.kind = .precondition ∧ b.filterInPlace posts = (.error f, posts)) := by
  refine ⟨fun b hb => ?_, fun b c hb hc => ⟨filterInPlace_extend hb hc posts, ?_⟩, fun b hb => ?_⟩
  · refine ⟨_, _, filterInPlace_resolved hb posts, ?_, ?_, filterInPlace_again hb posts,
      filterInPlace_removeInvalid hb posts⟩
    · exact List.filter_congr fun p _ => not_hides b p
    · rw [← length_sub_kept]
      exact Nat.sub_add_cancel (List.length_filter_le _ _)
  · rw [filterInPlace_extend_comm]
  · have hunresolved : b.isResolved = false := by
      obtain ⟨t, ht, hkind, hopen⟩ := hb
      rw [isResolved, Bool.not_eq_false', hasUnresolvedUsers, List.any_eq_true]
      exact ⟨t, ht, by simp [Token.isUnresolvedUser, hkind, hopen]⟩
    exact ⟨.unresolvedUsers, rfl, filterInPlace_unresolved hunresolved posts⟩

def foxes : Blacklist := ⟨[[.ofTag "fox" false]]⟩

def safeOnes : Blacklist := ⟨[[.ofRating "safe" false], [.ofId 9 false]]⟩

def threeRatings : List Post :=
  [{ id := 1, uploader := 0, rating := "s", tags := ["fox"] },
    { id := 2, uploader := 0, rating := "s" }, { id := 3, uploader := 0, rating := "e" }]

theorem filter_laws_threeRatings :
    (do let n ← foxes.filterInPlace
        let m ← safeOnes.filterInPlace
        pure (n + m)) threeRatings = (foxes.extend safeOnes).filterInPlace threeRatings ∧
    (∃ removed left, safeOnes.filterInPlace threeRatings = (.ok removed, left) ∧
      safeOnes.filterInPlace left = (.ok 0, left)) ∧
    ∃ f, f.kind = .precondition ∧
      (Blacklist.mk [[.ofUser "bob" true]]).filterInPlace threeRatings =
        (.error f, threeRatings) := by
  obtain ⟨hone, htwo, hrefused⟩ := filter_laws threeRatings
  obtain ⟨removed, left, hrun, -, -, hagain, -⟩ := hone safeOnes (by decide)
  refine ⟨(htwo foxes safeOnes (by decide) (by decide)).1, ⟨removed, left, hrun, hagain⟩, ?_⟩
  exact hrefused _ ⟨.ofUser "bob" true, List.mem_singleton_self _, rfl, rfl⟩

end Blacklist
end Booru
