import Mathlib.Data.List.Induction
import Mathlib.Data.List.Nodup
import Mathlib.Data.List.Perm.Basic
import Booru.Collection

/-! The posts of a pool in its own order. Of each number the last post is there, once: first those
that the pool lists, in the order in which it first lists them, and then the others, in the order in
which their numbers first came. -/

namespace Booru

def postIds (posts : List Post) : List Int := posts.map (·.id)

/-- The last one with its number in a list. -/
def IsLatest (posts : List Post) (p : Post) : Prop :=
  ∃ before after, posts = before ++ p :: after ∧ ∀ q ∈ after, q.id ≠ p.id

variable {posts left : List Post} {p q x : Post} {ids : List Int} {id : Int}

theorem IsLatest.mem (h : IsLatest posts p) : p ∈ posts := by
  obtain ⟨before, after, rfl, -⟩ := h
  simp

theorem isLatest_concat : IsLatest (posts ++ [x]) p ↔ p = x ∨ IsLatest posts p ∧ p.id ≠ x.id := by
  constructor
  · rintro ⟨before, after, hsplit, hafter⟩
    rcases List.eq_nil_or_concat after with rfl | ⟨after, y, rfl⟩
    · left
      have hlast := List.append_inj_right' hsplit rfl
      exact (List.singleton_inj.mp hlast).symm
    · right
      rw [List.concat_eq_append, ← List.cons_append, ← List.append_assoc] at hsplit
      obtain ⟨rfl, hlast⟩ := List.append_inj' hsplit rfl
      obtain rfl := List.singleton_inj.mp hlast
      refine ⟨⟨before, after, rfl, fun q hq => hafter q ?_⟩, fun hid => hafter x ?_ hid.symm⟩
      · simp [hq]
      · simp
  · rintro (rfl | ⟨⟨before, after, rfl, hafter⟩, hid⟩)
    · exact ⟨posts, [], rfl, by simp⟩
    · refine ⟨before, after ++ [x], by simp, fun q hq => ?_⟩
      rcases List.mem_append.mp hq with hq | hq
      · exact hafter q hq
      · rw [List.mem_singleton.mp hq]
        exact hid.symm

/-! ### One post of each number -/

theorem ids_putPost (posts : List Post) (p : Post) :
    postIds (putPost posts p) = if p.id ∈ postIds posts then postIds posts
      else postIds posts ++ [p.id] := by
  induction posts with
  | nil => rfl
  | cons q rest ih =>
    by_cases hq : q.id = p.id
    · simp [putPost, postIds, hq]
    · have hq' : p.id ≠ q.id := Ne.symm hq
      simp only [putPost, beq_iff_eq, hq, if_false, postIds, List.map_cons] at ih ⊢
      rw [ih]
      by_cases hp : p.id ∈ rest.map (·.id)
      · simp [hp]
      · simp [hp, hq']

theorem mem_putPost (h : (postIds posts).Nodup) : q ∈ putPost posts p ↔ q = p ∨
    q ∈ posts ∧ q.id ≠ p.id := by
  induction posts with
  | nil => simp [putPost]
  | cons x rest ih =>
    obtain ⟨hx, hrest⟩ := List.nodup_cons.mp h
    by_cases hid : x.id = p.id
    · have hothers : ∀ q ∈ rest, q.id ≠ p.id := by
        intro q hq heq
        exact hx (List.mem_map.mpr ⟨q, hq, heq.trans hid.symm⟩)
      simp only [putPost, hid, beq_self_eq_true, if_true, List.mem_cons]
      constructor
      · rintro (rfl | hq)
        · exact .inl rfl
        · exact .inr ⟨.inr hq, hothers q hq⟩
      · rintro (rfl | ⟨rfl | hq, hne⟩)
        · exact .inl rfl
        · exact absurd hid hne
        · exact .inr hq
    · simp only [putPost, beq_iff_eq, hid, if_false, List.mem_cons, ih hrest]
      constructor
      · rintro (rfl | rfl | ⟨hq, hne⟩)
        · exact .inr ⟨.inl rfl, hid⟩
        · exact .inl rfl
        · exact .inr ⟨.inr hq, hne⟩
      · rintro (rfl | ⟨rfl | hq, hne⟩)
        · exact .inr (.inl rfl)
        · exact .inl rfl
        · exact .inr (.inr ⟨hq, hne⟩)

theorem putPost_new (h : p.id ∉ postIds posts) : putPost posts p = posts ++ [p] := by
  induction posts with
  | nil => rfl
  | cons q rest ih =>
    have hq : q.id ≠ p.id := fun heq => h (List.mem_cons.mpr (.inl heq.symm))
    have hrest : p.id ∉ postIds rest := fun hin => h (List.mem_cons_of_mem _ hin)
    simp only [putPost, beq_iff_eq, hq, if_false, ih hrest, List.cons_append]

theorem latestPosts_concat (posts : List Post) (x : Post) :
    latestPosts (posts ++ [x]) = putPost (latestPosts posts) x := by
  simp [latestPosts]

theorem ids_latestPosts (posts : List Post) :
    postIds (latestPosts posts) = (postIds posts).eraseDups := by
  induction posts using List.reverseRecOn with
  | nil => rfl
  | append_singleton posts x ih =>
    rw [latestPosts_concat, ids_putPost, ih]
    have happend : postIds (posts ++ [x]) = postIds posts ++ [x.id] := by simp [postIds]
    rw [happend, List.eraseDups_append]
    by_cases hx : x.id ∈ postIds posts
    · simp [hx, List.removeAll, List.mem_eraseDups]
    · simp [hx, List.removeAll, List.mem_eraseDups, List.eraseDups_cons]

theorem nodup_latestPosts (posts : List Post) : (postIds (latestPosts posts)).Nodup := by
  induction posts using List.reverseRecOn with
  | nil => exact List.nodup_nil
  | append_singleton posts x ih =>
    rw [latestPosts_concat, ids_putPost]
    split
    · exact ih
    · rename_i hx
      rw [← List.concat_eq_append]
      exact ih.concat hx

theorem mem_latestPosts : p ∈ latestPosts posts ↔ IsLatest posts p := by
  induction posts using List.reverseRecOn with
  | nil => simp [latestPosts, IsLatest]
  | append_singleton posts x ih =>
    rw [latestPosts_concat, mem_putPost (nodup_latestPosts posts), ih, isLatest_concat]

theorem latestPosts_eq_self (h : (postIds posts).Nodup) : latestPosts posts = posts := by
  induction posts using List.reverseRecOn with
  | nil => rfl
  | append_singleton posts x ih =>
    have happend : postIds (posts ++ [x]) = postIds posts ++ [x.id] := by simp [postIds]
    rw [happend, ← List.concat_eq_append, List.nodup_concat] at h
    rw [latestPosts_concat, ih h.2, putPost_new h.1]

/-! ### Taken in turn -/

theorem eraseDups_filter (f : Int → Bool) (ids : List Int) :
    (ids.filter f).eraseDups = ids.eraseDups.filter f := by
  induction hlength : ids.length using Nat.strongRecOn generalizing ids with
  | _ n ih =>
    cases ids with
    | nil => rfl
    | cons id ids =>
      have hshorter : (ids.filter fun x => !x == id).length < n := by
        rw [← hlength]
        exact Nat.lt_succ_of_le (List.length_filter_le _ _)
      have hrest := ih _ hshorter (ids.filter fun x => !x == id) rfl
      rw [List.eraseDups_cons, List.filter_cons, List.filter_cons, ← hrest, List.filter_filter]
      by_cases hid : f id = true
      · rw [if_pos hid, if_pos hid, List.eraseDups_cons, List.filter_filter]
        simp only [Bool.and_comm]
      · rw [if_neg hid, if_neg hid]
        congr 1
        refine List.filter_congr fun x _ => ?_
        by_cases hx : x = id <;> simp [hx, hid]

theorem filter_eraseDups_cons (f : Int → Bool) (id : Int) (ids : List Int) :
    (id :: ids).eraseDups.filter f =
      (if f id then [id] else []) ++ ids.eraseDups.filter fun x => f x && x != id := by
  rw [List.eraseDups_cons, List.filter_cons, eraseDups_filter, List.filter_filter]
  split <;> rfl

theorem takeInTurn_perm (ids : List Int) (left : List Post) : (takeInTurn ids left).Perm left := by
  induction ids generalizing left with
  | nil => exact .refl left
  | cons id ids ih =>
    cases hfound : left.find? (·.id == id) with
    | none => simpa only [takeInTurn, hfound] using ih left
    | some p =>
      obtain ⟨hp, before, after, rfl, hbefore⟩ := List.find?_eq_some_iff_append.mp hfound
      have herased : (before ++ p :: after).eraseP (·.id == id) = before ++ after := by
        rw [List.eraseP_append_right _ (by simpa using hbefore),
          List.eraseP_cons_of_pos (by exact hp)]
      simp only [takeInTurn, hfound, herased]
      exact ((ih _).cons p).trans List.perm_middle.symm

theorem ids_takeInTurn (ids : List Int) (h : (postIds left).Nodup) :
    postIds (takeInTurn ids left) = ids.eraseDups.filter (postIds left).contains ++
      (postIds left).filter (!ids.contains ·) := by
  induction ids generalizing left with
  | nil => simp [takeInTurn]
  | cons id ids ih =>
    rw [filter_eraseDups_cons]
    have hothers : (postIds left).filter (fun x => !(id :: ids).contains x) =
        ((postIds left).filter (· != id)).filter (!ids.contains ·) := by
      rw [List.filter_filter]
      refine List.filter_congr fun x _ => ?_
      rw [List.contains_cons, Bool.not_or, Bool.and_comm]
      rfl
    rw [hothers]
    cases hfound : left.find? (·.id == id) with
    | none =>
      have hmissing : ∀ x ∈ postIds left, x ≠ id := by
        rintro x hx rfl
        obtain ⟨q, hq, hid⟩ := List.mem_map.mp hx
        exact List.find?_eq_none.mp hfound q hq (by simpa using hid)
      have hall : (postIds left).filter (· != id) = postIds left :=
        List.filter_eq_self.mpr fun x hx => by simpa using hmissing x hx
      have hnever : id ∉ postIds left := fun hin => hmissing id hin rfl
      simp only [takeInTurn, hfound]
      rw [ih h, hall]
      have hwanted : (fun x => (postIds left).contains x && x != id) = (postIds left).contains := by
        funext x
        by_cases hx : x ∈ postIds left
        · simp [hx, hmissing x hx]
        · simp [hx]
      rw [hwanted, if_neg (by simpa using hnever), List.nil_append]
    | some p =>
      have hp : p.id = id := by simpa using List.find?_some hfound
      have hin : id ∈ postIds left := List.mem_map.mpr ⟨p, List.mem_of_find?_eq_some hfound, hp⟩
      have herased : postIds (left.eraseP (·.id == id)) = (postIds left).filter (· != id) := by
        rw [← h.erase_eq_filter, List.erase_eq_eraseP', postIds, postIds, List.eraseP_map]
        rfl
      have hcontains : (fun x => (postIds left).contains x && x != id) =
          ((postIds left).filter (· != id)).contains := by
        funext x
        by_cases hx : x = id <;> simp [hx]
      simp only [takeInTurn, hfound]
      change p.id :: postIds (takeInTurn ids (left.eraseP (·.id == id))) = _
      rw [ih (herased ▸ h.filter _), herased, hcontains, hp]
      simp [hin]

/-! ### The order of a pool -/

theorem nodup_orderPool (ids : List Int) (posts : List Post) :
    (postIds (orderPool ids posts)).Nodup :=
  ((takeInTurn_perm ids _).map _).nodup_iff.mpr (nodup_latestPosts posts)

theorem ids_orderPool (ids : List Int) (posts : List Post) :
    postIds (orderPool ids posts) = ids.eraseDups.filter (postIds posts).contains ++
      (postIds posts).eraseDups.filter (!ids.contains ·) := by
  rw [orderPool, ids_takeInTurn ids (nodup_latestPosts posts), ids_latestPosts]
  congr 2
  funext id
  by_cases hid : id ∈ postIds posts <;> simp [hid, List.mem_eraseDups]

theorem mem_ids_orderPool : id ∈ postIds (orderPool ids posts) ↔ id ∈ postIds posts := by
  rw [ids_orderPool, List.mem_append, List.mem_filter, List.mem_filter, List.mem_eraseDups,
    List.mem_eraseDups]
  by_cases hid : id ∈ ids <;> simp [hid]

theorem eq_of_ids_eq (h : (postIds posts).Nodup) (hperm : left.Perm posts)
    (hids : postIds left = postIds posts) :
    left = posts := by
  have hlength : left.length = posts.length := hperm.length_eq
  refine List.ext_getElem hlength fun i hi hi' => ?_
  refine List.inj_on_of_nodup_map h (hperm.mem_iff.mp (List.getElem_mem hi))
    (List.getElem_mem hi') ?_
  have hat := congrArg (·[i]?) hids
  simpa [postIds, hi, hi'] using hat

theorem orderPool_perm (ids : List Int) (h : (postIds posts).Nodup) :
    (orderPool ids posts).Perm posts := by
  rw [orderPool, latestPosts_eq_self h]
  exact takeInTurn_perm ids posts

theorem orderPool_orderPool (ids : List Int) (posts : List Post) :
    orderPool ids (orderPool ids posts) = orderPool ids posts := by
  have hnodup := nodup_orderPool ids posts
  have hlatest : latestPosts (orderPool ids posts) = orderPool ids posts :=
    latestPosts_eq_self hnodup
  apply eq_of_ids_eq hnodup
  · exact orderPool_perm ids hnodup
  · have hdistinct : (postIds (orderPool ids posts)).eraseDups = postIds (orderPool ids posts) := by
      rw [← ids_latestPosts, hlatest]
    have hlisted : (postIds (orderPool ids posts)).contains = (postIds posts).contains := by
      funext id
      rw [Bool.eq_iff_iff, List.contains_iff_mem, List.contains_iff_mem, mem_ids_orderPool]
    rw [ids_orderPool, hdistinct, hlisted, ids_orderPool, List.filter_append, List.filter_filter,
      List.filter_filter]
    have hnone : (ids.eraseDups.filter fun id => !ids.contains id && (postIds posts).contains id) =
        [] := by
      apply List.filter_eq_nil_iff.mpr
      intro id hid
      simp [List.mem_eraseDups.mp hid]
    simp only [hnone, Bool.and_self, List.nil_append]

/-- In a pool's own order each number of the posts stands once, with its last post, and no
other. The numbers that the pool lists come first, as it first lists them, and then the others,
as they first came. So nothing but the order changes where the numbers are different, and
nothing at all the second time. -/
theorem orderPool_arranged (ids : List Int) (posts : List Post) :
    (∀ p, p ∈ orderPool ids posts ↔ IsLatest posts p) ∧
    (postIds (orderPool ids posts)).Nodup ∧
    (∀ id, id ∈ postIds (orderPool ids posts) ↔ id ∈ postIds posts) ∧
    postIds (orderPool ids posts) = ids.eraseDups.filter (postIds posts).contains ++
      (postIds posts).eraseDups.filter (!ids.contains ·) ∧
    ((postIds posts).Nodup → (orderPool ids posts).Perm posts) ∧
    orderPool ids (orderPool ids posts) = orderPool ids posts := by
  refine ⟨fun p => ?_, nodup_orderPool ids posts, fun id => mem_ids_orderPool,
    ids_orderPool ids posts, orderPool_perm ids, orderPool_orderPool ids posts⟩
  rw [← mem_latestPosts]
  exact (takeInTurn_perm ids _).mem_iff

def threePosts : List Post := [1, 2, 3].map fun id => { id, uploader := 0, rating := "s" }

/-- A pool that lists one of them twice, one not at all, and one that is not there. -/
theorem orderPool_arranged_threePosts :
    postIds (orderPool [3, 9, 1, 3] threePosts) = [3, 1, 2] ∧
    (orderPool [3, 9, 1, 3] threePosts).Perm threePosts :=
  ⟨by decide, (orderPool_arranged _ _).2.2.2.2.1 (by decide)⟩

end Booru
