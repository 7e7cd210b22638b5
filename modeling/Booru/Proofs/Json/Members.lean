import Mathlib.Data.List.Induction
import Mathlib.Data.List.Nodup
import Booru.Json.Basic

/-! Members of an object by their names. -/

namespace Booru.Json

variable {ms more : Members} {name other : String} {v : Json}

theorem Members.get?_append (ms more : Members) (name : String) :
    Members.get? (ms ++ more) name = (Members.get? more name).or (Members.get? ms name) := by
  simp only [Members.get?, List.reverse_append, List.find?_append]
  cases more.reverse.find? (·.1 == name) <;> rfl

theorem Members.get?_of_forall_ne (h : ∀ m ∈ ms, m.1 ≠ name) : Members.get? ms name = none := by
  have hnone : ms.reverse.find? (·.1 == name) = none :=
    List.find?_eq_none.mpr fun m hm => by simpa using h m (List.mem_reverse.mp hm)
  rw [Members.get?, hnone, Option.map_none]

theorem Members.exists_mem_of_get? (h : Members.get? ms name = some v) : ∃ m ∈ ms, m.2 = v := by
  obtain ⟨m, hfound, hv⟩ := Option.map_eq_some_iff.mp h
  exact ⟨m, List.mem_reverse.mp (List.mem_of_find?_eq_some hfound), hv⟩

theorem Members.get?_put (ms : Members) (name : String) (v : Json) (other : String) :
    Members.get? (Members.put ms name v) other = if other = name then some v
      else Members.get? ms other := by
  unfold Members.put
  split
  · rename_i hin
    rw [Members.get?, ← List.map_reverse, List.find?_map]
    have hnames : ((·.1 == other) ∘ fun m : String × Json => if m.1 == name then (name, v) else m) =
        (·.1 == other) := by
      funext m
      by_cases hm : m.1 = name <;> simp [hm]
    rw [hnames, Members.get?]
    cases hfound : ms.reverse.find? (·.1 == other) with
    | none =>
      have hother : other ≠ name := by
        rintro rfl
        obtain ⟨m, hm, hname⟩ := List.any_eq_true.mp hin
        exact List.find?_eq_none.mp hfound m (List.mem_reverse.mpr hm) hname
      rw [if_neg hother]
      rfl
    | some m =>
      have hm : m.1 = other := by simpa using List.find?_some hfound
      by_cases hother : other = name
      · simp [hother, hm]
      · simp [hother, hm]
  · rw [Members.get?_append]
    by_cases hother : other = name
    · simp [Members.get?, hother]
    · have hnone : Members.get? [(name, v)] other = none :=
        Members.get?_of_forall_ne (by simpa [eq_comm] using hother)
      rw [if_neg hother, hnone, Option.none_or]

theorem Members.get?_overlay (ms more : Members) (name : String) :
    Members.get? (Members.overlay ms more) name = (Members.get? more name).or
      (Members.get? ms name) := by
  induction more using List.reverseRecOn with
  | nil => rfl
  | append_singleton more m ih =>
    rw [Members.overlay, List.foldl_append, List.foldl_cons, List.foldl_nil, ← Members.overlay,
      Members.get?_put, ih, Members.get?_append]
    by_cases hname : name = m.1
    · simp [Members.get?, hname]
    · have hnone : Members.get? [m] name = none :=
        Members.get?_of_forall_ne (by simpa [eq_comm] using hname)
      rw [if_neg hname, hnone, Option.none_or]

theorem Members.get?_filter {p : String × Json → Bool}
    (h : ∀ m, m.1 = name → p m = true) (ms : Members) :
    Members.get? (ms.filter p) name = Members.get? ms name := by
  rw [Members.get?, ← List.filter_reverse, List.find?_filter, Members.get?]
  congr 2
  funext m
  by_cases hm : m.1 = name
  · simp [hm, h m hm]
  · simp [hm]

theorem Members.get?_map (f : Json → Json) (ms : Members) (name : String) :
    Members.get? (ms.map fun m => (m.1, f m.2)) name = (Members.get? ms name).map f := by
  rw [Members.get?, ← List.map_reverse, List.find?_map, Option.map_map,
    Members.get?, Option.map_map]
  rfl

theorem Members.mem_put {m : String × Json} (h : m ∈ Members.put ms name v) :
    m ∈ ms ∨ m = (name, v) := by
  unfold Members.put at h
  split at h
  · obtain ⟨m', hm', rfl⟩ := List.mem_map.mp h
    by_cases hname : m'.1 = name
    · simp [hname]
    · simp [hname, hm']
  · rcases List.mem_append.mp h with hm | hm
    · exact .inl hm
    · exact .inr (List.mem_singleton.mp hm)

theorem Members.mem_overlay {m : String × Json} (h : m ∈ Members.overlay ms more) :
    m ∈ ms ∨ m ∈ more := by
  induction more using List.reverseRecOn with
  | nil => exact .inl h
  | append_singleton more last ih =>
    rw [Members.overlay, List.foldl_append, List.foldl_cons, List.foldl_nil, ← Members.overlay] at h
    rcases Members.mem_put h with hm | rfl
    · exact (ih hm).imp_right (List.mem_append_left _)
    · exact .inr (List.mem_append_right _ List.mem_cons_self)

/-! ### Names that stand once -/

theorem Members.put_new {name : String} (h : name ∉ Members.names ms) (v : Json) :
    Members.put ms name v = ms ++ [(name, v)] := by
  apply if_neg
  rw [List.any_eq_true]
  rintro ⟨m, hm, hname⟩
  exact h (List.mem_map.mpr ⟨m, hm, by simpa using hname⟩)

theorem Members.overlay_new (h : (Members.names (ms ++ more)).Nodup) :
    Members.overlay ms more = ms ++ more := by
  induction more generalizing ms with
  | nil =>
    rw [List.append_nil]
    rfl
  | cons m more ih =>
    have hnew : m.1 ∉ Members.names ms := by
      rw [Members.names, List.map_append, List.nodup_append] at h
      exact fun hin => h.2.2 m.1 hin m.1 List.mem_cons_self rfl
    change Members.overlay (Members.put ms m.1 m.2) more = _
    rw [Members.put_new hnew, ih (by simpa using h), List.append_assoc]
    rfl

theorem Members.ofList_of_nodup (h : (Members.names ms).Nodup) : Members.ofList ms = ms :=
  Members.overlay_new h

theorem Members.names_map (f : Json → Json) (ms : Members) :
    Members.names (ms.map fun m => (m.1, f m.2)) = Members.names ms := by
  rw [Members.names, List.map_map]
  rfl

theorem Members.nodup_put (h : (Members.names ms).Nodup) (name : String) (v : Json) :
    (Members.names (Members.put ms name v)).Nodup := by
  unfold Members.put
  split
  · have hsame : Members.names (ms.map fun m => if m.1 == name then (name, v) else m) =
        Members.names ms := by
      rw [Members.names, List.map_map]
      apply List.map_congr_left
      intro m _
      by_cases hm : m.1 = name <;> simp [hm]
    rwa [hsame]
  · rename_i hnew
    have hnew : name ∉ Members.names ms := by
      intro hin
      obtain ⟨m, hm, rfl⟩ := List.mem_map.mp hin
      exact hnew (List.any_eq_true.mpr ⟨m, hm, by simp⟩)
    rw [Members.names, List.map_append, List.nodup_append]
    refine ⟨h, List.nodup_singleton name, ?_⟩
    rintro a ha b hb rfl
    obtain rfl := List.mem_singleton.mp hb
    exact hnew ha

theorem Members.nodup_overlay (h : (Members.names ms).Nodup) (more : Members) :
    (Members.names (Members.overlay ms more)).Nodup := by
  induction more generalizing ms with
  | nil => exact h
  | cons m more ih => exact ih (Members.nodup_put h m.1 m.2)

theorem Members.get?_eq_some (h : (Members.names ms).Nodup) : Members.get? ms name = some v ↔
    (name, v) ∈ ms := by
  constructor
  · intro hget
    obtain ⟨m, hfound, rfl⟩ := Option.map_eq_some_iff.mp hget
    obtain rfl : m.1 = name := by simpa using List.find?_some hfound
    exact List.mem_reverse.mp (List.mem_of_find?_eq_some hfound)
  · intro hin
    cases hget : Members.get? ms name with
    | none =>
      have hnone := Option.map_eq_none_iff.mp hget
      exact absurd (beq_self_eq_true name)
        (List.find?_eq_none.mp hnone (name, v) (List.mem_reverse.mpr hin))
    | some u =>
      obtain ⟨m, hfound, rfl⟩ := Option.map_eq_some_iff.mp hget
      have hname : m.1 = name := by simpa using List.find?_some hfound
      have hm := List.mem_reverse.mp (List.mem_of_find?_eq_some hfound)
      rw [List.inj_on_of_nodup_map h hm hin hname]

theorem Members.get?_perm (h : (Members.names ms).Nodup) (hperm : ms.Perm more) (name : String) :
    Members.get? more name = Members.get? ms name := by
  have hmore : (Members.names more).Nodup := (hperm.map Prod.fst).nodup_iff.mp h
  ext v
  rw [Members.get?_eq_some h, Members.get?_eq_some hmore, hperm.mem_iff]

theorem Members.nodup_filter (h : (Members.names ms).Nodup) (p : String × Json → Bool) :
    (Members.names (ms.filter p)).Nodup :=
  h.sublist (List.filter_sublist.map Prod.fst)

theorem Members.get?_filter_of_nodup (h : (Members.names ms).Nodup)
    (p : String × Json → Bool) (name : String) :
    Members.get? (ms.filter p) name = (Members.get? ms name).filter fun v => p (name, v) := by
  ext v
  rw [Members.get?_eq_some (Members.nodup_filter h p), List.mem_filter, Option.filter_eq_some_iff,
    Members.get?_eq_some h]

end Booru.Json
