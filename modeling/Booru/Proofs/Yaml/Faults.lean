import Booru.Proofs.Yaml.Typing
import Booru.Yaml.Reader

/-! Where the values of a document that cannot be built come from: escapes, and
the scalars in its tree. -/

namespace Booru.Yaml

variable {depth : Nat} {root n m : Node} {o : Obstacle} {f : Fault}

/-! ### Nodes of a document -/

/-- The nodes of a tree, as its collections are opened one by one. -/
inductive Node.Within (depth : Nat) (root : Node) : Node → Prop
  | top : Within depth root root
  | inner {n m : Node} (h : Within depth root n) (hm : .ok m ∈ n.opened depth) : Within depth root m

theorem Node.malformed_of_opened (h : .error f ∈ n.opened depth) : f = .malformed := by
  unfold opened at h
  split at h
  · simp at h
  · obtain ⟨item, -, hitem⟩ := List.mem_flatMap.mp h
    split at hitem <;> simp_all
  · split at h
    · obtain ⟨e, -, he⟩ := List.mem_flatMap.mp h
      by_cases hkey : isKey e.1 = true <;> simp_all
    · simpa using h
  · simpa using h

theorem Node.of_check_unbuildable (h : n.check depth = .error (.unbuildable o)) :
    ∃ s, n.text? depth = some s ∧ readScalar n.tag s = .error (.unbuildable o) := by
  unfold check at h
  split at h
  · cases h
  · split at h
    · rename_i s htext
      cases hread : readScalar n.tag s with
      | ok v =>
        rw [hread] at h
        cases h
      | error g =>
        rw [hread] at h
        cases h
        exact ⟨s, htext, hread⟩
    · cases h

theorem Node.of_nextLevel_unbuildable {level : List Node}
    (h : nextLevel depth level = .error (.unbuildable o)) :
    ∃ n ∈ level, ∃ m, .ok m ∈ n.opened depth ∧ m.check depth = .error (.unbuildable o) := by
  obtain hinner | ⟨inner, -, hkept⟩ := Run.bind_eq_error.mp h
  · obtain ⟨step, hstep, hfails⟩ := Run.exists_of_mapM_error hinner
    obtain ⟨n, hn, hopened⟩ := List.mem_flatMap.mp hstep
    cases step with
    | error g =>
      cases hfails
      cases malformed_of_opened hopened
    | ok m =>
      refine ⟨n, hn, m, hopened, ?_⟩
      have hchecked : (m.check depth >>= fun _ => pure m) = .error (.unbuildable o) := hfails
      obtain hcheck | ⟨_, -, hkept⟩ := Run.bind_eq_error.mp hchecked
      · exact hcheck
      · cases hkept
  · cases hkept

theorem Node.within_of_nextLevel {level next : List Node}
    (hlevel : ∀ n ∈ level, Within depth root n)
    (h : nextLevel depth level = .ok next) : ∀ m ∈ next, Within depth root m := by
  intro m hm
  obtain ⟨inner, hinner, hkept⟩ := Run.bind_eq_ok.mp h
  cases hkept
  obtain ⟨step, hstep, hm⟩ := Run.exists_of_mapM hinner m (List.mem_of_mem_filter hm)
  obtain ⟨n, hn, hopened⟩ := List.mem_flatMap.mp hstep
  cases step with
  | error g => cases hm
  | ok n' =>
    have hchecked : (n'.check depth >>= fun _ => pure n') = .ok m := hm
    obtain ⟨_, -, hkept⟩ := Run.bind_eq_ok.mp hchecked
    cases hkept
    exact .inner (hlevel n hn) hopened

theorem Node.of_checkLevels_unbuildable {fuel : Nat} {level : List Node}
    (hlevel : ∀ n ∈ level, Within depth root n)
    (h : checkLevels depth fuel level = .error (.unbuildable o)) :
    ∃ n, Within depth root n ∧ n.check depth = .error (.unbuildable o) := by
  induction fuel generalizing level with
  | zero => cases h
  | succ fuel ih =>
    rw [checkLevels] at h
    split at h
    · obtain hnext | ⟨next, hnext, hrest⟩ := Run.bind_eq_error.mp h
      · obtain ⟨n, hn, m, hm, hcheck⟩ := of_nextLevel_unbuildable hnext
        exact ⟨m, .inner (hlevel n hn) hm, hcheck⟩
      · exact ih (within_of_nextLevel hlevel hnext) hrest
    · cases h

theorem TextFault.of_fault_unbuildable {g : TextFault} (h : g.fault = .unbuildable o) :
    o = .noCharacter ∨ o = .wideCharacter := by
  cases g <;> cases h
  · exact .inl rfl
  · exact .inr rfl

theorem of_read_unbuildable {text : String} (h : read text = .error (.unbuildable o)) :
    (o = .noCharacter ∨ o = .wideCharacter) ∨ ∃ root depth n s,
      Node.ofText? text = .ok (some root, depth) ∧ Node.Within depth root n ∧
      n.text? depth = some s ∧ readScalar n.tag s = .error (.unbuildable o) := by
  obtain htree | ⟨⟨root | root, depth⟩, htree, hvalue⟩ := Run.bind_eq_error.mp h
  · obtain ⟨g, -, hfault⟩ := Run.mapError_eq_error.mp htree
    exact .inl (TextFault.of_fault_unbuildable hfault)
  · cases hvalue
  have htext := Run.mapError_eq_ok.mp htree
  have hnode : ∃ n, Node.Within depth root n ∧ n.check depth = .error (.unbuildable o) := by
    obtain hroot | ⟨_, -, hbelow⟩ := Run.bind_eq_error.mp hvalue
    · exact ⟨root, .top, hroot⟩
    split at hbelow
    · obtain hlevels | ⟨_, -, hkept⟩ := Run.bind_eq_error.mp hbelow
      · exact Node.of_checkLevels_unbuildable (List.forall_mem_singleton.mpr .top) hlevels
      · cases hkept
    · cases hbelow
  obtain ⟨n, hn, hcheck⟩ := hnode
  obtain ⟨s, hs, hread⟩ := Node.of_check_unbuildable hcheck
  exact .inr ⟨root, depth, n, s, htext, hn, hs, hread⟩

/-! ### Failures of values -/

theorem Obstacle.kind_failure (o : Obstacle) : o.failure.kind ∈
    [FailureKind.value, .overflow, .index, .key, .attribute] := by
  cases o <;> simp [failure, Failure.kind]

theorem Obstacle.Implicit.kind_failure (h : o.Implicit) : o.failure.kind = .value ∨
    o.failure.kind = .overflow := by
  cases h with
  | integer e => exact .inl rfl
  | sixties => exact .inr rfl
  | stamp e => exact .inl rfl

end Booru.Yaml
