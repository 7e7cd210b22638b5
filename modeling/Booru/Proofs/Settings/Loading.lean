import Booru.Proofs.Files.Changes
import Booru.Proofs.Yaml.Faults
import Booru.Settings.Validation

/-! How reading settings from a file ends. Whatever its text is, there are settings or a complaint
about them, unless the document asks for a value that cannot be built. Then it is that value's own
failure that comes out. -/

namespace Booru

variable {t : FileTree} {p : Path} {bytes : ByteArray} {text : String}

theorem readTextFile_of_file (role : FileRole) (hfile : t.find? p = .ok (some (.file bytes)))
    (htext : Text.decode bytes = .ok text) :
    readTextFile t role p = .ok (String.ofList (Text.joinLineEnds text.toList)) := by
  obtain ⟨hnull, l, hplace, hentry⟩ := FileTree.find?_eq_some.mp hfile
  have hexists : t.exists? p = .ok true := by rw [FileTree.exists?, hfile]; rfl
  have hbytes : t.readBytes p = .ok bytes := by
    rw [FileTree.readBytes, FileTree.locate_eq_ok.mpr ⟨hnull, hplace⟩]
    simp [bind, Except.bind, hentry, pure, Except.pure]
  unfold readTextFile
  rw [hexists, hbytes]
  change ((Text.decode bytes).mapError Failure.undecodable >>= fun text =>
    Except.ok (String.ofList (Text.joinLineEnds text.toList))) = _
  rw [htext]
  rfl

namespace Settings

section

variable (hfile : t.find? p = .ok (some (.file bytes))) (htext : Text.decode bytes = .ok text)

include hfile htext

theorem load_of_value {v : Yaml}
    (h : Yaml.read (String.ofList (Text.joinLineEnds text.toList)) = .ok v) :
    load t p = (ofYaml p.text v).mapError .config := by
  rw [load, readTextFile_of_file .config hfile htext]
  simp only [bind, Except.bind, h]

theorem load_of_malformed
    (h : Yaml.read (String.ofList (Text.joinLineEnds text.toList)) = .error .malformed) :
    load t p = .error (.config (.badYaml p.text)) := by
  rw [load, readTextFile_of_file .config hfile htext]
  simp only [bind, Except.bind, h]
  rfl

theorem load_of_unbuildable {o : Yaml.Obstacle}
    (h : Yaml.read (String.ofList (Text.joinLineEnds text.toList)) = .error (.unbuildable o)) :
    load t p = .error o.failure := by
  rw [load, readTextFile_of_file .config hfile htext]
  simp only [bind, Except.bind, h]
  rfl

end

/-- Reading a text as settings gives settings or a complaint about them unless the document asks for
a value that cannot be built. Then the failure of the value itself comes out, which is never a
complaint about settings. The value is that of an escape or of a scalar in the tree of the document;
if the scalar has the tag that its text looks like, it is an integer that cannot be read, a number
to the base of sixty out of range, or a date that does not exist. -/
theorem load_complains_unless_unbuildable (t : FileTree) (p : Path)
    (bytes : ByteArray) (text : String) (hfile : t.find? p = .ok (some (.file bytes)))
    (htext : Text.decode bytes = .ok text) :
    let source := String.ofList (Text.joinLineEnds text.toList)
    (((∃ s, load t p = .ok s) ∨ ∃ e, load t p = .error (.config e)) ↔
      ∀ o, Yaml.read source ≠ .error (.unbuildable o)) ∧
    (∀ v, Yaml.read source = .ok v → load t p = (ofYaml p.text v).mapError .config) ∧
    ∀ o, Yaml.read source = .error (.unbuildable o) →
      load t p = .error o.failure ∧
      o.failure.kind ∈ [FailureKind.value, .overflow, .index, .key, .attribute] ∧
      ((o = .noCharacter ∨ o = .wideCharacter) ∨ ∃ root depth n s,
        Yaml.Node.ofText? source = .ok (some root, depth) ∧ Yaml.Node.Within depth root n ∧
          n.text? depth = some s ∧ Yaml.readScalar n.tag s = .error (.unbuildable o) ∧
          (n.tag = .ofPlain s → s.toList.getLast? ≠ some '\n' →
            o.Implicit ∧ (o.failure.kind = .value ∨ o.failure.kind = .overflow))) := by
  intro source
  have hunbuildable {o : Yaml.Obstacle} := @load_of_unbuildable t p bytes text hfile htext o
  refine ⟨⟨fun hends o hread => ?_, fun hbuildable => ?_⟩, fun v =>
    load_of_value hfile htext, fun o hread => ?_⟩
  · rw [hunbuildable hread] at hends
    obtain ⟨s, hs⟩ | ⟨e, he⟩ := hends
    · cases hs
    · have hkind := o.kind_failure
      rw [Except.error.inj he] at hkind
      simp [Failure.kind] at hkind
  · cases hread : Yaml.read source with
    | ok v =>
      rw [load_of_value hfile htext hread]
      cases ofYaml p.text v with
      | ok s => exact .inl ⟨s, rfl⟩
      | error e => exact .inr ⟨e, rfl⟩
    | error f =>
      cases f with
      | malformed => exact .inr ⟨_, load_of_malformed hfile htext hread⟩
      | unbuildable o => exact absurd hread (hbuildable o)
  · refine ⟨hunbuildable hread, o.kind_failure, (Yaml.of_read_unbuildable hread).imp_right ?_⟩
    rintro ⟨root, depth, n, s, htree, hn, hs, hscalar⟩
    refine ⟨root, depth, n, s, htree, hn, hs, hscalar, fun htag hend => ?_⟩
    rw [htag] at hscalar
    have himplicit := Yaml.implicit_of_unbuildable hend hscalar
    exact ⟨himplicit, himplicit.kind_failure⟩

def impossibleDate : FileTree := { entries := [(["config.yaml"], .file "a: 2001-99-99\n".toUTF8)] }

theorem unbuildable_of_match {r : Except Yaml.Fault Yaml} {o : Yaml.Obstacle}
    (h : (match r with | .error (.unbuildable o') => decide (o' = o) | _ => false) = true) :
    r = .error (.unbuildable o) := by
  split at h
  · rw [of_decide_eq_true h]
  · cases h

/-- There is neither a configuration nor a complaint about one. -/
theorem load_impossible_date : load impossibleDate ⟨"", ["config.yaml"]⟩ =
    .error (.stamp .month) := by
  have hfile : impossibleDate.find? ⟨"", ["config.yaml"]⟩ =
      .ok (some (.file "a: 2001-99-99\n".toUTF8)) := by rfl
  have htext : Text.decode "a: 2001-99-99\n".toUTF8 = .ok "a: 2001-99-99\n" := by decide +kernel
  have hread : Yaml.read (String.ofList (Text.joinLineEnds "a: 2001-99-99\n".toList)) =
      .error (.unbuildable (.stamp .month)) := unbuildable_of_match (by decide +kernel)
  exact ((load_complains_unless_unbuildable impossibleDate ⟨"", ["config.yaml"]⟩ _ _ hfile
    htext).2.2 _ hread).1

end Settings
end Booru
