import Booru.Proofs.Files.Changes

/-! Where a path leads is settled by its names as long as it leads anywhere, and it goes on to lead
there as long as all directories stand. -/

namespace Booru.FileTree

variable {t u v : FileTree} {d p q : Path} {ps qs : List Path} {l l' base : Location}
  {names : List String}
  {name : String}

def lead (base : Location) (names : List String) : Location :=
  names.foldl (fun l name => if name == ".." then l.dropLast else l ++ [name]) base

def place (t : FileTree) (p : Path) : Location :=
  lead (if p.root.isEmpty then t.workingDirectory else []) p.parts

theorem lead_of_walk (h : t.walk base names = .ok l) : lead base names = l := by
  induction names generalizing base with
  | nil =>
    cases h
    rfl
  | cons name rest ih =>
    rw [walk] at h
    rw [lead, List.foldl_cons, ← lead]
    split at h
    · cases h
    · cases h
    · split at h
      · rename_i hup
        rw [if_pos hup]
        exact ih h
      · rename_i hup
        rw [if_neg hup]
        split at h
        · cases h
        · exact ih h

theorem place_of_locate? (h : t.locate? p = .ok l) : t.place p = l := by
  unfold locate? at h
  split at h
  · cases h
  · exact lead_of_walk h

theorem place_congr (h : u.workingDirectory = t.workingDirectory) (p : Path) :
    u.place p = t.place p := by
  rw [place, place, h]

theorem locate?_child_ne {other : String} (hup : name ≠ "..") (hup' : other ≠ "..")
    (hne : name ≠ other) (h : t.locate? (d.child name) = .ok l)
    (h' : t.locate? (d.child other) = .ok l') : l ≠ l' := by
  unfold locate? at h h'
  split at h
  · cases h
  · split at h'
    · cases h'
    · obtain ⟨base, -, -, -, rfl⟩ := (walk_concat hup).mp h
      obtain ⟨base', -, -, -, rfl⟩ := (walk_concat hup').mp h'
      simp [hne]

/-- All directories still stand. -/
structure Widened (t u : FileTree) : Prop where
  workingDirectory : u.workingDirectory = t.workingDirectory
  directory : ∀ l, t.entry? l = some .directory → u.entry? l = some .directory

theorem Touched.widened (h : Touched p t u) : Widened t u :=
  ⟨h.workingDirectory, fun l => (h.directory_iff l).mp⟩

theorem Grown.widened (h : Grown p t u) : Widened t u :=
  ⟨h.workingDirectory, fun _ => h.entry_of_some⟩

namespace Widened

theorem refl (t : FileTree) : Widened t t := ⟨rfl, fun _ => id⟩

theorem trans (h : Widened t u) (h' : Widened u v) : Widened t v :=
  ⟨h'.workingDirectory.trans h.workingDirectory, fun l hl => h'.directory l (h.directory l hl)⟩

theorem locate? (h : Widened t u) (hp : t.locate? p = .ok l) : u.locate? p = .ok l :=
  locate?_mono h.workingDirectory h.directory hp

theorem place_eq (h : Widened t u) (p : Path) : u.place p = t.place p :=
  place_congr h.workingDirectory p

theorem put {content : ByteArray} (h : Widened t u) (hl : u.entry? l ≠ some .directory) :
    Widened t (u.put l (.file content)) := by
  refine ⟨(workingDirectory_put _ _ _).trans h.workingDirectory, fun k hk => ?_⟩
  have hne : k ≠ l := fun heq => hl (heq ▸ h.directory k hk)
  rw [entry?_put_of_ne hne]
  exact h.directory k hk

end Widened

/-! ### All but a few files -/

theorem Spared.mono (h : Spared d ps t u) (hsub : ps ⊆ qs) : Spared d qs t u :=
  ⟨h.workingDirectory, fun l => (h.only l).imp_right fun h => h.imp_right
    fun ⟨p, hp, hl⟩ => ⟨p, hsub hp, hl⟩⟩

theorem Spared.grown (h : Spared d ps t u) (h' : Grown d u v) : Spared d ps t v := by
  refine ⟨h'.workingDirectory.trans h.workingDirectory, fun l => ?_⟩
  obtain hsame' | ⟨hfree, hmade, hplace⟩ := h'.only l
  · obtain hsame | ⟨hfree, hmade, k, hplace⟩ | ⟨p, hp, hplace⟩ := h.only l
    · exact .inl (hsame'.trans hsame)
    · exact .inr (.inl ⟨hfree, hsame' ▸ hmade, k, h'.locate? hplace⟩)
    · exact .inr (.inr ⟨p, hp, h'.locate? hplace⟩)
  · obtain hsame | ⟨-, hmade', -⟩ | ⟨p, hp, hplace'⟩ := h.only l
    · exact .inr (.inl ⟨hsame ▸ hfree, hmade, hplace⟩)
    · cases hfree.symm.trans hmade'
    · exact .inr (.inr ⟨p, hp, h'.locate? hplace'⟩)

theorem Spared.entry_child (h : Spared d ps t u) (hl : u.locate? (d.child name) = .ok l)
    (hapart : ∀ q ∈ ps, u.locate? q ≠ .ok l) :
    u.entry? l = t.entry? l ∨ ".." ∈ (d.child name).parts ∧ MadeFor d t u l := by
  obtain hsame | hmade | ⟨q, hq, hplace⟩ := h.only l
  · exact .inl hsame
  · refine .inr ⟨?_, hmade⟩
    by_contra hdown
    exact not_madeFor_parent hdown (by simp [Path.child]) hl
      ((Path.parent_child d name).symm ▸ hmade)
  · exact absurd hplace (hapart q hq)

theorem Spared.find?_child_iff (h : Spared d ps t u) (hdown : ".." ∉ (d.child name).parts)
    (hrooted : t.Rooted)
    (hapart : ∀ l, u.locate? (d.child name) = .ok l → ∀ q ∈ ps, u.locate? q ≠ .ok l)
    (hkept : ∀ l, t.locate? (d.child name) = .ok l → u.locate? (d.child name) = .ok l)
    (entry : Entry) :
    u.find? (d.child name) = .ok (some entry) ↔ t.find? (d.child name) = .ok (some entry) := by
  have hsame {l : Location} (hl : u.locate? (d.child name) = .ok l) : u.entry? l = t.entry? l :=
    (h.entry_child hl (hapart l hl)).resolve_right fun h => hdown h.1
  rw [find?_eq_some, find?_eq_some]
  refine and_congr_right fun _ => ⟨?_, ?_⟩
  · rintro ⟨l, hl, hentry⟩
    rw [hsame hl] at hentry
    exact ⟨l, hrooted.locate? hdown h.workingDirectory hl hentry, hentry⟩
  · rintro ⟨l, hl, hentry⟩
    exact ⟨l, hkept l hl, (hsame (hkept l hl)).trans hentry⟩

end Booru.FileTree
