import Booru.Proofs.Files.Places

/-! What operations on files leave as it was. An operation under a path changes the file there and
nothing else; making a directory only adds directories, and only on the way to it. -/

namespace Booru.FileTree

variable {t u v : FileTree} {p q : Path} {l l' : Location} {content : ByteArray}

theorem entry?_erase_self (h : l ≠ []) : entry? (t.erase l) l = none := by
  rw [ entry?, if_neg (by simpa using h)]
  refine List.lookup_eq_none_iff.mpr fun x hx => ?_
  have hne : x.1 ≠ l := by simpa using (List.mem_filter.mp hx).2
  simpa using hne.symm

theorem entry?_erase_of_ne (h : l' ≠ l) : entry? (t.erase l) l' = t.entry? l' := by
  have hlookup (xs : List (Location × Entry)) :
      (xs.filter (·.1 != l)).lookup l' = xs.lookup l' := by
    induction xs with
    | nil => rfl
    | cons x xs ih =>
      obtain ⟨k, entry⟩ := x
      by_cases hk : k = l
      · simp [hk, List.lookup_cons, ih, beq_eq_false_iff_ne.mpr h]
      · simp [hk, List.lookup_cons, ih]
  simp only [ entry?, erase, hlookup]

theorem ne_nil_of_not_directory (h : t.entry? l ≠ some .directory) : l ≠ [] := by
  rintro rfl
  exact h rfl

/-! ### Files -/

/-- From `t` to `u` nothing has changed but the file under a path, if anything. -/
structure Touched (p : Path) (t u : FileTree) : Prop where
  workingDirectory : u.workingDirectory = t.workingDirectory
  only : ∀ l, u.entry? l = t.entry? l ∨
    t.locate? p = .ok l ∧ t.entry? l ≠ some .directory ∧ u.entry? l ≠ some .directory

namespace Touched

theorem refl (p : Path) (t : FileTree) : Touched p t t := ⟨rfl, fun _ => .inl rfl⟩

theorem directory_iff (h : Touched p t u) (l : Location) :
    t.entry? l = some .directory ↔ u.entry? l = some .directory := by
  obtain hsame | ⟨-, ht, hu⟩ := h.only l
  · rw [hsame]
  · exact iff_of_false ht hu

theorem locate?_iff (h : Touched p t u) : t.locate? q = .ok l ↔ u.locate? q = .ok l :=
  ⟨locate?_mono h.workingDirectory fun l => (h.directory_iff l).mp,
    locate?_mono h.workingDirectory.symm fun l => (h.directory_iff l).mpr⟩

theorem trans (h : Touched p t u) (h' : Touched p u v) : Touched p t v := by
  refine ⟨h'.workingDirectory.trans h.workingDirectory, fun l => ?_⟩
  obtain hsame | ⟨hplace, ht, hu⟩ := h.only l
  · obtain hsame' | ⟨hplace', hu, hv⟩ := h'.only l
    · exact .inl (hsame'.trans hsame)
    · exact .inr ⟨h.locate?_iff.mpr hplace', hsame ▸ hu, hv⟩
  · exact .inr ⟨hplace, ht, fun hv => hu ((h'.directory_iff l).mpr hv)⟩

end Touched

theorem touched_put (hplace : t.locate? p = .ok l) (hentry : t.entry? l ≠ some .directory) :
    Touched p t (t.put l (.file content)) := by
  refine ⟨workingDirectory_put _ _ _, fun k => ?_⟩
  by_cases hk : k = l
  · subst hk
    refine .inr ⟨hplace, hentry, ?_⟩
    rw [entry?_put_self (ne_nil_of_not_directory hentry)]
    simp
  · exact .inl (entry?_put_of_ne hk)

theorem touched_erase (hplace : t.locate? p = .ok l) (hentry : t.entry? l ≠ some .directory) :
    Touched p t (t.erase l) := by
  refine ⟨rfl, fun k => ?_⟩
  by_cases hk : k = l
  · subst hk
    refine .inr ⟨hplace, hentry, ?_⟩
    rw [entry?_erase_self (ne_nil_of_not_directory hentry)]
    simp
  · exact .inl (entry?_erase_of_ne hk)

theorem openFile_ok {keep : Bool} (h : t.openFile p keep = .ok (u, l)) :
    Touched p t u ∧ hasNull p = false ∧ u.locate? p = .ok l ∧
      ∃ content, u.entry? l = some (.file content) ∧ (keep = false → content = .empty) := by
  cases hlocate : t.locate p with
  | error f => simp [openFile, hlocate, bind, Except.bind] at h
  | ok l' =>
    obtain ⟨hnull, hplace⟩ := locate_eq_ok.mp hlocate
    have hput (content : ByteArray) (hentry : t.entry? l' ≠ some .directory)
        (hempty : keep = false → content = .empty) :
        Touched p t (t.put l' (.file content)) ∧ hasNull p = false ∧
          (t.put l' (.file content)).locate? p = .ok l' ∧
          ∃ content', entry? (t.put l' (.file content)) l' = some (.file content') ∧
            (keep = false → content' = .empty) :=
      ⟨touched_put hplace hentry, hnull, locate?_put hentry hplace, content,
        entry?_put_self (ne_nil_of_not_directory hentry), hempty⟩
    simp only [openFile, hlocate, bind, Except.bind] at h
    split at h
    · cases h
    · rename_i hentry
      cases h
      exact hput _ (by simp [hentry]) fun hkeep => by rw [hkeep]; rfl
    · rename_i hentry
      cases h
      exact hput .empty (by simp [hentry]) fun _ => rfl

theorem openFile_anew (h : t.openFile p false = .ok (u, l)) :
    Touched p t u ∧ hasNull p = false ∧ u.locate? p = .ok l ∧ u.entry? l = some (.file .empty) := by
  obtain ⟨htouched, hnull, hplace, content, hentry, hempty⟩ := openFile_ok h
  exact ⟨htouched, hnull, hplace, hempty rfl ▸ hentry⟩

theorem remove_ok (h : t.remove p = .ok u) : Touched p t u ∧ u.find? p = .ok none := by
  cases hplace : t.locate p with
  | error g =>
    rw [remove_of_unlocated hplace] at h
    split at h
    · rename_i hmissing
      cases h
      refine ⟨.refl p t, ?_⟩
      rw [locate] at hplace
      split at hplace
      · rename_i hnull
        rw [find?, if_pos hnull]
      · rename_i hnull
        rw [find?, if_neg hnull]
        cases hwalk : t.locate? p with
        | ok l => simp [hwalk] at hplace
        | error problem =>
          rw [hwalk] at hplace
          cases hplace
          cases problem <;> first | rfl | cases hmissing
    · cases h
  | ok l =>
    obtain ⟨hnull, hwalk⟩ := locate_eq_ok.mp hplace
    rw [remove_of_located hplace] at h
    split at h
    · cases h
    · rename_i hentry
      cases h
      have hplain : t.entry? l ≠ some .directory := fun hd => by simp [hd] at hentry
      have htouched := touched_erase hwalk hplain
      refine ⟨htouched, ?_⟩
      simp only [find?, hnull, Bool.false_eq_true, if_false, htouched.locate?_iff.mp hwalk,
        entry?_erase_self (ne_nil_of_not_directory hplain)]

theorem replace_eq_ok {e : Entry} (hplace : t.locate? p = .ok l) (hentry : t.entry? l = some e)
    (h : t.replace p q = .ok u) :
    q.name ≠ ".." ∧ ∃ l', t.locate? q = .ok l' ∧ t.entry? l' ≠ some .directory ∧
    u = (t.erase l).put l' e := by
  cases htarget : t.locate? q with
  | error problem => simp [replace, hplace, htarget, bind, Except.bind] at h
  | ok l' =>
    simp only [replace, hplace, htarget, Run.mapError_ok, bind, Except.bind, hentry] at h
    split at h
    · cases h
    · rename_i hup
      refine ⟨by simpa using hup, l', rfl, ?_⟩
      cases htaken : t.entry? l' with
      | none =>
        rw [htaken] at h
        cases h
        exact ⟨by simp, rfl⟩
      | some taken =>
        rw [htaken] at h
        cases taken with
        | directory => cases h
        | file _ =>
          cases h
          exact ⟨by simp, rfl⟩

theorem moved (hnull : hasNull p = false) (hnull' : hasNull q = false)
    (hplace : t.locate? p = .ok l) (hplace' : t.locate? q = .ok l')
    (hentry : t.entry? l = some (.file content)) (hentry' : t.entry? l' ≠ some .directory)
    (hne : l' ≠ l) :
    ∃ v, Touched p t v ∧ Touched q v ((t.erase l).put l' (.file content)) ∧
      find? ((t.erase l).put l' (.file content)) q = .ok (some (.file content)) ∧
      find? ((t.erase l).put l' (.file content)) p = .ok none := by
  have hplain : t.entry? l ≠ some .directory := by simp [hentry]
  have herased := touched_erase hplace hplain
  have hput : Touched q (t.erase l) ((t.erase l).put l' (.file content)) :=
    touched_put (herased.locate?_iff.mp hplace') fun hd =>
      hentry' ((herased.directory_iff l').mpr hd)
  have hboth {x : Path} {k : Location} (hx : hasNull x = false) (hk : t.locate? x = .ok k) :
      find? ((t.erase l).put l' (.file content)) x =
        .ok ( entry? ((t.erase l).put l' (.file content)) k) := by
    simp only [find?, hx, Bool.false_eq_true, if_false,
      hput.locate?_iff.mp (herased.locate?_iff.mp hk)]
  refine ⟨t.erase l, herased, hput, ?_, ?_⟩
  · rw [hboth hnull' hplace', entry?_put_self (ne_nil_of_not_directory hentry')]
  · rw [hboth hnull hplace, entry?_put_of_ne hne.symm,
      entry?_erase_self (ne_nil_of_not_directory hplain)]

/-! ### Directories -/

def upTo (p : Path) (k : Nat) : Path := { p with parts := p.parts.take k }

/-- There is a directory now at a place that was free, on the way down to `p`. -/
def MadeFor (p : Path) (t u : FileTree) (l : Location) : Prop :=
  t.entry? l = none ∧ u.entry? l = some .directory ∧ ∃ k, u.locate? (upTo p k) = .ok l

/-- From `t` to `u` nothing has changed but that directories were made on the way down to `p`. -/
structure Grown (p : Path) (t u : FileTree) : Prop where
  workingDirectory : u.workingDirectory = t.workingDirectory
  only : ∀ l, u.entry? l = t.entry? l ∨ MadeFor p t u l

namespace Grown

theorem refl (p : Path) (t : FileTree) : Grown p t t := ⟨rfl, fun _ => .inl rfl⟩

theorem entry_of_some (h : Grown p t u) {e : Entry} (he : t.entry? l = some e) :
    u.entry? l = some e := by
  obtain hsame | ⟨hfree, -, -⟩ := h.only l
  · rw [hsame, he]
  · cases hfree.symm.trans he

theorem locate? (h : Grown p t u) (hq : t.locate? q = .ok l) : u.locate? q = .ok l :=
  locate?_mono h.workingDirectory (fun _ => h.entry_of_some) hq

theorem trans (h : Grown p t u) (h' : Grown p u v) : Grown p t v := by
  refine ⟨h'.workingDirectory.trans h.workingDirectory, fun l => ?_⟩
  obtain hsame | ⟨hfree, hmade, k, hplace⟩ := h.only l
  · obtain hsame' | ⟨hfree, hmade, hplace⟩ := h'.only l
    · exact .inl (hsame'.trans hsame)
    · exact .inr ⟨hsame ▸ hfree, hmade, hplace⟩
  · exact .inr ⟨hfree, h'.entry_of_some hmade, k, h'.locate? hplace⟩

theorem of_parent (h : Grown p.parent t u) : Grown p t u := by
  refine ⟨h.workingDirectory, fun l => (h.only l).imp_right ?_⟩
  rintro ⟨hfree, hmade, k, hplace⟩
  refine ⟨hfree, hmade, min k (p.parts.length - 1), ?_⟩
  rwa [upTo, Path.parent, List.dropLast_eq_take, List.take_take] at hplace

end Grown

theorem grown_makeDirectory (h : t.makeDirectory p = .ok u) : Grown p t u := by
  cases hlocate : t.locate p with
  | error f => simp [makeDirectory, hlocate, bind, Except.bind] at h
  | ok l =>
    obtain ⟨-, hplace⟩ := locate_eq_ok.mp hlocate
    simp only [makeDirectory, hlocate, bind, Except.bind] at h
    split at h
    · cases h
    · rename_i hfree
      cases h
      have hplain : t.entry? l ≠ some .directory := by simp [hfree]
      refine ⟨workingDirectory_put _ _ _, fun k => ?_⟩
      by_cases hk : k = l
      · subst hk
        refine .inr ⟨hfree, entry?_put_self (ne_nil_of_not_directory hplain), p.parts.length, ?_⟩
        rw [upTo, List.take_length]
        exact locate?_put hplain hplace
      · exact .inl (entry?_put_of_ne hk)

open Run in
theorem ensures_grown (t : FileTree) (p : Path) :
    Ensures (· = t) (makeDirectories p) (fun _ => Grown p t) fun _ => Grown p t := by
  have hmake (t : FileTree) (q : Path) : Ensures (Grown q t) (change (·.makeDirectory q))
      (fun _ => Grown q t)
      fun _ => Grown q t := by
    intro s hs
    simp only [change]
    cases hmade : s.makeDirectory q with
    | ok u => exact hs.trans (grown_makeDirectory hmade)
    | error f => exact hs
  have hunless (t : FileTree) (q : Path) (f : Failure) : Ensures (Grown q t) (unlessDirectory q f)
      (fun _ => Grown q t) fun _ => Grown q t := by
    intro s hs
    have hget : (get : Run FileTree FileTree) s = (.ok s, s) := rfl
    simp only [unlessDirectory, bind_apply, hget, Run.lift]
    cases s.isDirectory q with
    | error g => exact hs
    | ok b =>
      dsimp only
      cases f.kind.isSystem && b with
      | true => exact hs
      | false => exact hs
  induction p using makeDirectories.induct generalizing t with
  | case1 p ih =>
    rw [makeDirectories]
    refine ((hmake t p).weaken (fun s hs => hs ▸ .refl p t) fun _ _ hs => hs).tryCatch fun f => ?_
    split
    · rename_i hmissing
      have hparent : Ensures (Grown p t) (makeDirectories p.parent) (fun _ => Grown p t)
          fun _ => Grown p t := by
        intro s hs
        have hgrown := ih f hmissing s s rfl
        rcases hr : makeDirectories p.parent s with ⟨_ | _, u⟩ <;> rw [hr] at hgrown <;>
          exact hs.trans (.of_parent hgrown)
      exact hparent.bind fun _ => (hmake t p).tryCatch (hunless t p)
    · exact hunless t p f

/-- From `t` to `u` nothing has changed but what is under the paths `ps`, and that directories were
made on the way down to `d`. -/
structure Spared (d : Path) (ps : List Path) (t u : FileTree) : Prop where
  workingDirectory : u.workingDirectory = t.workingDirectory
  only : ∀ l, u.entry? l = t.entry? l ∨ MadeFor d t u l ∨ ∃ p ∈ ps, u.locate? p = .ok l

theorem Grown.spared (h : Grown p t u) : Spared p [] t u :=
  ⟨h.workingDirectory, fun l => (h.only l).imp_right .inl⟩

theorem Spared.touched {d : Path} {ps : List Path} (h : Spared d ps t u) (h' : Touched p u v) :
    Spared d (p :: ps) t v := by
  refine ⟨h'.workingDirectory.trans h.workingDirectory, fun l => ?_⟩
  obtain hsame' | ⟨hplace, -, -⟩ := h'.only l
  · obtain hsame | ⟨hfree, hmade, k, hplace⟩ | ⟨q, hq, hplace⟩ := h.only l
    · exact .inl (hsame'.trans hsame)
    · exact .inr (.inl ⟨hfree, hsame' ▸ hmade, k, h'.locate?_iff.mp hplace⟩)
    · exact .inr (.inr ⟨q, List.mem_cons_of_mem _ hq, h'.locate?_iff.mp hplace⟩)
  · exact .inr (.inr ⟨p, List.mem_cons_self, h'.locate?_iff.mp hplace⟩)

/-! ### Ways without a step up -/

theorem walk_of_down {names : List String} {base : Location} (hdown : ".." ∉ names)
    (h : t.walk base names = .ok l) : l = base ++ names := by
  induction names generalizing base with
  | nil =>
    cases h
    exact (List.append_nil _).symm
  | cons name rest ih =>
    obtain ⟨hname, hrest⟩ : name ≠ ".." ∧ ".." ∉ rest := by simpa [eq_comm] using hdown
    rw [walk] at h
    split at h
    · cases h
    · cases h
    · rw [if_neg (by simpa using hname)] at h
      split at h
      · cases h
      · rw [ih hrest h, List.append_assoc, List.singleton_append]

theorem locate?_of_down (hdown : ".." ∉ p.parts) (h : t.locate? p = .ok l) :
    l = (if p.root.isEmpty then t.workingDirectory else []) ++ p.parts := by
  rw [FileTree.locate?] at h
  split at h
  · cases h
  · exact walk_of_down hdown h

theorem not_madeFor_parent (hdown : ".." ∉ p.parts) (hname : p.parts ≠ [])
    (hplace : u.locate? p = .ok l) :
    ¬ MadeFor p.parent t u l := by
  rintro ⟨-, -, k, habove⟩
  have hsub : ".." ∉ (upTo p.parent k).parts :=
    fun h => hdown (List.dropLast_subset _ (List.take_subset _ _ h))
  have hsame := (locate?_of_down hsub habove).symm.trans (locate?_of_down hdown hplace)
  have hparts : (upTo p.parent k).parts = p.parts := List.append_cancel_left hsame
  have hlength := congrArg List.length hparts
  have hpos := List.length_pos_iff.mpr hname
  simp only [upTo, Path.parent, List.length_take, List.length_dropLast] at hlength
  omega

def Rooted (t : FileTree) : Prop :=
  ∀ l name e, t.entry? (l ++ [name]) = some e → t.entry? l = some .directory

theorem Rooted.directory (h : t.Rooted) {above below : Location} {e : Entry} (hbelow : below ≠ [])
    (he : t.entry? (above ++ below) = some e) : t.entry? above = some .directory := by
  induction below generalizing above with
  | nil => exact absurd rfl hbelow
  | cons name rest ih =>
    by_cases hrest : rest = []
    · exact h above name e (hrest ▸ he)
    · rw [← List.singleton_append, ← List.append_assoc] at he
      exact h above name .directory (ih hrest he)

theorem Rooted.walk (h : u.Rooted) {names : List String} {base : Location} {e : Entry}
    (hdown : ".." ∉ names) (hwalk : t.walk base names = .ok l) (he : u.entry? l = some e) :
    u.walk base names = .ok l := by
  obtain rfl := walk_of_down hdown hwalk
  induction names generalizing base with
  | nil =>
    rw [List.append_nil]
    rfl
  | cons name rest ih =>
    obtain ⟨hname, hrest⟩ : name ≠ ".." ∧ ".." ∉ rest := by simpa [eq_comm] using hdown
    have hup : (name == "..") = false := beq_eq_false_iff_ne.mpr hname
    rw [FileTree.walk] at hwalk ⊢
    rw [h.directory (List.cons_ne_nil name rest) he]
    split at hwalk
    · cases hwalk
    · cases hwalk
    · simp only [hup, Bool.false_eq_true, if_false] at hwalk ⊢
      split at hwalk
      · cases hwalk
      · rename_i hshort
        have hlast : base ++ name :: rest = base ++ [name] ++ rest :=
          List.append_cons base name rest
        rw [hlast] at he hwalk ⊢
        rw [if_neg hshort, ih hrest hwalk he]

theorem Rooted.locate? (h : u.Rooted) {e : Entry} (hdown : ".." ∉ p.parts)
    (hdirectory : t.workingDirectory = u.workingDirectory) (hplace : t.locate? p = .ok l)
    (he : u.entry? l = some e) : u.locate? p = .ok l := by
  unfold FileTree.locate? at hplace ⊢
  split at hplace
  · cases hplace
  · rename_i hshort
    rw [if_neg hshort, ← hdirectory]
    exact h.walk hdown hplace he

theorem find?_eq_some {e : Entry} : t.find? p = .ok (some e) ↔
    hasNull p = false ∧ ∃ l, t.locate? p = .ok l ∧ t.entry? l = some e := by
  unfold find?
  cases hasNull p with
  | true => simp
  | false =>
    cases t.locate? p with
    | ok l => simp
    | error problem => cases problem <;> simp

end Booru.FileTree
