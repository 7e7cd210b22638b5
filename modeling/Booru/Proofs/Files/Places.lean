import Booru.Files
import Booru.Proofs.Run

/-! Where paths lead in a tree of files, what does not change it, and which failures
operations on files have. -/

namespace Booru

theorem Path.exists_size_child (d : Path) : ∃ n, d.text.utf8ByteSize ≤ n + 1 ∧
    ∀ name : String, (d.child name).text.utf8ByteSize = n + name.utf8ByteSize := by
  cases hparts : d.parts with
  | nil =>
    refine ⟨d.root.utf8ByteSize, ?_, fun name => by simp [Path.text, Path.child, hparts]⟩
    by_cases hroot : d.root = ""
    · simpa [Path.text, hparts, hroot] using (by decide : ".".utf8ByteSize ≤ 1)
    · simp [Path.text, hparts, hroot]
  | cons part parts =>
    have hjoin (name : String) : "/".intercalate (part :: parts ++ [name]) =
        "/".intercalate (part :: parts) ++ "/" ++ name := by
      rw [String.intercalate_append_of_ne_nil (List.cons_ne_nil _ _) (List.cons_ne_nil _ _)]
      simp
    refine ⟨d.root.utf8ByteSize + ("/".intercalate (part :: parts) ++ "/").utf8ByteSize,
      ?_, fun name => ?_⟩
    · simp only [Path.text, hparts, List.isEmpty_cons, Bool.and_false, Bool.false_eq_true, if_false,
        String.utf8ByteSize_append]
      omega
    · have htext : (d.child name).text = d.root ++
          ("/".intercalate (part :: parts) ++ "/" ++ name) := by
        rw [← hjoin]
        simp [Path.text, Path.child, hparts]
      simp only [htext, String.utf8ByteSize_append, Nat.add_assoc]

@[simp] theorem Path.name_child (d : Path) (name : String) : (d.child name).name = name := by
  simp [Path.name, child]

theorem Path.child_parent {p : Path} (h : p.name ≠ "") : p.parent.child p.name = p := by
  have hparts : p.parts ≠ [] := by
    intro hnil
    simp [Path.name, hnil] at h
  have hlast : p.name = p.parts.getLast hparts := by
    rw [Path.name, List.getLast?_eq_some_getLast hparts]
    rfl
  rw [child, parent, hlast]
  exact congrArg (Path.mk p.root) (List.dropLast_concat_getLast hparts)

@[simp] theorem Path.parent_child (d : Path) (name : String) : (d.child name).parent = d := by
  simp [parent, child]

namespace FileTree

variable {t : FileTree} {l l' base from' : Location} {e : Entry}
  {names : List String} {name : String}

theorem lookup_replaced (xs : List (Location × Entry)) (l l' : Location) (e : Entry)
    (hin : l' = l → xs.any (·.1 == l) = true) :
    (xs.map fun x => if x.1 == l then (l, e) else x).lookup l' =
      if l' = l then some e else xs.lookup l' := by
  induction xs with
  | nil => simp_all
  | cons x xs ih =>
    obtain ⟨k, v⟩ := x
    by_cases hk : k = l
    · by_cases hl : l' = l
      · simp [hk, hl]
      · have hrest := ih fun heq => absurd heq hl
        simpa [hk, hl, List.lookup_cons, beq_eq_false_iff_ne.mpr hl] using hrest
    · have hrest := ih fun heq => by simpa [hk] using hin heq
      by_cases hl : l' = k
      · simp [hk, hl]
      · simpa [hk, List.lookup_cons, beq_eq_false_iff_ne.mpr hl] using hrest

theorem lookup_put (t : FileTree) (l l' : Location) (e : Entry) :
    (t.put l e).entries.lookup l' = if l' = l then some e else t.entries.lookup l' := by
  unfold put
  split
  · rename_i hin
    exact lookup_replaced t.entries l l' e fun _ => hin
  · rename_i hnew
    have hnone : t.entries.lookup l = none := by
      refine List.lookup_eq_none_iff.mpr fun x hx => ?_
      have hne : x.1 ≠ l := fun heq => hnew (List.any_eq_true.mpr ⟨x, hx, by simp [heq]⟩)
      simpa using hne.symm
    rw [List.lookup_append]
    by_cases hl : l' = l
    · simp [hl, hnone]
    · simp [hl, List.lookup_cons, beq_eq_false_iff_ne.mpr hl]

theorem entry?_put_self (h : l ≠ []) : entry? (t.put l e) l = some e := by
  rw [ entry?, if_neg (by simpa using h), lookup_put, if_pos rfl]

theorem entry?_put_of_ne (h : l' ≠ l) : entry? (t.put l e) l' = t.entry? l' := by
  simp only [ entry?, lookup_put, if_neg h]

theorem workingDirectory_put (t : FileTree) (l : Location) (e : Entry) :
    (t.put l e).workingDirectory = t.workingDirectory := by
  unfold put
  split <;> rfl

theorem walk_mono {u : FileTree}
    (h : ∀ l, t.entry? l = some .directory → u.entry? l = some .directory)
    (hwalk : t.walk from' names = .ok l) : u.walk from' names = .ok l := by
  induction names generalizing from' with
  | nil => exact hwalk
  | cons name rest ih =>
    rw [walk] at hwalk ⊢
    cases hentry : t.entry? from' with
    | none => simp [hentry] at hwalk
    | some entry =>
      cases entry with
      | file content => simp [hentry] at hwalk
      | directory =>
        rw [h from' hentry]
        simp only [hentry] at hwalk ⊢
        split at hwalk
        · rename_i hup
          rw [if_pos hup]
          exact ih hwalk
        · rename_i hup
          rw [if_neg hup]
          split at hwalk
          · cases hwalk
          · rename_i hshort
            rw [if_neg hshort]
            exact ih hwalk

theorem locate?_mono {u : FileTree} {p : Path}
    (hdirectory : u.workingDirectory = t.workingDirectory)
    (h : ∀ l, t.entry? l = some .directory → u.entry? l = some .directory)
    (hp : t.locate? p = .ok l) :
    u.locate? p = .ok l := by
  unfold locate? at hp ⊢
  split at hp
  · cases hp
  · rename_i hshort
    rw [if_neg hshort, hdirectory]
    exact walk_mono h hp

theorem locate?_put {p : Path} (hl : t.entry? l ≠ some .directory) (hp : t.locate? p = .ok l') :
    (t.put l e).locate? p = .ok l' := by
  refine locate?_mono (workingDirectory_put t l e) (fun k hk => ?_) hp
  have hne : k ≠ l := fun heq => hl (heq ▸ hk)
  rw [entry?_put_of_ne hne, hk]

theorem walk_append (t : FileTree) (from' : Location) (names more : List String) :
    t.walk from' (names ++ more) = t.walk from' names >>= fun l => t.walk l more := by
  induction names generalizing from' with
  | nil => rfl
  | cons name rest ih =>
    simp only [List.cons_append, walk]
    cases t.entry? from' with
    | none => rfl
    | some entry =>
      cases entry with
      | file content => rfl
      | directory =>
        dsimp only
        split
        · exact ih _
        · split
          · rfl
          · exact ih _

theorem walk_concat (hup : name ≠ "..") : t.walk from' (names ++ [name]) = .ok l ↔
    ∃ base, t.walk from' names = .ok base ∧ t.entry? base = some .directory ∧
      name.utf8ByteSize ≤ maxNameBytes ∧ l = base ++ [name] := by
  rw [walk_append]
  cases t.walk from' names with
  | error problem => simp [bind, Except.bind]
  | ok base =>
    simp only [bind, Except.bind, walk, Except.ok.injEq, exists_eq_left']
    cases hentry : t.entry? base with
    | none => simp
    | some entry =>
      cases entry with
      | file content => simp
      | directory =>
        by_cases hlong : maxNameBytes < name.utf8ByteSize
        · simp [hup, hlong, Nat.not_le.mpr hlong]
        · have hle := Nat.le_of_not_lt hlong
          simp [hup, hle, hlong, eq_comm (a := l)]

theorem walk_concat_up (h : t.walk from' (names ++ [".."]) = .ok l) :
    ∃ base, t.walk from' names = .ok base ∧ l = base.dropLast := by
  rw [walk_append] at h
  cases hbase : t.walk from' names with
  | error problem => simp [hbase, bind, Except.bind] at h
  | ok base =>
    simp only [hbase, bind, Except.bind, walk] at h
    split at h
    · cases h
    · cases h
    · cases h
      exact ⟨base, rfl, rfl⟩

theorem locate?_of_longer {d : Path} {suffix : String} (hup : name ≠ "..")
    (hup' : name ++ suffix ≠ "..") (h : t.locate? (d.child (name ++ suffix)) = .ok l) :
    ∃ base, t.locate? (d.child name) = .ok (base ++ [name]) ∧ l = base ++ [name ++ suffix] := by
  obtain ⟨n, -, hsize⟩ := d.exists_size_child
  unfold locate? at h ⊢
  split at h
  · cases h
  · rename_i hshort
    obtain ⟨base, hbase, hdirectory, hname, rfl⟩ := (walk_concat hup').mp h
    rw [hsize, String.utf8ByteSize_append] at hshort
    rw [String.utf8ByteSize_append] at hname
    refine ⟨base, ?_, rfl⟩
    rw [if_neg (by rw [hsize]; omega)]
    exact (walk_concat hup).mpr ⟨base, hbase, hdirectory, by omega, rfl⟩

theorem locate?_ne_of_longer {d : Path} {suffix : String} (hsuffix : suffix ≠ "")
    (hup' : name ++ suffix ≠ "..") (h : t.locate? (d.child name) = .ok l)
    (h' : t.locate? (d.child (name ++ suffix)) = .ok l') :
    l ≠ l' := by
  by_cases hup : name = ".."
  · subst hup
    unfold locate? at h h'
    split at h
    · cases h
    · split at h'
      · cases h'
      · obtain ⟨base, hbase, rfl⟩ := walk_concat_up h
        obtain ⟨base', hbase', -, -, rfl⟩ := (walk_concat hup').mp h'
        cases hbase.symm.trans hbase'
        intro heq
        have hlength := congrArg List.length heq
        simp only [List.length_dropLast, List.length_append, List.length_singleton] at hlength
        omega
  · obtain ⟨base, hplace, rfl⟩ := locate?_of_longer hup hup' h'
    cases h.symm.trans hplace
    intro heq
    have hname : name = name ++ suffix := by simpa using heq
    have hlength := congrArg String.length hname
    rw [String.length_append] at hlength
    exact hsuffix (by simpa using hlength)

/-! ### Failures -/

theorem isSystem_refused (p : Path) (problem : FileProblem) :
    (refused p problem).kind.isSystem = true := by
  cases problem <;> rfl

theorem locate_of_plain {p : Path} (hnull : hasNull p = false) :
    t.locate p = (t.locate? p).mapError (refused p) := by
  rw [locate, hnull]
  rfl

theorem locate_eq_ok {p : Path} : t.locate p = .ok l ↔ hasNull p = false ∧ t.locate? p = .ok l := by
  rw [locate]
  cases hasNull p with
  | true => simp
  | false => cases t.locate? p <;> simp

theorem hasNull_child {d : Path} (hd : hasNull d = false) (h : '\x00' ∉ name.toList) :
    hasNull (d.child name) = false := by
  rw [hasNull] at hd ⊢
  rw [Path.child, List.any_append, hd]
  simp [h]

theorem hasNull_of_longer {d : Path} {suffix : String}
    (h : hasNull (d.child (name ++ suffix)) = false) :
    hasNull (d.child name) = false := by
  simp only [hasNull, Path.child, List.any_append, List.any_cons, String.toList_append,
    List.contains_append, Bool.or_eq_false_iff] at h ⊢
  exact ⟨h.1, h.2.1.1, rfl⟩

theorem hasNull_of_makeDirectories {p : Path} {t' : FileTree}
    (h : makeDirectories p t = (.ok (), t')) :
    hasNull p = false := by
  cases hnull : hasNull p with
  | false => rfl
  | true =>
    have hmake : change (·.makeDirectory p) t = (.error (.argument .nullByte), t) := by
      simp [change, makeDirectory, locate, hnull, bind, Except.bind]
    have hnone : t.isDirectory p = .ok false := by simp [isDirectory, find?, hnull, Except.map]
    have hget : (get : Run FileTree FileTree) t = (.ok t, t) := rfl
    have hthrow : unlessDirectory p (.argument .nullByte) t =
        (.error (.argument .nullByte), t) := by
      simp only [unlessDirectory, Run.bind_apply, hget, Run.lift, hnone]
      rfl
    rw [makeDirectories, Run.tryCatch_apply, hmake] at h
    simp only [Failure.kind, reduceCtorEq, false_and, dite_false, hthrow] at h
    cases h

theorem openFile_error {p : Path} {keep : Bool} {f : Failure} (hnull : hasNull p = false)
    (h : t.openFile p keep = .error f) : f.kind.isSystem = true := by
  rw [openFile, locate_of_plain hnull] at h
  cases hplace : t.locate? p with
  | error problem =>
    rw [hplace] at h
    cases h
    exact isSystem_refused p problem
  | ok l =>
    simp only [hplace, Run.mapError_ok, bind, Except.bind] at h
    split at h
    · cases h
      exact isSystem_refused p .isADirectory
    · cases h
    · cases h

theorem replace_of_longer {d : Path} {suffix : String} {f : Failure} (hup : name ≠ "..")
    (hup' : name ++ suffix ≠ "..") (hnull : hasNull (d.child name) = false)
    (hplace : t.locate? (d.child (name ++ suffix)) = .ok l) (hentry : t.entry? l = some e) :
    t.replace (d.child (name ++ suffix)) (d.child name) = .error f ↔
      t.find? (d.child name) = .ok (some .directory) ∧
        f = .file ⟨.isADirectory, (d.child (name ++ suffix)).text, some (d.child name).text⟩ := by
  obtain ⟨base, htarget, rfl⟩ := locate?_of_longer hup hup' hplace
  have hfind : t.find? (d.child name) = .ok (t.entry? (base ++ [name])) := by
    simp only [find?, hnull, htarget, Bool.false_eq_true, if_false]
  have hlevel : (name == "..") = false := beq_eq_false_iff_ne.mpr hup
  simp only [hfind, replace, hplace, htarget, Path.name_child, hlevel, hentry,
    Run.mapError_ok, bind, Except.bind, Bool.false_eq_true, if_false]
  cases htaken : t.entry? (base ++ [name]) with
  | none => simp [pure, Except.pure]
  | some taken =>
    cases taken with
    | directory => simp [throw, throwThe, MonadExceptOf.throw, eq_comm (a := f)]
    | file content => simp [pure, Except.pure]

inductive OfFiles : Failure → Prop
  | refused (e : FileError) : OfFiles (.file e)
  | nullByte : OfFiles (.argument .nullByte)

theorem OfFiles.ne_api {f : Failure} (h : OfFiles f) : f.kind ≠ .api := by
  cases h with
  | refused e => cases hp : e.problem <;> simp [Failure.kind, FileProblem.kind, hp]
  | nullByte => exact FailureKind.noConfusion

theorem locate_error {p : Path} {f : Failure} (h : t.locate p = .error f) : OfFiles f := by
  unfold locate at h
  split at h
  · cases h
    exact .nullByte
  · cases hplace : t.locate? p with
    | ok l => simp [hplace] at h
    | error problem =>
      rw [hplace] at h
      cases h
      exact .refused _

theorem find?_error {p : Path} {f : Failure} (h : t.find? p = .error f) : OfFiles f := by
  unfold find? at h
  split at h
  · cases h
  · split at h
    · cases h
    · cases h
      exact .refused _
    · cases h

theorem exists?_error {p : Path} {f : Failure} (h : t.exists? p = .error f) : OfFiles f := by
  cases hfind : t.find? p with
  | ok entry => simp [exists?, hfind, Except.map] at h
  | error g =>
    simp only [exists?, hfind, Except.map, Except.error.injEq] at h
    exact h ▸ find?_error hfind

theorem makeDirectory_error {p : Path} {f : Failure} (h : t.makeDirectory p = .error f) :
    OfFiles f := by
  cases hplace : t.locate p with
  | error g =>
    simp only [makeDirectory, hplace, bind, Except.bind, Except.error.injEq] at h
    exact h ▸ locate_error hplace
  | ok l =>
    simp only [makeDirectory, hplace, bind, Except.bind] at h
    split at h
    · cases h
      exact .refused _
    · cases h

theorem openFile_refused {p : Path} {keep : Bool} {f : Failure} (h : t.openFile p keep = .error f) :
    OfFiles f := by
  cases hplace : t.locate p with
  | error g =>
    simp only [openFile, hplace, bind, Except.bind, Except.error.injEq] at h
    exact h ▸ locate_error hplace
  | ok l =>
    simp only [openFile, hplace, bind, Except.bind] at h
    split at h
    · cases h
      exact .refused _
    · cases h
    · cases h

theorem replace_refused {p q : Path} {f : Failure} (h : t.replace p q = .error f) : OfFiles f := by
  cases hplace : t.locate? p with
  | error problem =>
    simp only [replace, hplace, Run.mapError_error, bind, Except.bind, Except.error.injEq] at h
    exact h ▸ .refused _
  | ok l =>
    cases htarget : t.locate? q with
    | error problem =>
      simp only [replace, hplace, htarget, Run.mapError_ok, Run.mapError_error, bind, Except.bind,
        Except.error.injEq] at h
      exact h ▸ .refused _
    | ok l' =>
      simp only [replace, hplace, htarget, Run.mapError_ok, bind, Except.bind] at h
      split at h
      · cases h
        exact .refused _
      · split at h
        · cases h
          exact .refused _
        · cases h
          exact .refused _
        · cases h

theorem remove_of_unlocated {p : Path} {g : Failure} (h : t.locate p = .error g) :
    t.remove p = if g.kind = .fileNotFound then .ok t else .error g := by
  rw [remove, h]
  change (if g.kind = .fileNotFound then pure none else throw g) >>= _ = _
  split <;> rfl

theorem remove_of_located {p : Path} (h : t.locate p = .ok l) : t.remove p = match t.entry? l with
    | some .directory => .error (refused p .isADirectory)
    | _ => .ok (t.erase l) := by
  rw [remove, h]
  rfl

theorem remove_error {p : Path} {f : Failure} (h : t.remove p = .error f) : OfFiles f := by
  cases hplace : t.locate p with
  | error g =>
    rw [remove_of_unlocated hplace] at h
    split at h
    · cases h
    · cases h
      exact locate_error hplace
  | ok l =>
    rw [remove_of_located hplace] at h
    split at h
    · cases h
      exact .refused _
    · cases h

open Run in
theorem ensures_makeDirectories (p : Path) :
    Ensures (fun _ => True) (makeDirectories p) (fun _ _ => True) fun f _ => OfFiles f := by
  have hmake (q : Path) : Ensures (fun _ => True) (change (·.makeDirectory q)) (fun _ _ => True)
      fun f _ => OfFiles f := by
    intro t _
    simp only [change]
    cases hmade : t.makeDirectory q with
    | ok u => trivial
    | error f => exact makeDirectory_error hmade
  have hunless (q : Path) (f : Failure) : Ensures (fun _ => OfFiles f) (unlessDirectory q f)
      (fun _ _ => True) fun f _ => OfFiles f := by
    intro t hf
    have hget : (get : Run FileTree FileTree) t = (.ok t, t) := rfl
    cases hlook : t.isDirectory q with
    | error g =>
      simp only [unlessDirectory, bind_apply, hget, Run.lift, hlook]
      cases hfind : t.find? q with
      | ok entry => simp [isDirectory, hfind, Except.map] at hlook
      | error g' =>
        simp only [isDirectory, hfind, Except.map, Except.error.injEq] at hlook
        exact hlook ▸ find?_error hfind
    | ok b =>
      simp only [unlessDirectory, bind_apply, hget, Run.lift, hlook]
      cases f.kind.isSystem && b with
      | true => trivial
      | false => exact hf
  induction p using makeDirectories.induct with
  | case1 p ih =>
    rw [makeDirectories]
    refine (hmake p).tryCatch fun f => ?_
    split
    · rename_i hmissing
      refine .bind ((ih f hmissing).weaken (fun _ _ => trivial) fun _ _ _ => trivial) fun _ => ?_
      exact (hmake p).tryCatch (hunless p)
    · exact hunless p f

end FileTree
end Booru
