import Booru.Proofs.Collection.Names
import Booru.Proofs.Files.Changes
import Booru.Proofs.Retry.Endings

/-! The bytes of a file on their way from the server to a file of their own. Whatever comes in their
way is a failure of a request or of the system, and when they are all there nothing but a directory
keeps the file from its place. -/

namespace Booru.Client

open Run

variable {c : Client} {url name : String} {d p target : Path} {handle : Nat} {w : World}

def Stored (p : Path) (w : World) : Prop :=
  ∃ l content, w.files.tree.locate? p = .ok l ∧ w.files.tree.entry? l = some (.file content)

def Writing (handle : Nat) (p : Path) (w : World) : Prop :=
  Served w ∧ ∃ h l content, w.files.handles[handle]? = some h ∧ h.isOpen = true ∧
    h.location = some l ∧ w.files.tree.locate? p = .ok l ∧ w.files.tree.entry? l =
      some (.file content)

theorem isSystem_of_isRequest {k : FailureKind} (h : k.isRequest = true) : k.isSystem = true := by
  cases k <;> first | rfl | cases h

theorem ensures_openFile (hnull : FileTree.hasNull p = false) :
    Ensures Served (World.onFiles (FileSystem.openFile p false))
      (fun handle w => Writing handle p w)
      fun f w => Served w ∧ f.kind.isSystem = true := by
  intro w hw
  simp only [World.onFiles, World.within, FileSystem.openFile]
  cases hopen : w.files.tree.openFile p false with
  | error f => exact ⟨hw, FileTree.openFile_error hnull hopen⟩
  | ok opened =>
    obtain ⟨-, -, hplace, hentry⟩ := FileTree.openFile_anew hopen
    exact ⟨hw, ⟨some opened.2, false, 0, true⟩, opened.2, .empty, by simp, rfl, rfl, hplace, hentry⟩

theorem ensures_write (bytes : ByteArray) :
    Ensures (Writing handle p) (World.onFiles (FileSystem.write handle bytes))
      (fun _ => Writing handle p)
      fun _ _ => False := by
  rintro w ⟨hw, h, l, content, hhandle, hopen, hlocation, hplace, hentry⟩
  simp only [World.onFiles, World.within, FileSystem.write, hhandle, hopen, hlocation]
  have hplain : w.files.tree.entry? l ≠ some .directory := by simp [hentry]
  have htop : l ≠ [] := by
    intro heq
    rw [heq] at hplain
    exact hplain rfl
  have hin : handle < w.files.handles.length := (List.getElem?_eq_some_iff.mp hhandle).1
  exact ⟨hw, _, l, _, List.getElem?_set_self hin, rfl, rfl, FileTree.locate?_put hplain hplace,
    FileTree.entry?_put_self htop⟩

theorem ensures_save {chunks : List Chunk} (hchunks : ∀ chunk ∈ chunks, chunk.Honest)
    (written : Nat) :
    Ensures (Writing handle p) (save handle chunks written) (fun _ => Writing handle p)
      fun f w => Writing handle p w ∧ f.kind.isSystem = true := by
  -- the file stays open under its path from piece to piece
  induction chunks generalizing written with
  | nil => exact .pure fun w hw => hw
  | cons chunk rest ih =>
    obtain ⟨hchunk, hrest⟩ := List.forall_mem_cons.mp hchunks
    cases chunk with
    | error fault => exact .throw fun w hw => ⟨hw, isSystem_of_isRequest (hchunk fault rfl)⟩
    | ok bytes =>
      refine .bind (Q := fun _ => Writing handle p) ?_ fun _ => ih hrest (written + bytes.size)
      exact (ensures_write bytes).weakenError fun _ _ hfalse => hfalse.elim

theorem ensures_followedBy {α : Type} {P : World → Prop} {Q Q' : α → World → Prop}
    {E E' : Failure → World → Prop} {x : Run World α} {cleanUp : World → World}
    (hx : Ensures P x Q E) (hQ : ∀ a w, Q a w → Q' a (cleanUp w))
    (hE : ∀ f w, E f w → E' f (cleanUp w)) :
    Ensures P (followedBy x cleanUp) Q' E' := by
  intro w hw
  have hend := hx w hw
  simp only [followedBy, bind_apply, outcome]
  rcases hresult : x w with ⟨f | a, t⟩
  · rw [hresult] at hend
    exact hE f t hend
  · rw [hresult] at hend
    exact hQ a t hend

theorem ensures_saveBody (hnull : FileTree.hasNull p = false) {r : Response}
    (hbody : ∀ chunk ∈ r.body, chunk.Honest) :
    Ensures Served (saveBody p r) (fun _ w => Served w ∧ Stored p w)
      fun f w => Served w ∧ f.kind.isSystem = true := by
  refine (ensures_openFile hnull).bind fun handle => ?_
  refine ensures_followedBy (ensures_save hbody 0) ?_ fun f w hw => ⟨hw.1.1, hw.2⟩
  rintro n w ⟨hw, -, l, content, -, -, -, hplace, hentry⟩
  exact ⟨hw, l, content, hplace, hentry⟩

def transfer (c : Client) (url : String) (target : Path) : Run World Nat := do
  let r ← c.send "file.download" (c.fileRequest url)
  followedBy (saveBody (partialPath target) r) fun w => { w with session := w.session.release r }

theorem ensures_transfer (hquiet : c.Quiet) (url : String)
    (hnull : FileTree.hasNull (partialPath target) = false) :
    Ensures Served (c.transfer url target) (fun _ w => Served w ∧ Stored (partialPath target) w)
      fun f w => Served w ∧ (f.kind.isSystem = true ∨ ∃ e, f = .range e) := by
  refine .bind ((ensures_send hquiet "file.download" (c.fileRequest url)).weakenError fun f w hw =>
    ⟨hw.1, hw.2.imp_left isSystem_of_isRequest⟩) fun r w hw => ?_
  exact ensures_followedBy (ensures_saveBody hnull hw.2) (fun _ _ hu => hu)
    (fun _ _ hu => ⟨hu.1, .inl hu.2⟩) w hw.1

theorem partialPath_child (d : Path) (name : String) :
    partialPath (d.child name) = d.child (name ++ ".part") := by
  rw [partialPath, Path.name_child, Path.parent_child]

theorem partialName_ne_up (name : String) : name ++ ".part" ≠ ".." := by
  intro heq
  have hlength := congrArg String.length heq
  rw [String.length_append, show ".part".length = 5 from rfl, show "..".length = 2 from rfl]
    at hlength
  omega

theorem Stored.replace_error {f : Failure} (h : Stored (partialPath (d.child name)) w)
    (hname : PlainName name) (hnull : FileTree.hasNull d = false) :
    w.files.tree.replace (partialPath (d.child name)) (d.child name) = .error f ↔
      w.files.tree.find? (d.child name) = .ok (some .directory) ∧
        f = .file ⟨.isADirectory, (partialPath (d.child name)).text, some (d.child name).text⟩ := by
  obtain ⟨l, content, hplace, hentry⟩ := h
  rw [partialPath_child] at hplace ⊢
  have hnull' : FileTree.hasNull (d.child name) = false :=
    FileTree.hasNull_child hnull hname.nonNull
  exact FileTree.replace_of_longer hname.down (partialName_ne_up name) hnull' hplace hentry

end Booru.Client
