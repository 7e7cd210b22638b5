import Booru.Proofs.Client.Failures
import Booru.Proofs.Grabber.Failures
import Booru.Proofs.RunLog

/-! Downloads while a log is open. Neither the log nor what was written to it suffers from them as
long as no file is to take its place, and no partial file comes to lie there. -/

namespace Booru

open Run FileTree

/-- A file that is to go under the path `target` gets no file under `p` in its way: the partial file
goes to another place, and so does the file, unless there is something already. -/
structure FileTree.ClearOf (t : FileTree) (p target : Path) : Prop where
  coming : t.place (Client.partialPath target) ≠ t.place p
  there : t.place target = t.place p → t.exists? target = .ok true

variable {log : Logger} {l : Location} {t : FileTree} {s s' : FileSystem} {p q target d : Path}
  {name url : String}

/-! ### Files that are held open -/

namespace FileSystem

theorem moving_handle {f : FileTree → Except Failure FileTree}
    {moved : FileTree → Location → Option Location}
    {k : Nat} (h : moving f moved s = (.ok (), s')) {position : Nat} {append isOpen : Bool}
    (hhandle : s.handles[k]? = some ⟨some l, append, position, isOpen⟩)
    (hmoved : moved s.tree l = some l) :
    f s.tree = .ok s'.tree ∧ s'.handles[k]? = some ⟨some l, append, position, isOpen⟩ := by
  unfold moving at h
  split at h
  · cases h
  · rename_i u hresult
    cases h
    refine ⟨hresult, ?_⟩
    rw [List.getElem?_map, hhandle, Option.map_some, Option.bind_some, hmoved]

theorem write_handle_of_ne {handle k : Nat} (hne : handle ≠ k)
    (bytes : ByteArray) (s : FileSystem) :
    (write handle bytes s).2.handles[k]? = s.handles[k]? := by
  unfold write
  split
  · rfl
  split
  · rfl
  split
  · rfl
  · exact List.getElem?_set_ne hne

end FileSystem

namespace Client

variable {k : Nat} {h : Handle}

theorem ensures_saveBody_handle (p : Path) (r : Response) :
    Ensures (fun w => w.files.handles[k]? = some h) (saveBody p r)
      (fun _ w => w.files.handles[k]? = some h)
      fun _ w => w.files.handles[k]? = some h := by
  have hopen : Ensures (fun w => w.files.handles[k]? = some h)
      (World.onFiles (FileSystem.openFile p false))
      (fun handle w => handle ≠ k ∧ w.files.handles[k]? = some h) fun _ w =>
        w.files.handles[k]? = some h := by
    intro w hw
    have hin : k < w.files.handles.length := (List.getElem?_eq_some_iff.mp hw).1
    simp only [World.onFiles, World.within, FileSystem.openFile]
    cases w.files.tree.openFile p false with
    | error f => exact hw
    | ok opened => exact ⟨Nat.ne_of_gt hin, (List.getElem?_append_left hin).trans hw⟩
  have hsave (handle : Nat) (hne : handle ≠ k) (chunks : List Chunk) (written : Nat) :
      Ensures (fun w => w.files.handles[k]? = some h) (save handle chunks written)
        (fun _ w => w.files.handles[k]? = some h) fun _ w => w.files.handles[k]? = some h := by
    induction chunks generalizing written with
    | nil => exact .pure fun _ hw => hw
    | cons chunk rest ih =>
      cases chunk with
      | error fault => exact .throw fun _ hw => hw
      | ok bytes =>
        refine .bind (.of_state fun w hw => ?_) fun _ => ih _
        exact (FileSystem.write_handle_of_ne hne bytes w.files).trans hw
  refine hopen.bind fun handle w hw => ?_
  have hclose (w : World) (hne : handle ≠ k) (hw : w.files.handles[k]? = some h) :
      (w.files.close handle).handles[k]? = some h := (List.getElem?_modify_ne _ _ hne).trans hw
  exact ensures_followedBy (hsave handle hw.1 r.body 0) (fun _ u hu => hclose u hw.1 hu)
    (fun _ u hu => hclose u hw.1 hu) w hw.2

end Client

theorem toOption_ne {r : Except FileProblem Location} (h : r ≠ .ok l) : r.toOption ≠ some l := by
  cases r with
  | error problem => simp [Except.toOption]
  | ok k => simpa [Except.toOption] using h

/-! ### The log beside a download -/

namespace Logger

theorem upholds_makeDirectories {J : FileTree → Prop} (hJ : ∀ u v, J u → Grown p u v → J v) :
    Upholds (World.ServedAndFilesIn False (log.Keeps l J))
      (World.onTree (makeDirectories p)) (fun _ => True)
      fun _ => True := by
  refine World.upholds_of_ensures ?_
  rintro w ⟨hkept, records, hunbound, hopened, hentry⟩
  have hgrown := ensures_grown w.files.tree p w.files.tree rfl
  simp only [World.onTree, World.onFiles, World.within]
  rcases hmade : makeDirectories p w.files.tree with ⟨f | ⟨⟩, u⟩ <;> rw [hmade] at hgrown <;>
    exact ⟨hJ _ _ hkept hgrown, records, hunbound, hopened, hgrown.entry_of_some hentry⟩

theorem Keeps.locate?_ne (h : log.Keeps l (Widened t) s) (hne : t.place p ≠ l) :
    s.tree.locate? p ≠ .ok l :=
  fun hplace => hne ((h.1.place_eq p).symm.trans (place_of_locate? hplace))

theorem Keeps.touched (h : log.Keeps l (Widened t) s) (htouched : Touched p s.tree s'.tree)
    (hne : t.place p ≠ l)
    (hhandle : s'.handles[log.handle]? = s.handles[log.handle]?) : log.Keeps l (Widened t) s' := by
  have hapart := h.locate?_ne hne
  obtain ⟨hwidened, records, hunbound, hopened, hentry⟩ := h
  refine ⟨hwidened.trans htouched.widened, records, hunbound, hhandle.trans hopened, ?_⟩
  obtain hsame | ⟨hplace, -, -⟩ := htouched.only l
  · exact hsame.trans hentry
  · exact absurd hplace hapart

theorem Keeps.handle (h : log.Keeps l (Widened t) s) : ∃ position,
    s.handles[log.handle]? = some ⟨some l, false, position, true⟩ := by
  obtain ⟨-, records, hholds⟩ := h
  exact ⟨_, hholds.opened⟩

theorem Keeps.exists? (h : log.Keeps l (Widened t) s) (hsame : t.place p = l)
    (hthere : t.exists? p = .ok true) :
    s.tree.exists? p = .ok true := by
  obtain ⟨hwidened, records, -, -, hentry⟩ := h
  cases hfind : t.find? p with
  | error f => simp [FileTree.exists?, hfind, Except.map] at hthere
  | ok entry =>
    obtain ⟨e, rfl⟩ : ∃ e, entry = some e := by
      simpa [FileTree.exists?, hfind, Except.map, Option.isSome_iff_exists] using hthere
    obtain ⟨hnull, k, hk, -⟩ := find?_eq_some.mp hfind
    obtain rfl : k = l := (place_of_locate? hk).symm.trans hsame
    have hfound := find?_eq_some.mpr ⟨hnull, k, hwidened.locate? hk, hentry⟩
    rw [FileTree.exists?, hfound]
    rfl

theorem Keeps.remove (h : log.Keeps l (Widened t) s) (hne : t.place p ≠ l)
    (hremove : FileSystem.remove p s = (.ok (), s')) : log.Keeps l (Widened t) s' := by
  obtain ⟨position, hhandle⟩ := h.handle
  obtain ⟨hresult, hhandle'⟩ :=
    FileSystem.moving_handle hremove hhandle (if_neg (toOption_ne (h.locate?_ne hne)))
  exact h.touched (remove_ok hresult).1 hne (hhandle'.trans hhandle.symm)

theorem Keeps.replace (h : log.Keeps l (Widened t) s) (hne : t.place p ≠ l)
    (hne' : t.place q ≠ l) {k : Location} {content : ByteArray} (hplace : s.tree.locate? p = .ok k)
    (hentry : s.tree.entry? k = some (.file content))
    (hreplace : FileSystem.replace p q s = (.ok (), s')) : log.Keeps l (Widened t) s' := by
  obtain ⟨position, hhandle⟩ := h.handle
  obtain ⟨hresult, hhandle'⟩ := FileSystem.moving_handle hreplace hhandle
    ((if_neg (toOption_ne (h.locate?_ne hne))).trans (if_neg (toOption_ne (h.locate?_ne hne'))))
  obtain ⟨-, k', hplace', hfree, htree⟩ := replace_eq_ok hplace hentry hresult
  -- the file is gone from the one place, then it is there at the other
  have herased := touched_erase hplace (by simp [hentry])
  have hput : Touched q (s.tree.erase k) s'.tree :=
    htree ▸ touched_put (herased.locate?_iff.mp hplace')
    fun hd => hfree ((herased.directory_iff k').mpr hd)
  have hgone : log.Keeps l (Widened t) ⟨s.tree.erase k, s'.handles⟩ :=
    h.touched herased hne (hhandle'.trans hhandle.symm)
  exact hgone.touched hput hne' rfl

end Logger

namespace Client

variable {c : Client}

theorem ensures_moved {P : World → Prop} {Q : FileSystem → Prop}
    {f : FileTree → Except Failure FileTree} {moved : FileTree → Location → Option Location}
    (h : ∀ w s, P w → FileSystem.moving f moved w.files = (.ok (), s) → Q s) :
    Ensures P (World.onFiles (FileSystem.moving f moved)) (fun _ w => Q w.files) fun _ => P := by
  intro w hw
  simp only [World.onFiles, World.within]
  rcases hmoving : FileSystem.moving f moved w.files with ⟨g | ⟨⟩, s⟩
  · unfold FileSystem.moving at hmoving
    split at hmoving <;> cases hmoving
    exact hw
  · exact h w s hw hmoving

theorem ensures_saveBody_logged (hne : t.place p ≠ l) (r : Response) :
    Ensures (fun w => log.Keeps l (Widened t) w.files) (saveBody p r)
      (fun _ w => log.Keeps l (Widened t) w.files ∧ Stored p w) fun _ w =>
        log.Keeps l (Widened t) w.files := by
  intro w hw
  obtain ⟨position, hhandle⟩ := hw.handle
  have hfiles := ensures_filled p r w.files.tree w rfl
  have hhandles := ensures_saveBody_handle p r w hhandle
  rcases hsave : saveBody p r w with ⟨f | n, u⟩ <;> rw [hsave] at hfiles hhandles
  · exact hw.touched hfiles.1 hne (hhandles.trans hhandle.symm)
  · obtain ⟨hplace, content, -, -, hplace, hentry⟩ := hfiles.stored
    exact ⟨hw.touched hfiles.touched hne (hhandles.trans hhandle.symm), _, content, hplace, hentry⟩

variable (hnoted : ∀ e, Upholds (World.ServedAndFilesIn False (log.Keeps l (Widened t)))
  (c.onRetry e) (fun _ => True)
  (Failure.NoMistake False))
include hnoted

theorem ensures_transfer_logged (hne : t.place (partialPath target) ≠ l) (url : String) :
    Ensures (fun w => log.Keeps l (Widened t) w.files) (c.transfer url target)
      (fun _ w => log.Keeps l (Widened t) w.files ∧ Stored (partialPath target) w)
      fun _ w => log.Keeps l (Widened t) w.files := by
  have hsend := World.ensures_of_upholds (upholds_send hnoted "file.download" (c.fileRequest url))
  refine hsend.bind fun r w hw => ?_
  exact ensures_followedBy (ensures_saveBody_logged hne r) (fun _ _ hu => hu)
    (fun _ _ hu => hu) w hw.1

theorem ensures_conclude_logged (hne : t.place (partialPath target) ≠ l)
    (hne' : t.place target ≠ l) (url : String) :
    Ensures (fun w => log.Keeps l (Widened t) w.files) (c.conclude url target)
      (fun _ w => log.Keeps l (Widened t) w.files) fun _ w => log.Keeps l (Widened t) w.files := by
  refine .bind ((ensures_transfer_logged hnoted hne url).tryCatch fun f => ?_) fun n => ?_
  · split
    · refine .bind (Q := fun _ w => log.Keeps l (Widened t) w.files) ?_ fun _ =>
        .throw fun w hw => hw
      exact ensures_moved fun w s hw hremove => hw.remove hne hremove
    · exact .throw fun w hw => hw
  · refine .bind (Q := fun _ w => log.Keeps l (Widened t) w.files) ((ensures_moved ?_).weakenError
      fun _ w hw => hw.1) fun _ => .pure fun w hw => hw
    rintro w s ⟨hkept, k, content, hplace, hentry⟩ hreplace
    exact hkept.replace hne hne' hplace hentry hreplace

theorem upholds_downloadFile_logged (hname : name ≠ "")
    (hne : t.place (partialPath (d.child name)) ≠ l) (hne' : t.place (d.child name) ≠ l)
    (url : String) :
    Upholds (World.ServedAndFilesIn False (log.Keeps l (Widened t)))
      (c.downloadFile url (d.child name)) (fun _ => True)
      fun _ => True := by
  rw [downloadFile_eq c url d hname]
  exact (Logger.upholds_makeDirectories fun _ _ hwidened hgrown =>
    hwidened.trans hgrown.widened).bind
    fun _ _ => World.upholds_of_ensures (ensures_conclude_logged hnoted hne hne' url)

theorem upholds_save_logged (hplace : t.locate? p = .ok l) (hname : name ≠ "")
    (hclear : t.ClearOf p (d.child name)) (url : String) :
    Upholds (World.ServedAndFilesIn False (log.Keeps l (Widened t)))
      (c.fetcher.save url (d.child name)) (fun _ => True)
      fun _ => True := by
  have hlog : t.place p = l := place_of_locate? hplace
  by_cases hsame : t.place (d.child name) = l
  · -- the log itself is what is under the path
    refine ⟨fun w hw => ?_⟩
    have hexists : c.fetcher.exists? (d.child name) w = (.ok true, w) := by
      simp only [Client.fetcher, World.inspect,
        hw.2.exists? hsame (hclear.there (hsame.trans hlog.symm))]
    simp only [FileFetcher.save, bind_apply, hexists, if_true]
    exact ⟨hw, trivial⟩
  · have hne : t.place (partialPath (d.child name)) ≠ l :=
      fun heq => hclear.coming (heq.trans hlog.symm)
    refine FileFetcher.upholds_save ?_ ?_
    · exact World.upholds_inspect (f := (·.exists? (d.child name))) fun _ _ _ => trivial
    exact (upholds_downloadFile_logged hnoted hname hne hsame url).bind fun _ _ => .pure trivial

end Client
end Booru
