import Booru.Proofs.Download.Interruption
import Booru.Proofs.Files.Standing

/-! What a download leaves behind. Either the file is there as a whole, or the place for it is
as it was; the partial file is gone either way, and nothing else has changed but that there
may be more directories. -/

namespace Booru

open Run

namespace FileSystem

theorem splice_at_end (content bytes : ByteArray) : splice content content.size bytes =
    content ++ bytes := by
  have hbefore : content.extract 0 content.size = content := ByteArray.extract_zero_size
  have hgap : (⟨Array.replicate (content.size - content.size) 0⟩ : ByteArray) = .empty := by
    rw [Nat.sub_self]
    rfl
  have hbehind : content.extract (content.size + bytes.size) content.size = .empty := by
    rw [ByteArray.extract_eq_empty_iff]
    omega
  rw [splice, hbefore, hgap, hbehind, ByteArray.append_empty, ByteArray.append_empty]

theorem write_to_end {s : FileSystem} {handle : Nat} {h : Handle} {l : Location}
    {content : ByteArray} (hopened : s.handles[handle]? = some h) (hplace : h.location = some l)
    (hopen : h.isOpen = true) (hend : h.append = false → h.position = content.size)
    (hentry : s.tree.entry? l = some (.file content))
    (bytes : ByteArray) : write handle bytes s = (.ok (), ⟨s.tree.put l (.file (content ++ bytes)),
      s.handles.set handle { h with position := (content ++ bytes).size }⟩) := by
  have hcontent : s.content l = content := by simp only [FileSystem.content, hentry]
  have hposition : (if h.append then content.size else h.position) = content.size := by
    split
    · rfl
    · rename_i happend
      exact hend (by simpa using happend)
  simp only [write, hopened, hopen, hplace, hcontent, hposition, Bool.not_true,
    Bool.false_eq_true, if_false, splice_at_end, ByteArray.size_append]

theorem write_at_end {s : FileSystem} {handle : Nat} {l : Location} {content : ByteArray}
    (hopened : s.handles[handle]? = some ⟨some l, false, content.size, true⟩)
    (hentry : s.tree.entry? l = some (.file content)) (bytes : ByteArray) :
    write handle bytes s = (.ok (), ⟨s.tree.put l (.file (content ++ bytes)),
      s.handles.set handle ⟨some l, false, (content ++ bytes).size, true⟩⟩) :=
  write_to_end hopened rfl rfl (fun _ => rfl) hentry bytes

end FileSystem

namespace Client

open FileTree

variable {c : Client} {url name : String} {d p target : Path} {handle : Nat}
  {t : FileTree} {l : Location}
  {content : ByteArray}

def Discreet (c : Client) : Prop := ∀ e w, ∃ t, c.onRetry e w = (.ok (), t) ∧ t.files = w.files

/-- The failure is none that the client has found words for. -/
def Unexplained (f : Failure) : Prop := ∀ e, f ≠ .api e

theorem unexplained_of_kind {f : Failure} (h : f.kind ≠ .api) : Unexplained f := by
  rintro e rfl
  exact h rfl

theorem ensures_send_files (h : c.Discreet) (operation : String) (r : Request) (t : FileTree) :
    Ensures (·.files.tree = t) (c.send operation r) (fun _ w => w.files.tree = t)
      fun f w => w.files.tree = t ∧ Unexplained f := by
  have hkeeps : (World.surroundings r c.onRetry).KeepsAndFailsIn (·.files.tree = t)
      (fun _ => True) Unexplained :=
    { asked := by
        intro w hw
        simp only [World.surroundings, World.onSession, World.within, Session.get]
        cases (w.session.script.next r.key).1 with
        | ok a => exact ⟨hw, trivial⟩
        | error fault => exact ⟨hw, by simp [Unexplained]⟩
      refused := fun _ => by simp [Unexplained]
      ranged := fun _ => by simp [Unexplained]
      released := fun _ _ hw => hw
      hinted := by
        intro value w f hf
        simp only [World.surroundings] at hf
        cases hhint : Retry.readHint w.now value with
        | ok seconds => simp [hhint] at hf
        | error e =>
          rw [hhint] at hf
          cases hf
          simp [Unexplained]
      drawn := fun _ hw => hw
      slept := fun _ _ hw => hw
      noted := by
        intro e w hw
        obtain ⟨u, hnoted, hfiles⟩ := h e w
        simp only [World.surroundings, hnoted]
        rwa [hfiles] }
  exact (hkeeps.ensures_attempts c.policy operation r.url _ 1).weaken (fun _ hw => hw) fun _ _ hw =>
    hw.1

/-- The file under the path is open to be written to, and holds what came so far. Nothing else
has changed since `t`. -/
structure Filling (handle : Nat) (p : Path) (t : FileTree) (l : Location)
    (content : ByteArray) (w : World) :
    Prop where
  touched : Touched p t w.files.tree
  opened : w.files.handles[handle]? = some ⟨some l, false, content.size, true⟩
  place : w.files.tree.locate? p = .ok l
  entry : w.files.tree.entry? l = some (.file content)

theorem ensures_fill (bytes : ByteArray) :
    Ensures (Filling handle p t l content) (World.onFiles (FileSystem.write handle bytes))
      (fun _ => Filling handle p t l (content ++ bytes)) fun _ _ => False := by
  rintro w ⟨htouched, hhandle, hplace, hentry⟩
  have hplain : w.files.tree.entry? l ≠ some .directory := by simp [hentry]
  have hin : handle < w.files.handles.length := (List.getElem?_eq_some_iff.mp hhandle).1
  simp only [World.onFiles, World.within, FileSystem.write_at_end hhandle hentry]
  exact ⟨htouched.trans (touched_put hplace hplain), List.getElem?_set_self hin,
    locate?_put hplain hplace, entry?_put_self (ne_nil_of_not_directory hplain)⟩

def joined (content : ByteArray) (chunks : List Chunk) : Except Fault ByteArray :=
  chunks.foldlM (fun done chunk => chunk.map (done ++ ·)) content

theorem ensures_fillAll (chunks : List Chunk) (content : ByteArray) :
    Ensures (Filling handle p t l content) (save handle chunks content.size)
      (fun n w => ∃ whole, joined content chunks = .ok whole ∧ n = whole.size ∧
        Filling handle p t l whole w)
      fun f w => Touched p t w.files.tree ∧ Unexplained f := by
  induction chunks generalizing content with
  | nil => exact .pure fun w hw => ⟨content, rfl, rfl, hw⟩
  | cons chunk rest ih =>
    cases chunk with
    | error fault => exact .throw fun w hw => ⟨hw.touched, nofun⟩
    | ok bytes =>
      refine .bind ((ensures_fill bytes).weakenError fun _ _ hfalse => hfalse.elim) fun _ => ?_
      rw [← ByteArray.size_append]
      exact ih (content ++ bytes)

/-- All of the response is in the file under the path, and nothing else has changed since `t`. -/
structure Filled (p : Path) (t : FileTree) (r : Response) (n : Nat) (w : World) : Prop where
  touched : Touched p t w.files.tree
  plain : hasNull p = false
  stored : ∃ l content, r.content = .ok content ∧ n = content.size ∧
    w.files.tree.locate? p = .ok l ∧ w.files.tree.entry? l = some (.file content)

theorem ensures_openFile_anew (p : Path) (t : FileTree) :
    Ensures (·.files.tree = t) (World.onFiles (FileSystem.openFile p false))
      (fun handle w => hasNull p = false ∧ ∃ l, Filling handle p t l .empty w)
      fun f w => Touched p t w.files.tree ∧ Unexplained f := by
  rintro w rfl
  simp only [World.onFiles, World.within, FileSystem.openFile]
  cases hopen : w.files.tree.openFile p false with
  | error f => exact ⟨.refl p _, unexplained_of_kind (openFile_refused hopen).ne_api⟩
  | ok opened =>
    obtain ⟨htouched, hnull, hplace, hentry⟩ := openFile_anew hopen
    exact ⟨hnull, opened.2, htouched, by simp, hplace, hentry⟩

theorem ensures_filled (p : Path) (r : Response) (t : FileTree) :
    Ensures (·.files.tree = t) (saveBody p r) (fun n w => Filled p t r n w)
      fun f w => Touched p t w.files.tree ∧ Unexplained f := by
  refine (ensures_openFile_anew p t).bind fun handle => ?_
  refine ensures_followedBy (Q := fun n => Filled p t r n) ?_
    (fun n w hw => ⟨hw.touched, hw.plain, hw.stored⟩) fun f w hw => hw
  rintro w ⟨hnull, l, hfilling⟩
  have hend := ensures_fillAll r.body .empty w hfilling
  rcases hsave : save handle r.body 0 w with ⟨f | n, u⟩
  · rw [ByteArray.size_empty, hsave] at hend
    exact hend
  · rw [ByteArray.size_empty, hsave] at hend
    obtain ⟨whole, hwhole, rfl, hfilled⟩ := hend
    have hcontent : r.content = .ok whole := by rw [Response.content, ← joined, hwhole]
    exact ⟨hfilled.touched, hnull, l, whole, hcontent, rfl, hfilled.place, hfilled.entry⟩

theorem ensures_transfer_filled (h : c.Discreet) (url : String) (target : Path) (w : World) :
    Ensures (· = w) (c.transfer url target)
      (fun n u => ∃ r v, c.send "file.download" (c.fileRequest url) w = (.ok r, v) ∧
        Filled (partialPath target) w.files.tree r n u)
      fun f u => Touched (partialPath target) w.files.tree u.files.tree ∧ Unexplained f := by
  rintro w rfl
  have hsend := ensures_send_files h "file.download" (c.fileRequest url) w.files.tree w rfl
  rw [transfer, bind_apply]
  rcases hresult : c.send "file.download" (c.fileRequest url) w with ⟨f | r, u⟩
  · rw [hresult] at hsend
    exact ⟨hsend.1 ▸ .refl _ _, hsend.2⟩
  · rw [hresult] at hsend
    refine ensures_followedBy (ensures_filled (partialPath target) r w.files.tree)
      (fun n v hv => ?_)
      (fun f v hv => hv) u hsend
    exact ⟨r, u, rfl, hv.touched, hv.plain, hv.stored⟩

/-- The file is in its place with all that the server sent, and nothing else
has changed since `u`. -/
structure Came (c : Client) (url : String) (target : Path) (u : World) (n : Nat) (t : World) :
    Prop where
  sent : ∃ r v content, c.send "file.download" (c.fileRequest url) u = (.ok r, v) ∧
    r.content = .ok content ∧ n = content.size ∧ t.files.tree.find? target =
      .ok (some (.file content))
  gone : t.files.tree.find? (partialPath target) = .ok none
  only : ∃ s, Touched (partialPath target) u.files.tree s ∧ Touched target s t.files.tree

/-- Nothing is left of the file, and nothing else has changed since `u`. -/
structure GivenUp (target : Path) (u t : World) : Prop where
  gone : t.files.tree.find? (partialPath target) = .ok none
  only : Touched (partialPath target) u.files.tree t.files.tree

theorem Filled.ensures_replace {u v : World} {r : Response} {n : Nat}
    (hsend : c.send "file.download" (c.fileRequest url) u = (.ok r, v)) :
    Ensures (Filled (partialPath (d.child name)) u.files.tree r n)
      (World.onFiles (FileSystem.replace (partialPath (d.child name)) (d.child name)))
      (fun _ => c.Came url (d.child name) u n) fun f _ => Unexplained f := by
  refine ensures_moving ?_ fun w f _ hfail => unexplained_of_kind (replace_refused hfail).ne_api
  rintro w t handles ⟨htouched, hnull, l, content, hcontent, rfl, hplace, hentry⟩ hreplace
  rw [partialPath_child] at htouched hnull hplace hreplace
  obtain ⟨hup, l', hplace', hentry', rfl⟩ := replace_eq_ok hplace hentry hreplace
  have hne : l' ≠ l := locate?_ne_of_longer (by decide) (partialName_ne_up name) hplace' hplace
  obtain ⟨s, hs, ht, hfound, hgone⟩ :=
    moved hnull (hasNull_of_longer hnull) hplace hplace' hentry hentry' hne
  rw [← partialPath_child] at htouched hs hgone
  exact ⟨⟨r, v, content, hsend, hcontent, rfl, hfound⟩, hgone, s, htouched.trans hs, ht⟩

theorem ensures_conclude_whole (h : c.Discreet) (url : String) (d : Path)
    (name : String) (u : World) :
    Ensures (· = u) (c.conclude url (d.child name)) (c.Came url (d.child name) u)
      fun f t => Unexplained f ∨ GivenUp (d.child name) u t := by
  refine .bind ((ensures_transfer_filled h url (d.child name) u).tryCatch fun f => ?_) fun n => ?_
  · split
    · refine .bind (Q := fun _ => GivenUp (d.child name) u) (ensures_moving ?_ ?_) fun _ => ?_
      · rintro w t handles ⟨htouched, -⟩ hremove
        obtain ⟨hremoved, hgone⟩ := remove_ok hremove
        exact ⟨hgone, htouched.trans hremoved⟩
      · exact fun w g _ hstuck => .inl (unexplained_of_kind (remove_error hstuck).ne_api)
      · exact .throw fun t ht => .inr ht
    · exact .throw fun t ht => .inl ht.2
  · rintro w ⟨r, v, hsend, hfilled⟩
    exact (((Filled.ensures_replace hsend).weakenError fun f _ hf => .inl hf).bind fun _ =>
      .pure fun _ ht => ht) w hfilled

theorem ensures_grown_onTree (p : Path) (w : World) :
    Ensures (· = w) (World.onTree (makeDirectories p))
      (fun _ u => World.onTree (makeDirectories p) w = (.ok (), u) ∧
        Grown p w.files.tree u.files.tree)
      fun f _ => Unexplained f := by
  rintro w rfl
  have hgrown := ensures_grown w.files.tree p w.files.tree rfl
  have hkind := ensures_makeDirectories p w.files.tree trivial
  simp only [World.onTree, World.onFiles, World.within]
  rcases hmade : makeDirectories p w.files.tree with ⟨f | ⟨⟩, u⟩ <;> rw [hmade] at hgrown hkind
  · exact unexplained_of_kind hkind.ne_api
  · exact ⟨rfl, hgrown⟩

theorem ensures_downloadFile_whole (h : c.Discreet) (url : String) (d : Path)
    (hname : name ≠ "") (w : World) :
    Ensures (· = w) (c.downloadFile url (d.child name))
      (fun n t => ∃ u, World.onTree (makeDirectories d) w = (.ok (), u) ∧
        Grown d w.files.tree u.files.tree ∧ c.Came url (d.child name) u n t)
      fun f t => Unexplained f ∨ ∃ u, Grown d w.files.tree u.files.tree ∧
      GivenUp (d.child name) u t := by
  rw [downloadFile_eq c url d hname, Path.parent_child]
  refine ((ensures_grown_onTree d w).weakenError fun f _ hf => .inl hf).bind fun _ u hu => ?_
  obtain ⟨hmade, hgrown⟩ := hu
  have hend := ensures_conclude_whole h url d name u u rfl
  rcases hresult : c.conclude url (d.child name) u with ⟨f | n, t⟩ <;> rw [hresult] at hend
  · exact hend.imp_right fun hgiven => ⟨u, hgrown, hgiven⟩
  · exact ⟨u, hmade, hgrown, hend⟩

theorem downloadFile_of_made (c : Client) (url : String) (hname : name ≠ "")
    {w : World} {t : FileTree} (hmade : makeDirectories d w.files.tree = (.ok (), t)) :
    c.downloadFile url (d.child name) w =
      c.conclude url (d.child name) { w with files := { w.files with tree := t } } := by
  have honTree : World.onTree (makeDirectories d) w =
      (.ok (), { w with files := { w.files with tree := t } }) := by
    simp only [World.onTree, World.onFiles, World.within, hmade]
  rw [downloadFile_eq c url d hname, Path.parent_child, bind_apply, honTree]

end Client

namespace FileTree

open Client

variable {t u v : FileTree} {d : Path} {name : String}

theorem locate?_partialPath_ne {l : Location} (hl : u.locate? (d.child name) = .ok l) :
    ∀ q ∈ [partialPath (d.child name)], u.locate? q ≠ .ok l := by
  intro q hq hpart
  rw [List.mem_singleton.mp hq, partialPath_child] at hpart
  exact locate?_ne_of_longer (by decide) (partialName_ne_up name) hl hpart rfl

theorem Spared.entry_place (h : Spared d [partialPath (d.child name)] t u) {l : Location}
    (hl : u.locate? (d.child name) = .ok l) :
    u.entry? l = t.entry? l ∨ ".." ∈ (d.child name).parts ∧ MadeFor d t u l :=
  h.entry_child hl (locate?_partialPath_ne hl)

theorem Grown.find?_down_iff (hgrown : Grown d t u)
    (htouched : Touched (partialPath (d.child name)) u v) (hdown : ".." ∉ (d.child name).parts)
    (hrooted : t.Rooted) (entry : Entry) :
    v.find? (d.child name) = .ok (some entry) ↔ t.find? (d.child name) = .ok (some entry) :=
  (hgrown.spared.touched htouched).find?_child_iff hdown hrooted
    (fun _ hl => locate?_partialPath_ne hl)
    (fun _ hl => htouched.locate?_iff.mp (hgrown.locate? hl)) entry

end FileTree

open Client FileTree in
/-- Unless somebody who is told of retries meddles with the files, a download is all or nothing. If
it comes to an end, the file holds what the server sent, byte for byte; if it is given up, the place
of the file is as it was, unless the path to it leads back up to one of the directories that were
made for it; a path that leads straight down finds what it found before. The partial file is gone
either way, and everything else is as it was but for directories on the way to the file. -/
theorem downloadFile_whole_or_not (c : Client) (url : String) (target : Path) (w : World)
    (hdiscreet : c.Discreet) :
    (∀ n t, c.downloadFile url target w = (.ok n, t) →
      (∃ u v r content, World.onTree (makeDirectories target.parent) w = (.ok (), u) ∧
        c.send "file.download" (c.fileRequest url) u = (.ok r, v) ∧
        r.content = .ok content ∧ n = content.size ∧
        t.files.tree.find? target = .ok (some (.file content))) ∧
      t.files.tree.find? (partialPath target) = .ok none ∧
      Spared target.parent [target, partialPath target] w.files.tree t.files.tree) ∧
    ∀ e t, c.downloadFile url target w = (.error (.api e), t) →
      (∀ l, t.files.tree.locate? target = .ok l → t.files.tree.entry? l = w.files.tree.entry? l ∨
        ".." ∈ target.parts ∧ MadeFor target.parent w.files.tree t.files.tree l) ∧
      (".." ∉ target.parts → w.files.tree.Rooted → ∀ entry,
        t.files.tree.find? target = .ok (some entry) ↔
          w.files.tree.find? target = .ok (some entry)) ∧
      t.files.tree.find? (partialPath target) = .ok none ∧
      Spared target.parent [partialPath target] w.files.tree t.files.tree := by
  by_cases hname : target.name = ""
  · have hrefused : c.downloadFile url target w =
        (.error (.argument (.emptyName target.text)), w) := by
      rw [downloadFile, hname]
      rfl
    constructor
    · intro n t hdone
      cases hrefused.symm.trans hdone
    · intro e t hfailed
      cases hrefused.symm.trans hfailed
  obtain ⟨d, name, hfull, rfl⟩ : ∃ (d : Path) (name : String), name ≠ "" ∧ target = d.child name :=
    ⟨target.parent, target.name, hname, (Path.child_parent hname).symm⟩
  have hend := ensures_downloadFile_whole hdiscreet url d hfull w w rfl
  rw [Path.parent_child]
  constructor
  · intro n t hdone
    rw [hdone] at hend
    obtain ⟨u, hmade, hgrown, ⟨r, v, content, hsend, hcontent, hn, hfound⟩, hgone, s, hs, ht⟩ :=
      hend
    exact ⟨⟨u, v, r, content, hmade, hsend, hcontent, hn, hfound⟩, hgone,
      (hgrown.spared.touched hs).touched ht⟩
  · intro e t hfailed
    rw [hfailed] at hend
    obtain ⟨u, hgrown, hgone, htouched⟩ := hend.resolve_left fun hother => hother e rfl
    have hspared := hgrown.spared.touched htouched
    exact ⟨fun l hl => hspared.entry_place hl, hgrown.find?_down_iff htouched, hgone, hspared⟩

def facingAnswer (a : Answer) : World :=
  { session := { script := .inOrder [] (.ok a) }, now := ⟨0⟩, draw := 0 }

def twoPieces : World := facingAnswer { body := [.ok "a".toUTF8, .ok "b".toUTF8] }

open FileTree in
theorem whole_twoPieces : ∃ t content,
    plainClient.downloadFile "https://h/1" ⟨"", ["a.png"]⟩ twoPieces = (.ok 2, t) ∧
      t.files.tree.find? ⟨"", ["a.png"]⟩ = .ok (some (.file content)) ∧ content.size = 2 ∧
      t.files.tree.find? ⟨"", ["a.png.part"]⟩ = .ok none := by
  have hmade : makeDirectories ⟨"", []⟩ twoPieces.files.tree = (.ok (), twoPieces.files.tree) := by
    rw [makeDirectories]
    rfl
  obtain ⟨t, hrun⟩ : ∃ t, plainClient.downloadFile "https://h/1" ⟨"", ["a.png"]⟩
      twoPieces = (.ok 2, t) :=
    ⟨_, (Client.downloadFile_of_made _ _ (by decide) hmade).trans rfl⟩
  have hdiscreet : plainClient.Discreet := fun _ _ => ⟨_, rfl, rfl⟩
  obtain ⟨⟨u, v, r, content, -, -, -, hsize, hfound⟩, hgone, -⟩ :=
    (downloadFile_whole_or_not plainClient "https://h/1" ⟨"", ["a.png"]⟩ twoPieces hdiscreet).1
      2 t hrun
  exact ⟨t, content, hrun, hfound, hsize.symm, hgone⟩

def roundabout : Path := ⟨"", ["a", "..", "a"]⟩

def refusing : World := facingAnswer { status := 404, reason := "Not Found" }

open FileTree in
/-- Nothing was there, the server has nothing to give, and there is something now. -/
theorem directory_roundabout : ∃ e t,
    plainClient.downloadFile "https://h/1" roundabout refusing = (.error (.api e), t) ∧
      refusing.files.tree.find? roundabout = .ok none ∧
      t.files.tree.find? roundabout = .ok (some .directory) := by
  have hinner : makeDirectories ⟨"", ["a"]⟩ refusing.files.tree =
      (.ok (), { entries := [(["a"], .directory)] }) := by
    rw [makeDirectories]
    rfl
  have hmade : makeDirectories ⟨"", ["a", ".."]⟩ refusing.files.tree =
      (.ok (), { entries := [(["a"], .directory)] }) := by
    rw [makeDirectories]
    change (makeDirectories ⟨"", ["a"]⟩ >>= fun _ => _) refusing.files.tree = _
    rw [bind_apply, hinner]
    rfl
  have hname : "a" ≠ "" := by decide
  have hrun : plainClient.downloadFile "https://h/1" roundabout refusing = _ :=
    Client.downloadFile_of_made _ _ hname hmade
  exact ⟨_, _, hrun.trans rfl, rfl, rfl⟩

end Booru
