import Booru.Proofs.Download.Course
import Booru.Proofs.Download.Transfer

/-! Downloads through a client. That the server refuses a file, breaks off, or cannot be reached
is an outcome of that file and no more. What ends a download is a path that leads nowhere, or a
wait beyond all bounds. -/

namespace Booru

open Run

namespace Client

variable {c : Client} {url name : String} {d target : Path} {w : World}

/-! ### One file -/

def conclude (c : Client) (url : String) (target : Path) : Run World Nat := do
  let written ← tryCatch (c.transfer url target) fun f =>
    if f.kind.isSystem then do
      World.onFiles (FileSystem.remove (partialPath target))
      throw (.api (.downloadFailed url f.message))
    else throw f
  World.onFiles (FileSystem.replace (partialPath target) target)
  pure written

theorem downloadFile_eq (c : Client) (url : String) (d : Path) (hname : name ≠ "") :
    c.downloadFile url (d.child name) =
      World.onTree (FileTree.makeDirectories (d.child name).parent) >>=
      fun _ => c.conclude url (d.child name) := by
  have hfull : (d.child name).name.isEmpty = false := by simpa using hname
  rw [downloadFile, hfull]
  refine bind_congr fun _ => congrArg (· >>= _) (congrArg (tryCatch (c.transfer url _)) ?_)
  funext f
  cases f.kind.isSystem <;> rfl

def Begun (target : Path) (w t : World) : Prop :=
  w.files.tree.exists? target = .ok false ∧
    World.onTree (FileTree.makeDirectories target.parent) w = (.ok (), t)

/-- How the saving of a file that starts in `w` comes to end the whole download. -/
inductive Interrupted (c : Client) (url : String) (target : Path) (w : World) : Failure → Prop
  /-- A name is too long to look for it. -/
  | lookup {f : Failure} (unknown : w.files.tree.exists? target = .error f) :
    Interrupted c url target w f
  /-- There is no way to the directory, as where one of the directories above is a file. -/
  | directory {f : Failure} {t : World} (free : w.files.tree.exists? target = .ok false)
      (refused : World.onTree (FileTree.makeDirectories target.parent) w = (.error f, t)) :
      Interrupted c url target w f
  /-- The server asks for a wait beyond all bounds, or the waits between the
  attempts have become one. -/
  | wait {e : RangeError} {t u : World} (begun : Begun target w t)
      (unbounded : c.transfer url target t = (.error (.range e), u)) :
      Interrupted c url target w (.range e)
  /-- The file failed, and what is under the path of its partial file cannot be removed. -/
  | partialFile {f g : Failure} {t u : World} (begun : Begun target w t)
      (failed : c.transfer url target t = (.error g, u)) (system : g.kind.isSystem = true)
      (stuck : u.files.tree.remove (partialPath target) = .error f) : Interrupted c url target w f
  /-- The path has become that of a directory above it. -/
  | taken {n : Nat} {t u : World} (begun : Begun target w t)
    (stored : c.transfer url target t = (.ok n, u))
      (directory : u.files.tree.find? target = .ok (some .directory)) :
      Interrupted c url target w
        (.file ⟨.isADirectory, (partialPath target).text, some target.text⟩)

theorem ensures_moving {P Q : World → Prop} {E : Failure → World → Prop}
    {f : FileTree → Except Failure FileTree} {moved : FileTree → Location → Option Location}
    (hok : ∀ w t handles, P w → f w.files.tree = .ok t → Q { w with files := ⟨t, handles⟩ })
    (herr : ∀ w g, P w → f w.files.tree = .error g → E g w) :
    Ensures P (World.onFiles (FileSystem.moving f moved)) (fun _ => Q) E := by
  intro w hw
  simp only [World.onFiles, World.within, FileSystem.moving]
  cases hresult : f w.files.tree with
  | ok t => exact hok w t _ hw hresult
  | error g => exact herr w g hw hresult

theorem moving_error {f : FileTree → Except Failure FileTree}
    {moved : FileTree → Location → Option Location} {g : Failure} (h : f w.files.tree = .error g) :
    World.onFiles (FileSystem.moving f moved) w = (.error g, w) := by
  simp only [World.onFiles, World.within, FileSystem.moving, h]

theorem ofFiles_of_onTree {α : Type} {x : Run FileTree α} {f : Failure} {t : World}
    (hx : Ensures (fun _ => True) x (fun _ _ => True) fun f _ => FileTree.OfFiles f)
    (h : World.onTree x w = (.error f, t)) : FileTree.OfFiles f := by
  have hend := hx w.files.tree trivial
  simp only [World.onTree, World.onFiles, World.within] at h
  rcases hresult : x w.files.tree with ⟨g | a, u⟩
  · rw [hresult] at h hend
    cases h
    exact hend
  · rw [hresult] at h
    cases h

def Ends (c : Client) (url : String) (target : Path) (w : World) (f : Failure) (t : World) : Prop :=
  Served t ∧ ((∃ detail, f = .api (.downloadFailed url detail)) ∨ c.Interrupted url target w f)

theorem Begun.hasNull {t : World} (h : Begun (d.child name) w t) : FileTree.hasNull d = false := by
  obtain ⟨-, hmade⟩ := h
  rw [Path.parent_child] at hmade
  simp only [World.onTree, World.onFiles, World.within] at hmade
  rcases hdirectories : FileTree.makeDirectories d w.files.tree with ⟨r, tree⟩
  rw [hdirectories] at hmade
  cases hmade
  exact FileTree.hasNull_of_makeDirectories hdirectories

theorem Begun.hasNull_partialPath {t : World} (h : Begun (d.child name) w t)
    (hname : PlainName name) :
    FileTree.hasNull (partialPath (d.child name)) = false := by
  rw [partialPath_child]
  exact FileTree.hasNull_child h.hasNull (by simp [hname.nonNull])

theorem ensures_conclude (hquiet : c.Quiet) (hname : PlainName name) {t : World} (ht : Served t)
    (hbegun : Begun (d.child name) w t) :
    Ensures (· = t) (c.conclude url (d.child name)) (fun _ => Served)
      (c.Ends url (d.child name) w) := by
  have hmoved := (ensures_transfer hquiet url (hbegun.hasNull_partialPath hname)).result ht
  refine .bind (hmoved.tryCatch fun g => ?_) fun n => ?_
  · by_cases hsystem : g.kind.isSystem = true
    · rw [if_pos hsystem]
      refine .bind (ensures_moving (Q := Served) (fun u _ _ hu _ => hu.1.1) fun u f hu hstuck => ?_)
        fun _ => ?_
      · exact ⟨hu.1.1, .inr (.partialFile hbegun hu.2 hsystem hstuck)⟩
      · exact .throw fun u hu => ⟨hu, .inl ⟨_, rfl⟩⟩
    · rw [if_neg hsystem]
      refine .throw ?_
      rintro u ⟨⟨hu, hrange⟩, hfailed⟩
      obtain ⟨e, rfl⟩ := hrange.resolve_left hsystem
      exact ⟨hu, .inr (.wait hbegun hfailed)⟩
  · refine .bind (ensures_moving (Q := Served) (fun u _ _ hu _ => hu.1.1) ?_) fun _ =>
      .pure fun u hu => hu
    rintro u f ⟨⟨hu, hstored⟩, hmoved⟩ hreplace
    obtain ⟨hdirectory, rfl⟩ := (hstored.replace_error hname hbegun.hasNull).mp hreplace
    exact ⟨hu, .inr (.taken hbegun hmoved hdirectory)⟩

theorem served_of_onTree {α : Type} {x : Run FileTree α} {r : Except Failure α} {t : World}
    (h : World.onTree x w = (r, t)) (hw : Served w) : Served t := by
  have ht : (World.onTree x w).2 = t := congrArg Prod.snd h
  rw [← ht]
  exact hw

theorem ensures_downloadFile (hquiet : c.Quiet) (hname : PlainName name) (hw : Served w)
    (hfree : w.files.tree.exists? (d.child name) = .ok false) :
    Ensures (· = w) (c.downloadFile url (d.child name)) (fun _ => Served)
      (c.Ends url (d.child name) w) := by
  have hdirectories : Ensures (· = w)
      (World.onTree (FileTree.makeDirectories (d.child name).parent))
      (fun _ t => Served t ∧ Begun (d.child name) w t) (c.Ends url (d.child name) w) := by
    rintro _ rfl
    rcases hmade : World.onTree (FileTree.makeDirectories (d.child name).parent) _ with ⟨f | ⟨⟩, t⟩
    · exact ⟨served_of_onTree hmade hw, .inr (.directory hfree hmade)⟩
    · exact ⟨served_of_onTree hmade hw, hfree, hmade⟩
  rw [downloadFile_eq c url d hname.full]
  exact hdirectories.bind fun _ t ht => ensures_conclude hquiet hname ht.1 ht.2 t rfl

theorem ensures_saveFile (hquiet : c.Quiet) (url : String) (d : Path)
    (hname : PlainName name) (hw : Served w) :
    Ensures (· = w) (c.fetcher.save url (d.child name)) (fun _ => Served)
      fun f t => Served t ∧ c.Interrupted url (d.child name) w f := by
  have hlook : Ensures (· = w) (c.fetcher.exists? (d.child name))
      (fun b s => s = w ∧ w.files.tree.exists? (d.child name) = .ok b)
      (fun f t => Served t ∧ c.Interrupted url (d.child name) w f) := by
    rintro _ rfl
    simp only [Client.fetcher, World.inspect]
    cases hknown : FileTree.exists? _ (d.child name) with
    | ok b => exact ⟨rfl, rfl⟩
    | error f => exact ⟨hw, .lookup hknown⟩
  refine hlook.bind fun b s hs => ?_
  cases b with
  | true => exact hs.1 ▸ hw
  | false =>
    have hfetch : Ensures (· = w) (c.fetcher.fetch url (d.child name)) (fun _ => Served)
        (c.Ends url (d.child name) w) :=
      (ensures_downloadFile hquiet hname hw hs.2).bind fun n => .pure fun s hs => hs
    refine Ensures.tryCatch (hfetch.bind fun n => .pure fun s hs => hs) (fun f => ?_) s hs.1
    split
    · exact .pure fun t ht => ht.1
    · rename_i hkind
      refine .throw fun t ht => ⟨ht.1, ht.2.resolve_left ?_⟩
      rintro ⟨detail, rfl⟩
      exact hkind rfl

theorem save_error (hfree : w.files.tree.exists? target = .ok false) {f : Failure} {t : World}
    (hfail : c.downloadFile url target w = (.error f, t)) (hkind : f.kind ≠ .api) :
    c.fetcher.save url target w = (.error f, t) := by
  have hlook : c.fetcher.exists? target w = (.ok false, w) := by
    simp only [Client.fetcher, World.inspect, hfree]
  have hfetch : c.fetcher.fetch url target w = (.error f, t) := by
    simp only [Client.fetcher, bind_apply, hfail]
  simp only [FileFetcher.save, bind_apply, hlook, tryCatch_apply, hfetch,
    Bool.false_eq_true, if_false, if_neg hkind]
  rfl

theorem Begun.downloadFile_eq {t : World} (h : Begun (d.child name) w t) (hname : PlainName name) :
    c.downloadFile url (d.child name) w = c.conclude url (d.child name) t := by
  rw [Client.downloadFile_eq c url d hname.full, bind_apply, h.2]

theorem Interrupted.save_eq (hquiet : c.Quiet) (hname : PlainName name)
    (hw : Served w) {f : Failure} (h : c.Interrupted url (d.child name) w f) :
    ∃ t, c.fetcher.save url (d.child name) w = (.error f, t) := by
  cases h with
  | lookup unknown =>
    refine ⟨w, ?_⟩
    simp only [FileFetcher.save, bind_apply, Client.fetcher, World.inspect, unknown]
  | @directory f t free refused =>
    have hfail : c.downloadFile url (d.child name) w = (.error f, t) := by
      rw [Client.downloadFile_eq c url d hname.full, bind_apply, refused]
    exact ⟨t, save_error free hfail
      (ofFiles_of_onTree (FileTree.ensures_makeDirectories _) refused).ne_api⟩
  | @wait e t u begun unbounded =>
    refine ⟨u, save_error begun.1 ?_ FailureKind.noConfusion⟩
    rw [begun.downloadFile_eq hname]
    simp only [conclude, bind_apply, tryCatch_apply, unbounded]
    rfl
  | @partialFile f g t u begun failed system stuck =>
    refine ⟨u, save_error begun.1 ?_ (FileTree.remove_error stuck).ne_api⟩
    have hremove : World.onFiles (FileSystem.remove (partialPath (d.child name)))
        u = (.error f, u) :=
      moving_error stuck
    rw [begun.downloadFile_eq hname]
    simp only [conclude, bind_apply, tryCatch_apply, failed, if_pos system, hremove]
  | @taken n t u begun stored directory =>
    refine ⟨u, save_error begun.1 ?_ FailureKind.noConfusion⟩
    have htransfer := ensures_transfer hquiet url (begun.hasNull_partialPath hname)
    have hstored : Stored (partialPath (d.child name)) u :=
      (htransfer.ok (served_of_onTree begun.2 hw) stored).2
    have hreplace : World.onFiles (FileSystem.replace (partialPath (d.child name)) (d.child name))
        u = (.error _, u) := moving_error
          ((hstored.replace_error hname begun.hasNull).mpr ⟨directory, rfl⟩)
    rw [begun.downloadFile_eq hname]
    simp only [conclude, bind_apply, tryCatch_apply, stored, hreplace]

theorem save_error_iff (hquiet : c.Quiet) (hname : PlainName name) (hw : Served w) {f : Failure} :
    (∃ t, c.fetcher.save url (d.child name) w = (.error f, t)) ↔
    c.Interrupted url (d.child name) w f := by
  refine ⟨?_, Interrupted.save_eq hquiet hname hw⟩
  rintro ⟨t, hfail⟩
  have hend := ensures_saveFile hquiet url d hname hw w rfl
  rw [hfail] at hend
  exact hend.2

end Client

/-! ### The whole download -/

namespace FileFetcher

variable {c : Client} {journal : Journal World} {w u : World} {before : List Job}
  {savings : List Saving}

def Job.Plain (job : Job) : Prop := ∃ (d : Path) (name : String), PlainName name ∧
    job.1 = d.child name

theorem plain_of_mem_jobs {root : Path} {cs : List Collection} {job : Job}
    (h : job ∈ jobs root cs) :
    Job.Plain job := by
  obtain ⟨collection, -, hjob⟩ := List.mem_flatMap.mp h
  obtain ⟨q, -, rfl⟩ := List.mem_map.mp hjob
  exact ⟨collection.directory root, cleanComponent q.name, plainName_cleanComponent q.name, rfl⟩

theorem Course.served (hquiet : c.Quiet) (hjournal : journal.Quiet (·.session.script))
    (hplain : ∀ job ∈ before, Job.Plain job) (hserved : Client.Served w)
    (h : Course c.fetcher journal w before savings u) : Client.Served u := by
  induction h with
  | nil => exact hserved
  | @told s t u _ _ level event fields telling _ ih =>
    obtain ⟨t', htell, hscript⟩ := hjournal level event fields s
    rw [telling] at htell
    cases htell
    change t.session.script = s.session.script at hscript
    refine ih hplain ?_
    rwa [Client.Served, hscript]
  | saved saving_eq _ ih =>
    obtain ⟨⟨d, name, hname, htarget⟩, hrest⟩ := List.forall_mem_cons.mp hplain
    rw [htarget] at saving_eq
    exact ih hrest ((Client.ensures_saveFile hquiet _ d hname hserved).ok rfl saving_eq)

end FileFetcher

open FileFetcher in
/-- Whatever the server does and whatever is among the files, a download either goes through all
posts of all collections, in order, and counts each of them once, or it comes to a post whose saving
is interrupted, and fails there in the same way. -/
theorem download_unless_interrupted (c : Client) (journal : Journal World) (root : Path)
    (cs : List Collection) (w : World) (hquiet : c.Quiet)
    (hjournal : journal.Quiet (·.session.script)) (hserved : Client.Served w) :
    (∃ savings t, c.fetcher.download journal root cs w = (.ok (.ofSavings cs savings), t) ∧
      Course c.fetcher journal w (jobs root cs) savings t ∧
      savings.length = (cs.flatMap (·.posts)).length ∧
      (DownloadReport.ofSavings cs savings).downloaded +
        (DownloadReport.ofSavings cs savings).existing +
        (DownloadReport.ofSavings cs savings).failed = (cs.flatMap (·.posts)).length) ∨
    ∃ before job later savings u f t, jobs root cs = before ++ job :: later ∧
      Course c.fetcher journal w before savings u ∧ c.Interrupted job.2 job.1 u f ∧
      c.fetcher.download journal root cs w = (.error f, t) := by
  have htakes : Takes c.fetcher journal (jobs root cs) (c.fetcher.download journal root cs) _ :=
    takes_download hjournal root cs
  rcases htakes w with ⟨savings, _, t, hrun, hcourse, rfl⟩ |
    ⟨before, job, later, savings, u, f, t, hjobs, hcourse, hfail, hrun⟩
  · have hlength : savings.length = (cs.flatMap (·.posts)).length := by
      rw [hcourse.length_eq]
      simp [jobs, List.length_flatMap]
    refine .inl ⟨savings, t, hrun, hcourse, hlength, ?_⟩
    rw [DownloadReport.ofSavings, DownloadReport.countAll_total, List.length_zip, hlength]
    simp [DownloadReport.countFull]
  · have hmem (e : Job) (he : e ∈ before ++ [job]) : Job.Plain e := by
      have hin : e ∈ jobs root cs := by
        rw [hjobs, List.append_cons]
        exact List.mem_append_left _ he
      exact plain_of_mem_jobs hin
    have hu := hcourse.served hquiet hjournal (fun e he => hmem e (List.mem_append_left _ he))
      hserved
    obtain ⟨d, name, hname, htarget⟩ := hmem job (by simp)
    have hinterrupted := (Client.save_error_iff hquiet hname hu).mp ⟨t, htarget ▸ hfail⟩
    rw [← htarget] at hinterrupted
    exact .inr ⟨before, job, later, savings, u, f, t, hjobs, hcourse, hinterrupted, hrun⟩

def plainClient : Client := { site := {}, policy := .standard, onRetry := World.noteRetry }

def singlePost : Collection :=
  ⟨Collection.singlePosts, Collection.atRoot, [⟨1, "https://h/1", "a.png", 0⟩]⟩

def outDirectory : Path := ⟨"", ["out"]⟩

def blocked : World :=
  { session := { script := .inOrder [] (.ok { body := [.ok .empty] }) }
    files :=
      { tree := { entries := [(["out"], .directory), (["out", "Single Posts"], .file .empty)] } }
    now := ⟨0⟩
    draw := 0 }

def occupied : Failure := .file ⟨.occupied, "out/Single Posts", none⟩

theorem quiet_plainClient : plainClient.Quiet := fun _ _ => ⟨_, rfl, rfl⟩

theorem served_blocked : Client.Served blocked := ⟨nofun, by simp [Exchange.Honest, Chunk.Honest]⟩

theorem interrupted_blocked :
    plainClient.Interrupted "https://h/1" ⟨"", ["out", "Single Posts", "a.png"]⟩
      blocked occupied := by
  have htree : FileTree.makeDirectories ⟨"", ["out", "Single Posts"]⟩ blocked.files.tree =
      (.error occupied, blocked.files.tree) := by
    rw [FileTree.makeDirectories]
    rfl
  refine .directory (t := blocked) rfl ?_
  simp only [World.onTree, World.onFiles, World.within, Path.parent, List.dropLast]
  rw [htree]

theorem stops_blocked :
    ∃ t, plainClient.fetcher.download none outDirectory [singlePost] blocked =
      (.error occupied, t) := by
  have hname : PlainName "a.png" := ⟨by decide, by decide, by decide⟩
  obtain ⟨t, hsave⟩ := Client.Interrupted.save_eq (d := ⟨"", ["out", "Single Posts"]⟩)
    quiet_plainClient hname
    served_blocked interrupted_blocked
  have htarget : (singlePost.directory outDirectory).child (cleanComponent "a.png") =
      Path.child ⟨"", ["out", "Single Posts"]⟩ "a.png" := by decide
  have hfirst : plainClient.fetcher.saveCollection none outDirectory singlePost {} blocked =
      (.error occupied, t) := by
    rw [FileFetcher.saveCollection, if_neg (by decide), bind_apply]
    change plainClient.fetcher.savePosts _ _ [⟨1, "https://h/1", "a.png", 0⟩] _ blocked = _
    rw [FileFetcher.savePosts, bind_apply, htarget, hsave]
  exact ⟨t, by rw [FileFetcher.download, List.foldlM_cons, bind_apply, bind_apply, hfirst]⟩

/-- One file in the way, and no report comes of a download. -/
theorem download_blocked :
    (∃ t, plainClient.fetcher.download none outDirectory [singlePost] blocked =
      (.error occupied, t)) ∧
    ∃ job ∈ FileFetcher.jobs outDirectory [singlePost], ∃ u,
      plainClient.Interrupted job.2 job.1 u occupied := by
  obtain ⟨v, hstop⟩ := stops_blocked
  rcases download_unless_interrupted plainClient none outDirectory [singlePost]
    blocked quiet_plainClient
      (Journal.quiet_silent _) served_blocked with
    ⟨savings, t, hrun, -⟩ | ⟨before, job, later, savings, u, f, t, hjobs, -, hinterrupted, hrun⟩
  · cases hstop.symm.trans hrun
  · cases hstop.symm.trans hrun
    exact ⟨⟨v, hstop⟩, job, by simp [hjobs], u, hinterrupted⟩

end Booru
