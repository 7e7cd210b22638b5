import Booru.Proofs.Client.Contract
import Booru.Proofs.Download.Interruption
import Booru.Proofs.Search.Failures

/-! What the questions of a client fail with, and its downloads, whatever the network and the server
do. A client that is asked in the right way makes no mistake itself. -/

namespace Booru

open Run Retry

variable {α : Type} {H : Prop} {I : FileSystem → Prop} {Q : α → Prop} {F : Failure → Prop}

namespace World

theorem ServedAndFilesIn.of_files {w : World} (h : I w.files) :
    ServedAndFilesIn False I w := ⟨False.elim, h⟩

theorem upholds_of_ensures {x : Run World α}
    (h : Ensures (fun w => I w.files) x (fun _ w => I w.files)
    fun _ w => I w.files) : Upholds (ServedAndFilesIn False I) x (fun _ => True) fun _ => True :=
  ⟨(h.weaken (fun _ hw => hw.2) fun _ _ hw => ⟨.of_files hw, trivial⟩).weakenError fun _ _ hw =>
    ⟨.of_files hw, trivial⟩⟩

theorem ensures_of_upholds {x : Run World α} (h : Upholds (ServedAndFilesIn False I) x Q F) :
    Ensures (fun w => I w.files) x (fun a w => I w.files ∧ Q a) fun _ w => I w.files :=
  (h.ensures.weaken (fun _ hw => .of_files hw) fun _ _ hw => ⟨hw.1.2, hw.2⟩).weakenError
    fun _ _ hw => hw.1.2

theorem upholds_onFiles {x : Run FileSystem α} (h : Upholds I x Q F) :
    Upholds (ServedAndFilesIn H I) (onFiles x) Q F := by
  refine ⟨fun w hw => ?_⟩
  have hend := h.ensures w.files hw.2
  simp only [onFiles, within]
  rcases hx : x w.files with ⟨f | a, s⟩ <;> rw [hx] at hend
  · exact ⟨⟨hw.1, hend.1⟩, hend.2⟩
  · exact ⟨⟨hw.1, hend.1⟩, hend.2⟩

theorem upholds_inspect {P : World → Prop} {f : FileTree → Except Failure α}
    (h : ∀ t g, f t = .error g → F g) : Upholds P (inspect f) (fun _ => True) F := by
  refine ⟨fun w hw => ?_⟩
  simp only [inspect]
  cases hresult : f w.files.tree with
  | ok a => exact ⟨hw, trivial⟩
  | error g => exact ⟨hw, h _ _ hresult⟩

end World

theorem FileTree.OfFiles.noMistake {f : Failure} (h : OfFiles f) : f.NoMistake H := by
  cases h with
  | refused e =>
    exact ⟨rfl, fun _ => (by cases hp : e.problem <;> simp [Failure.kind, FileProblem.kind, hp])⟩
  | nullByte => exact .of_eq_false rfl

theorem Failure.noMistake_raised {fault : Fault} (h : H → fault.kind.isRequest = true) :
    (raised fault).NoMistake H := by
  refine ⟨rfl, fun hH hkind => ?_⟩
  have hrequest := h hH
  rw [show fault.kind = .precondition from hkind] at hrequest
  exact absurd hrequest Bool.false_ne_true

namespace Client

variable {c : Client}

theorem fetchUser_eq (c : Client) {name : Option String} (hname : Text.strip (name.getD "") ≠ "") :
    c.fetchUser name = c.entry "users.show" (userPath (Text.strip (name.getD "")))
      ("User " ++ Text.strip (name.getD "")) := by
  unfold fetchUser
  dsimp only
  rw [if_neg (by simpa using hname)]

section Asking

variable (hnoted : ∀ e, Upholds (World.ServedAndFilesIn H I) (c.onRetry e) (fun _ => True)
  (Failure.NoMistake H))
include hnoted

theorem keepsAndFailsIn (r : Request) : (World.surroundings r c.onRetry).KeepsAndFailsIn
    (World.ServedAndFilesIn H I) (fun r => H → ∀ chunk ∈ r.body, chunk.Honest)
    (Failure.NoMistake H) where
  asked := by
    refine (World.ensures_ask r c.onRetry).weakenError ?_
    rintro _ w ⟨hw, fault, rfl, hfault⟩
    exact ⟨hw, Failure.noMistake_raised hfault⟩
  refused _ := .of_eq_false rfl
  ranged _ := .of_eq_false rfl
  released _ _ hw := hw
  hinted _ _ _ hf := by
    obtain ⟨e, rfl⟩ := World.readHint_error hf
    exact .of_eq_false rfl
  drawn _ hw := hw
  slept _ _ hw := hw
  noted e := (hnoted e).ensures.weaken (fun _ hw => hw) fun _ _ hw => hw.1

theorem upholds_send (operation : String) (r : Request) :
    Upholds (World.ServedAndFilesIn H I) (c.send operation r)
    (fun r => H → ∀ chunk ∈ r.body, chunk.Honest) (Failure.NoMistake H) :=
  ⟨(keepsAndFailsIn hnoted r).ensures_attempts c.policy operation r.url _ 1⟩

theorem upholds_explaining {refused failed : Failure → Failure}
    (hrefused : ∀ f, (refused f).NoMistake H) (hfailed : ∀ f, (failed f).NoMistake H)
    (operation path : String) (query : List (String × String)) :
    Upholds (World.ServedAndFilesIn H I)
      (explaining refused failed (c.getJson operation path query)) (fun _ => True)
      (Failure.NoMistake H) := by
  refine .tryCatch (G := Failure.NoMistake H) ((upholds_send hnoted _ _).bind fun r hr => ?_)
    fun f hf => .throw ?_
  · refine .lift (fun _ _ => trivial) fun f hf => ?_
    obtain ⟨fault, hmem, rfl⟩ | ⟨text, fault, rfl⟩ :
        (∃ fault, .error fault ∈ r.body ∧ f = .raised fault) ∨
        ∃ text fault, f = .malformedBody text fault := by
      simp only [Response.json, Response.text, bind, Except.bind] at hf
      cases hcontent : r.content with
      | error fault =>
        rw [hcontent] at hf
        cases hf
        exact .inl ⟨fault, content_error hcontent, rfl⟩
      | ok bytes =>
        simp only [hcontent, mapError_ok, Except.map] at hf
        cases hread : Json.read (Response.textOf bytes) <;> rw [hread] at hf <;> cases hf
        exact .inr ⟨_, _, rfl⟩
    · exact Failure.noMistake_raised fun hH => hr hH _ hmem fault rfl
    · cases fault <;> exact .of_eq_false rfl
  · split
    · exact hrefused f
    · split
      · exact hfailed f
      · exact hf

theorem upholds_entry (operation path what : String) :
    Upholds (World.ServedAndFilesIn H I) (c.entry operation path what) (fun _ => True)
      (Failure.NoMistake H) := by
  refine (upholds_explaining hnoted (fun _ => .of_eq_false rfl) (fun _ => .of_eq_false rfl)
    operation path []).bind
    fun data _ => ?_
  split
  · exact .pure trivial
  · exact .throw (.of_eq_false rfl)

theorem upholds_lookupUser (name : Option String) (hname : Text.strip (name.getD "") ≠ "") :
    Upholds (World.ServedAndFilesIn H I) (c.lookupUser name) (fun _ => True)
      (Failure.NoMistake H) := by
  have hrefused (user : String) (f : Failure) : (refusedLookup user f).NoMistake H := by
    simp only [refusedLookup]
    repeat' split
    all_goals exact .of_eq_false rfl
  unfold lookupUser
  dsimp only
  rw [if_neg (by simpa using hname)]
  refine (upholds_explaining hnoted (hrefused _) (fun _ => .of_eq_false rfl) _ _ []).bind
    fun data _ => ?_
  split
  · exact .pure trivial
  · exact .throw (.of_eq_false rfl)

theorem upholds_fetchBlacklist (username : Option String)
    (hname : Text.strip ((nonEmpty? username).getD c.credentials.username) ≠ "") :
    Upholds (World.ServedAndFilesIn H I) (c.fetchBlacklist username) (fun _ => True)
      (Failure.NoMistake H) := by
  unfold fetchBlacklist
  dsimp only
  rw [if_neg (by simpa using hname), fetchUser_eq c (by rwa [Option.getD_some, Text.strip_strip])]
  exact (upholds_entry hnoted _ _ _).bind fun user _ => .pure trivial

theorem upholds_fetchPost (ref : EntryRef) :
    Upholds (World.ServedAndFilesIn H I) (c.fetchPost ref) (fun _ => True)
      (Failure.NoMistake H) := by
  refine (upholds_entry hnoted _ _ _).bind fun data _ => ?_
  split
  · exact .pure trivial
  · exact .throw (.of_eq_false rfl)

theorem upholds_searchPosts (tags : Option String) (page : Int)
    (limit : Option Int) (hpage : 1 ≤ page) (hnonempty : 1 ≤ limit.getD c.site.postsPerPage)
    (hfull : limit.getD c.site.postsPerPage ≤ maxPageSize) :
    Upholds (World.ServedAndFilesIn H I) (c.searchPosts tags page limit) (fun _ => True)
      (Failure.NoMistake H) := by
  unfold searchPosts
  dsimp only
  rw [if_neg (Int.not_lt.mpr hpage), if_neg (by simp [hnonempty, hfull])]
  refine (upholds_explaining hnoted (fun _ => .of_eq_false rfl)
    (fun _ => .of_eq_false rfl) _ _ _).bind
    fun data _ => ?_
  split
  · exact .pure trivial
  · exact .throw (.of_eq_false rfl)

theorem within_board (hname : c.isAuthenticated = true → Text.strip c.credentials.username ≠ "") :
    c.board.Within (World.ServedAndFilesIn H I) H where
  fetchBlacklist hauthenticated := by
    dsimp only [board]
    refine upholds_fetchBlacklist hnoted none ?_
    rw [show (nonEmpty? none).getD c.credentials.username = c.credentials.username from rfl]
    exact hname hauthenticated
  lookupUser name hname := (upholds_lookupUser hnoted (some name) hname).bind
    fun _ _ => .pure trivial
  searchPosts tags page limit hpage hnonempty hfull :=
    upholds_searchPosts hnoted (some tags) page (some limit) (by omega) hnonempty hfull
  fetchPost := upholds_fetchPost hnoted
  fetchPool _ := upholds_entry hnoted _ _ _
  fetchSet _ := upholds_entry hnoted _ _ _

end Asking

/-! ### Files -/

theorem upholds_followedBy {P : World → Prop} {x : Run World α} {cleanUp : World → World}
    (hx : Upholds P x Q F)
    (h : ∀ w, P w → P (cleanUp w)) : Upholds P (followedBy x cleanUp) Q F :=
  ⟨ensures_followedBy hx.ensures (fun _ w hw => ⟨h w hw.1, hw.2⟩) fun _ w hw => ⟨h w hw.1, hw.2⟩⟩

theorem noMistake_openFile (p : Path) (append : Bool) :
    Upholds (fun _ => True) (FileSystem.openFile p append) (fun _ => True)
      (Failure.NoMistake H) := by
  refine .of_error fun s f t h => ?_
  unfold FileSystem.openFile at h
  split at h
  · rename_i g hopen
    cases h
    exact (FileTree.openFile_refused hopen).noMistake
  · cases h

theorem noMistake_write (handle : Nat) (bytes : ByteArray) :
    Upholds (fun _ => True) (FileSystem.write handle bytes) (fun _ => True)
      (Failure.NoMistake H) := by
  refine .of_error fun s f t h => ?_
  obtain rfl : f = .argument .closedFile := by
    unfold FileSystem.write at h
    split at h
    · cases h
      rfl
    · split at h
      · cases h
        rfl
      · split at h <;> cases h
  exact .of_eq_false rfl

theorem noMistake_moving {f : FileTree → Except Failure FileTree}
    {moved : FileTree → Location → Option Location}
    (h : ∀ t g, f t = .error g → FileTree.OfFiles g) :
    Upholds (fun _ => True) (FileSystem.moving f moved) (fun _ => True) (Failure.NoMistake H) := by
  refine .of_error fun s g t hmoving => ?_
  unfold FileSystem.moving at hmoving
  split at hmoving
  · rename_i g hresult
    cases hmoving
    exact (h _ _ hresult).noMistake
  · cases hmoving

theorem noMistake_makeDirectories (p : Path) : Upholds (World.ServedAndFilesIn H fun _ => True)
    (World.onTree (FileTree.makeDirectories p)) (fun _ => True) (Failure.NoMistake H) := by
  refine World.upholds_onFiles ⟨fun s _ => ?_⟩
  have hend := FileTree.ensures_makeDirectories p s.tree trivial
  simp only [World.within]
  rcases hmade : FileTree.makeDirectories p s.tree with ⟨f | ⟨⟩, t⟩ <;> rw [hmade] at hend
  · exact ⟨trivial, hend.noMistake⟩
  · exact ⟨trivial, trivial⟩

theorem noMistake_save (handle : Nat) {chunks : List Chunk}
    (h : H → ∀ chunk ∈ chunks, chunk.Honest) (written : Nat) :
    Upholds (World.ServedAndFilesIn H fun _ => True) (save handle chunks written) (fun _ => True)
      (Failure.NoMistake H) := by
  induction chunks generalizing written with
  | nil => exact .pure trivial
  | cons chunk rest ih =>
    cases chunk with
    | error fault =>
      exact .throw (Failure.noMistake_raised fun hH => h hH _ List.mem_cons_self fault rfl)
    | ok bytes =>
      refine (World.upholds_onFiles (noMistake_write handle bytes)).bind fun _ _ => ih ?_ _
      exact fun hH chunk hchunk => h hH chunk (List.mem_cons_of_mem _ hchunk)

theorem noMistake_downloadFile
    (hnoted : ∀ e, Upholds (World.ServedAndFilesIn H fun _ => True) (c.onRetry e) (fun _ => True)
      (Failure.NoMistake H))
    (url : String) (target : Path) :
    Upholds (World.ServedAndFilesIn H fun _ => True) (c.downloadFile url target) (fun _ => True)
      (Failure.NoMistake H) := by
  unfold downloadFile
  split
  · exact .throw (.of_eq_false rfl)
  refine (noMistake_makeDirectories target.parent).bind fun _ _ =>
    .bind (Q := fun _ => True) ?_ fun n _ => ?_
  · refine .tryCatch (G := Failure.NoMistake H) ?_ fun f hf => ?_
    · refine (upholds_send hnoted _ _).bind fun r hr => upholds_followedBy ?_ fun w hw => hw
      refine (World.upholds_onFiles (noMistake_openFile _ _)).bind fun handle _ => ?_
      exact upholds_followedBy (noMistake_save handle hr 0) fun w hw => hw
    · split
      · exact .throw hf
      · refine (World.upholds_onFiles (noMistake_moving fun _ _ => FileTree.remove_error)).bind
          fun _ _ => ?_
        exact .throw (.of_eq_false rfl)
  · exact (World.upholds_onFiles (noMistake_moving fun _ _ => FileTree.replace_refused)).bind
      fun _ _ => .pure trivial

end Client
end Booru
