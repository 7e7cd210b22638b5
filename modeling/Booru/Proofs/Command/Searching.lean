import Booru.Proofs.Command.Recording

/-! How a search ends: with the posts written as a whole, or with the posts that were there before.
The log says in its last record which. -/

namespace Booru

open Run FileTree

namespace Command

variable {log : Logger} {l : Location} {t t₀ : FileTree} {d p : Path} {v : World}

/-- From `t₀` on only the log has changed and directories on the way to it were made, and since `t`
all directories stand. -/
def OnlyLogged (d p : Path) (t₀ t u : FileTree) : Prop := Spared d [p] t₀ u ∧ Widened t u

theorem ignored_onlyLogged (hplace : t.locate? p = .ok l) :
    Logger.Ignored l (OnlyLogged d p t₀ t) := by
  rintro u content ⟨hspared, hwidened⟩ hplain
  refine ⟨(hspared.touched (touched_put (hwidened.locate? hplace) hplain)).mono ?_,
    hwidened.put hplain⟩
  simp

/-- Beside the log a file is under a path, and since `t` all directories stand. -/
structure Written (p : Path) (l : Location) (content : ByteArray) (t u : FileTree) : Prop where
  widened : Widened t u
  sound : hasNull p = false
  beside : ∃ k, k ≠ l ∧ u.locate? p = .ok k ∧ u.entry? k = some (.file content)

theorem Written.find? {content : ByteArray} {u : FileTree} (h : Written p l content t u) :
    u.find? p = .ok (some (.file content)) := by
  obtain ⟨k, -, hplace, hentry⟩ := h.beside
  exact find?_eq_some.mpr ⟨h.sound, k, hplace, hentry⟩

theorem ignored_written {content : ByteArray} : Logger.Ignored l (Written p l content t) := by
  rintro u other ⟨hwidened, hsound, k, hne, hplace, hentry⟩ hplain
  exact ⟨hwidened.put hplain, hsound, k, hne, locate?_put hplain hplace,
    (entry?_put_of_ne hne).trans hentry⟩

/-! ### The posts that are collected -/

theorem ensures_run_short {plan : SearchPlan World} (hlog : plan.journal = .ofLogger log)
    (board : Board World)
    (tags : String) : Ensures (fun _ => True) (plan.run board tags)
      (fun r _ => ¬ Text.isLong r.posts.length = true) fun _ _ => True := by
  rw [SearchPlan.run_eq]
  split
  · exact .throw fun _ _ => trivial
  · refine .bind (Q := fun _ _ => True) (.of_state fun _ _ => trivial) fun r => ?_
    refine .bind (Q := fun _ _ => ¬ Text.isLong r.posts.length = true) (.of_ok fun w _ u _ h => ?_)
      fun _ =>
      .pure fun _ hr => hr
    rw [hlog] at h
    exact Logger.not_hasLongInteger_told "kept" h rfl

theorem ensures_collect_short (environment : List (String × String))
    (task : SearchTask) (log : Logger) :
    Ensures (fun _ => True) (collect environment task log)
      (fun r _ => ¬ Text.isLong r.posts.length = true)
      fun _ _ => True := by
  refine .bind (Q := fun _ _ => True) (.of_state fun _ _ => trivial) fun opened => ?_
  refine Client.ensures_followedBy (E := fun _ _ => True) ?_ (fun _ _ hr => hr) fun _ _ _ => trivial
  refine .bind (Q := fun _ _ => True) (.of_state fun _ _ => trivial) fun blacklist => ?_
  refine .bind (Q := fun plan _ => plan.journal = .ofLogger log)
    (.bind (Q := fun _ _ => True) (fun _ _ => trivial)
    fun _ => .pure fun _ _ => rfl) fun plan w hlog => ?_
  exact ensures_run_short hlog _ _ w trivial

theorem ensures_collect {J : FileTree → Prop} (hJ : Logger.Ignored l J)
    (environment : List (String × String)) (task : SearchTask) :
    Ensures (fun w => log.Keeps l J w.files) (collect environment task log)
      (fun r w => log.Keeps l J w.files ∧ ¬ Text.isLong r.posts.length = true) fun _ w =>
        log.Keeps l J w.files := by
  have hkept : Upholds (World.ServedAndFilesIn False (log.Keeps l J))
      (collect environment task log) (fun _ => True)
      fun _ => True := by
    refine (upholds_openClient (Logger.within_ofLogger hJ log) task.config environment).bind
      fun r hsound => ?_
    exact upholds_closing ((hsound.searchBoard task.tags).weakenError fun _ _ => trivial)
      fun _ hw => hw
  intro w hw
  have hend := World.ensures_of_upholds hkept w hw
  have hshort := ensures_collect_short environment task log w trivial
  rcases hrun : collect environment task log w with ⟨f | r, u⟩ <;> rw [hrun] at hend hshort
  · exact hend
  · exact ⟨hend.1, hshort⟩

/-! ### The posts that are written -/

theorem writeBytes_ok {u : FileTree} {content : ByteArray} (h : t.writeBytes p content = .ok u) :
    Touched p t u ∧ hasNull p = false ∧ ∃ k, u.locate? p = .ok k ∧
    u.entry? k = some (.file content) := by
  cases hopen : t.openFile p false with
  | error f => simp [writeBytes, hopen, bind, Except.bind] at h
  | ok opened =>
    obtain ⟨s, k⟩ := opened
    obtain ⟨htouched, hnull, hplace, hentry⟩ := openFile_anew hopen
    have hplain : s.entry? k ≠ some .directory := by simp [hentry]
    simp only [writeBytes, hopen, bind, Except.bind, pure, Except.pure, Except.ok.injEq] at h
    subst h
    exact ⟨htouched.trans (touched_put hplace hplain), hnull, k, locate?_put hplain hplace,
      entry?_put_self (ne_nil_of_not_directory hplain)⟩

theorem ensures_writeBytes (log : Logger) (t₀ : FileTree)
    (hplace : t.locate? (d.child "run.log") = .ok l) (content : ByteArray) :
    Ensures (fun w => log.Keeps l (OnlyLogged d (d.child "run.log") t₀ t) w.files)
      (World.change (·.writeBytes (d.child "posts.json") content))
      (fun _ w => log.Keeps l (Written (d.child "posts.json") l content t) w.files)
      fun _ w => log.Keeps l (OnlyLogged d (d.child "run.log") t₀ t) w.files := by
  intro w hw
  simp only [World.change, World.onTree, World.onFiles, World.within, FileTree.change]
  cases hwrite : w.files.tree.writeBytes (d.child "posts.json") content with
  | error f => exact hw
  | ok u =>
    obtain ⟨⟨-, hwidened⟩, records, hunbound, hopened, hentry⟩ := hw
    obtain ⟨htouched, hnull, k, hk, hposts⟩ := writeBytes_ok hwrite
    -- log and posts are two names in one directory, so that writing the one
    -- leaves the other as it is
    have hlog := (hwidened.trans htouched.widened).locate? hplace
    have hne : k ≠ l := locate?_child_ne (by decide) (by decide) (by decide) hk hlog
    refine ⟨⟨hwidened.trans htouched.widened, hnull, k, hne, hk, hposts⟩, records,
      hunbound, hopened, ?_⟩
    obtain hsame | ⟨hk', -, -⟩ := htouched.only l
    · exact hsame.trans hentry
    · exact absurd (Except.ok.inj (hk.symm.trans (htouched.locate?_iff.mp hk'))) hne

theorem ensures_writeText (log : Logger) (t₀ : FileTree)
    (hplace : t.locate? (d.child "run.log") = .ok l) (text : String) :
    Ensures (fun w => log.Keeps l (OnlyLogged d (d.child "run.log") t₀ t) w.files)
      (World.writeText (d.child "posts.json") text)
      (fun _ w => log.Keeps l (Written (d.child "posts.json") l text.toUTF8 t) w.files)
      fun f w => log.Keeps l (OnlyLogged d (d.child "run.log") t₀ t) w.files ∨
        (∃ e : OutputError, f = .raised e.fault) ∧
          ∃ n, log.Keeps l (Written (d.child "posts.json") l (text.toUTF8.extract 0 n) t)
            w.files := by
  have hwritten (content : ByteArray) := ensures_writeBytes log t₀ hplace content
  refine .bind (Q := fun _ (w : World) =>
    log.Keeps l (OnlyLogged d (d.child "run.log") t₀ t) w.files)
    (fun _ hw => hw) fun w => ?_
  cases hlimit : w.shortage with
  | none => exact (hwritten text.toUTF8).weakenError fun _ _ hw => .inl hw
  | some limit =>
    obtain ⟨stored, e⟩ := limit
    refine ((hwritten (text.toUTF8.extract 0 stored)).weakenError fun _ _ hw => .inl hw).bind
      fun _ => ?_
    exact .throw fun _ hpart => .inr ⟨⟨e, rfl⟩, stored, hpart⟩

/-- A part of the posts of a search, from their beginning on. All of them are one, too. -/
def PartOfPosts (environment : List (String × String)) (task : SearchTask)
    (log : Logger) (v : World)
    (content : ByteArray) : Prop :=
  ∃ result u n, collect environment task log v = (.ok result, u) ∧
    content = (postsDocument result.posts).toUTF8.extract 0 n

/-- How a search leaves the files that fails. The posts are as they were, unless there was no more
room for them or for what is said of them in the end. -/
def Leaves (environment : List (String × String)) (task : SearchTask) (log : Logger)
    (v : World) (l : Location) (t₀ t : FileTree) (f : Failure) (u : FileTree) : Prop :=
  OnlyLogged task.directory task.logPath t₀ t u ∨ (∃ e : OutputError, f = .raised e.fault) ∧
    ∃ content, PartOfPosts environment task log v content ∧ Written task.postsPath l content t u

variable {environment : List (String × String)} {task : SearchTask} {f : Failure}

theorem ignored_leaves (hplace : t.locate? task.logPath = .ok l) :
    Logger.Ignored l (Leaves environment task log v l t₀ t f) := by
  rintro u content (honly | ⟨hfault, part, hpart, hwritten⟩) hplain
  · exact .inl (ignored_onlyLogged hplace u content honly hplain)
  · exact .inr ⟨hfault, part, hpart, ignored_written u content hwritten hplain⟩

theorem ensures_writePosts (hplace : t.locate? task.logPath = .ok l)
    {result : SearchResult} {u : World}
    (hcollected : collect environment task log v = (.ok result, u)) :
    Ensures (fun w => log.Keeps l (OnlyLogged task.directory task.logPath t₀ t) w.files)
      (writePosts task.postsPath result.posts)
      (fun _ w => log.Keeps l (Written task.postsPath l (postsDocument result.posts).toUTF8 t)
        w.files)
      fun f w => log.Keeps l (Leaves environment task log v l t₀ t f) w.files := by
  have hmade : Upholds (World.ServedAndFilesIn False
      (log.Keeps l (OnlyLogged task.directory task.logPath t₀ t)))
      (World.onTree (makeDirectories task.directory)) (fun _ => True) fun _ => True :=
    Logger.upholds_makeDirectories fun u v hu hgrown =>
      ⟨hu.1.grown hgrown, hu.2.trans hgrown.widened⟩
  rw [writePosts, SearchTask.postsPath, Path.parent_child]
  refine ((World.ensures_of_upholds hmade).weakenError fun _ _ hw => hw.mono fun _ => .inl).bind
    fun _ => ?_
  refine .bind (Q := fun text w =>
    log.Keeps l (OnlyLogged task.directory task.logPath t₀ t) w.files ∧
    text ++ "\n" = postsDocument result.posts) (.lift (fun text htext w hw => ?_)
      fun g _ w hw => ?_) fun text => ?_
  · refine ⟨hw.1, ?_⟩
    unfold Json.write at htext
    split at htext <;> cases htext
    rfl
  · exact hw.1.mono fun _ => .inl
  · rintro w ⟨hw, hdocument⟩
    have hwritten := ensures_writeText log t₀ hplace (text ++ "\n")
    rw [hdocument] at hwritten ⊢
    refine hwritten.weakenError (fun f x hx => ?_) w hw
    obtain honly | ⟨hfault, n, hpart⟩ := hx
    · exact honly.mono fun _ => .inl
    · exact hpart.mono fun _ hx => .inr ⟨hfault, _, ⟨result, u, n, hcollected, rfl⟩, hx⟩

theorem ensures_printSearch {P : FileSystem → Prop} (task : SearchTask) (r : SearchResult) :
    Ensures (fun w => P w.files) (printSearch task r) (fun _ w => P w.files)
      fun f w => P w.files ∧ ∃ e : OutputError, f = .raised e.fault :=
  (ensures_printLine _).bind fun _ => (ensures_printLine _).bind fun _ =>
    (ensures_printLine _).bind fun _ =>
    (ensures_printLine _).bind fun _ => (ensures_printLine _).bind fun _ => ensures_printLine _

/-! ### Searches -/

/-- The posts that were collected are under their path, and the last record is
that they were written. -/
structure SearchDone (environment : List (String × String)) (task : SearchTask)
    (log : Logger) (v : World)
    (t : FileTree) : Prop where
  posts : ∃ result u, collect environment task log v = (.ok result, u) ∧
    t.find? task.postsPath = .ok (some (.file (postsDocument result.posts).toUTF8))
  last : RunLog.EndsIn task.logPath t (·.member "event" = .string "posts_written")

theorem ensures_searchAndWrite (hnull : hasNull task.logPath = false)
    (hplace : t.locate? task.logPath = .ok l)
    (hv : log.Keeps l (OnlyLogged task.directory task.logPath t₀ t) v.files) :
    Ensures (· = v) (searchAndWrite environment task log)
      (fun _ w => SearchDone environment task log v w.files.tree)
      fun f w => log.Keeps l (Leaves environment task log v l t₀ t f) w.files := by
  have hcollect := (ensures_collect (ignored_onlyLogged hplace) environment task).result hv
  refine (hcollect.weakenError fun _ _ hw => hw.1.mono fun _ => .inl).bind fun result => ?_
  rintro u ⟨⟨hu, hcount⟩, hcollected⟩
  refine ((ensures_writePosts hplace hcollected).bind fun _ => ?_) u hu
  rintro w ⟨hwritten, records, hholds⟩
  have hnames : ∀ m ∈ postsWritten task result, m.1 ∉ ["self", "level", "event"] := by
    simp [postsWritten]
  have hshort : ∀ m ∈ postsWritten task result, ¬ m.2.hasLongInteger = true := by
    simpa [postsWritten, Json.hasLongInteger] using hcount
  have hprinted := ensures_printSearch (P := fun s =>
    log.Keeps l (Written task.postsPath l (postsDocument result.posts).toUTF8 t) s ∧
      RunLog.EndsIn task.logPath s.tree (·.member "event" = .string "posts_written")) task result
  refine (((Logger.ensures_log ignored_written log records .info "posts_written"
    hnames hshort).weaken
    (fun _ hw => hw) fun _ x hx => ?_).bind fun _ =>
      (hprinted.weaken (fun _ hx => hx) fun _ x hx => ?_).weakenError
      fun f x hx => ?_) w ⟨hwritten, hholds⟩
  · obtain ⟨hwritten, r, hevent, -, hholds⟩ := hx
    exact ⟨⟨hwritten, _, hholds⟩, hholds.endsIn hnull (hwritten.widened.locate? hplace) hevent⟩
  · exact ⟨⟨result, u, hcollected, hx.1.1.find?⟩, hx.2⟩
  · -- the posts are there as a whole, but not all could be said about them
    obtain ⟨⟨hkept, -⟩, hfault⟩ := hx
    exact hkept.mono fun _ hwritten =>
      .inr ⟨hfault, _, ⟨result, u, _, hcollected, ByteArray.extract_zero_size.symm⟩, hwritten⟩

/-- The posts are as they were, unless the path to them leads back up to one of the
directories that were made. -/
structure PostsKept (task : SearchTask) (t u : FileTree) : Prop where
  place : ∀ l, u.locate? task.postsPath = .ok l → u.entry? l = t.entry? l ∨
    ".." ∈ task.postsPath.parts ∧ MadeFor task.directory t u l
  found : ".." ∉ task.postsPath.parts → t.Rooted → ∀ entry,
    u.find? task.postsPath = .ok (some entry) ↔ t.find? task.postsPath = .ok (some entry)

/-- The failure is the last record. The posts are as they were, or it came of writing them or of
what was said of them afterwards, and what could be written of them is there. -/
structure SearchFailed (environment : List (String × String)) (task : SearchTask)
    (log : Logger) (v : World) (f : Failure) (t u : FileTree) : Prop where
  posts : PostsKept task t u ∨ (∃ e : OutputError, f = .raised e.fault) ∧ ∃ content,
    PartOfPosts environment task log v content ∧ u.find? task.postsPath = .ok (some (.file content))
  last : RunLog.EndsIn task.logPath u (RunLog.Tells "search_command_failed" f)

theorem OnlyLogged.postsKept {u : FileTree} (h : OnlyLogged task.directory task.logPath t₀ t u)
    (hwidened : Widened t₀ t) : PostsKept task t₀ u := by
  obtain ⟨hspared, hstands⟩ := h
  have hapart (k : Location) (hk : u.locate? task.postsPath = .ok k) :
      ∀ q ∈ [task.logPath], u.locate? q ≠ .ok k := by
    intro q hq hlog
    rw [List.mem_singleton.mp hq] at hlog
    exact locate?_child_ne (by decide) (by decide) (by decide) hk hlog rfl
  exact {
    place := fun k hk => hspared.entry_child hk (hapart k hk)
    found := fun hdown hrooted entry => hspared.find?_child_iff hdown hrooted hapart
      (fun k hk => (hwidened.trans hstands).locate? hk) entry }

theorem Leaves.searchFailed {records : List Json} {r : Json} {s : FileSystem}
    (h : Leaves environment task log v l t₀ t f s.tree) (hwidened : Widened t₀ t)
    (hnull : hasNull task.logPath = false) (hplace : t.locate? task.logPath = .ok l)
    (htells : RunLog.Tells "search_command_failed" f r) (hholds : log.Holds l (records ++ [r]) s) :
    SearchFailed environment task log v f t₀ s.tree := by
  obtain honly | ⟨hfault, content, hpart, hwritten⟩ := h
  · exact ⟨.inl (honly.postsKept hwidened), hholds.endsIn hnull (honly.2.locate? hplace) htells⟩
  · exact ⟨.inr ⟨hfault, content, hpart, hwritten.find?⟩,
      hholds.endsIn hnull (hwritten.widened.locate? hplace) htells⟩

theorem ensures_runSearch (environment : List (String × String)) {task : SearchTask} {w v u : World}
    (hmade : World.onTree (makeDirectories task.directory) w = (.ok (), v))
    (hopen : Logger.openFile task.logPath false none v = (.ok log, u)) :
    Ensures (· = w) (runSearch environment task)
      (fun _ t => ∃ v₁, log.log .info "search_command_started" (searchStarted task) u =
        (.ok (), v₁) ∧ SearchDone environment task log v₁ t.files.tree)
      fun f t => f.isInterrupt = false →
        ∃ v₁, log.log .info "search_command_started" (searchStarted task) u = (.ok (), v₁) ∧
          SearchFailed environment task log v₁ f w.files.tree t.files.tree := by
  obtain ⟨-, hnull, s, l, hgrown, htouched, hplace, hholds⟩ := Logger.openFile_ok hopen
  have hdirectories : Grown task.directory w.files.tree s := by
    have hdirectory := ((Client.ensures_grown_onTree task.directory w).ok rfl hmade).2
    exact hdirectory.trans (by rwa [SearchTask.logPath, Path.parent_child] at hgrown)
  have hwidened : Widened w.files.tree u.files.tree := hdirectories.widened.trans htouched.widened
  have hJ : Logger.Ignored l (OnlyLogged task.directory task.logPath w.files.tree u.files.tree) :=
    ignored_onlyLogged hplace
  have hL (f : Failure) : Logger.Ignored l fun t =>
      ∃ v₁, log.log .info "search_command_started" (searchStarted task) u = (.ok (), v₁) ∧
        Leaves environment task log v₁ l w.files.tree u.files.tree f t := by
    rintro t content ⟨v₁, hrun, hleaves⟩ hplain
    exact ⟨v₁, hrun, ignored_leaves hplace t content hleaves hplain⟩
  have habout : ∀ m ∈ searchStarted task, m.1 ∉ ["self", "level", "event"] ∧
      ¬ m.2.hasLongInteger = true := by
    simp [searchStarted, Json.hasLongInteger]
  have hfields : ∀ m ∈ [("tags", Json.string task.tags)],
      m.1 ∉ ["self", "level", "event", "exc"] ∧ ¬ m.2.hasLongInteger = true := by
    simp [Json.hasLongInteger]
  have hbegun := ensures_begun hJ hL ⟨hdirectories.spared.touched htouched, .refl _⟩ hholds
    "search_command_started" "search_command_failed" habout hfields
    (Q := fun _ t => ∃ v₁, log.log .info "search_command_started" (searchStarted task) u =
      (.ok (), v₁) ∧ SearchDone environment task log v₁ t.files.tree)
    fun v₁ hrun hv₁ => ((ensures_searchAndWrite hnull hplace hv₁).weaken (fun _ hw => hw)
      fun _ _ hdone => ⟨v₁, hrun, hdone⟩).weakenError fun _ _ hw => hw.mono fun _ hleaves =>
        ⟨v₁, hrun, hleaves⟩
  rintro _ rfl
  rw [runSearch, bind_apply, hmade]
  refine ensures_withLog
    (Q := fun _ t => ∃ v₁, log.log .info "search_command_started" (searchStarted task) u =
      (.ok (), v₁) ∧ SearchDone environment task log v₁ t)
    (E := fun f t => f.isInterrupt = false →
      ∃ v₁, log.log .info "search_command_started" (searchStarted task) u = (.ok (), v₁) ∧
        SearchFailed environment task log v₁ f _ t) hopen (hbegun.weakenError ?_) v rfl
  intro f t hfailed hgoes
  obtain ⟨⟨v₁, hrun, hleaves⟩, records, r, htells, hheld⟩ := hfailed hgoes
  exact ⟨v₁, hrun, hleaves.searchFailed hwidened hnull hplace htells hheld⟩

end Command
end Booru
