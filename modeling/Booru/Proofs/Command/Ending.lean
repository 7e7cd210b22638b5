import Booru.Command.Outcome
import Booru.Proofs.Command.Searching
import Booru.Proofs.Download.Recording

/-! How runs end. A search or a download that fails has said so in the last record of its log, and
the exit status tells what kind of failure it was. -/

namespace Booru

open Run FileTree

theorem Outcome.statusOf_eq {f : Failure} (h : f.isInterrupt = false) : statusOf f =
    if f.kind = .config then 2
    else if f.kind ∈ [.lex, .resolver, .precondition, .api] then 3 else 1 := by
  unfold statusOf
  unfold Failure.isInterrupt at h
  revert h
  generalize f.kind = kind
  cases kind <;> decide

namespace Command

variable {log : Logger} {l : Location} {t : FileTree} {p : Path} {v : World}
  {settings : Settings} {client : Client}
  {environment : List (String × String)}

/-! ### Downloads -/

theorem ensures_downloadBoard_logged (h : Sound False (log.Keeps l (Widened t)) settings client log)
    (hplace : t.locate? p = .ok l) (hv : log.Keeps l (Widened t) v.files) {root : Option Path}
    (hclear : ∀ haul u r, root = some r → gatherBoard settings client log v = (.ok haul, u) →
      ∀ target ∈ FileFetcher.targets r haul.collections, t.ClearOf p target) :
    Ensures (· = v) (downloadBoard settings client root log)
      (fun _ w => log.Keeps l (Widened t) w.files)
      fun _ w => log.Keeps l (Widened t) w.files := by
  -- what is to be saved is known only when the board has been asked for all of it
  refine (((World.ensures_of_upholds h.gatherBoard).result hv).weakenError fun _ _ hw => hw.1).bind
    fun haul => ?_
  rintro u ⟨⟨hu, -⟩, hgathered⟩
  cases root with
  | none =>
    have hprinted : Ensures (fun w => log.Keeps l (Widened t) w.files)
        ((nonEmptyCollections haul.collections).forM printCollection)
          (fun _ w => log.Keeps l (Widened t) w.files)
        fun _ w => log.Keeps l (Widened t) w.files :=
      .forM _ fun c => (ensures_printLine _).weakenError fun _ _ hw => hw.1
    exact (hprinted.bind fun _ => .pure fun _ hw => hw) u hu
  | some root =>
    have hfetcher : client.fetcher.Within (World.ServedAndFilesIn False (log.Keeps l (Widened t)))
        (fun _ => True)
        (fun target => (∃ (d : Path) (name : String), name ≠ "" ∧ target = d.child name) ∧
          t.ClearOf p target)
        (.ofLogger log) := by
      refine ⟨?_, fun _ _ _ => (h.told _ _ _).weakenError fun _ _ => trivial⟩
      rintro url _ ⟨⟨d, name, hname, rfl⟩, hclear⟩
      exact Client.upholds_save_logged h.noted hplace hname hclear url
    have hsaved := World.ensures_of_upholds (hfetcher.download fun c hc q hq =>
      ⟨⟨_, _, (plainName_cleanComponent q.name).full, rfl⟩,
        hclear haul u root rfl hgathered _ (List.mem_map.mpr
        ⟨_, List.mem_flatMap.mpr ⟨c, hc, List.mem_map.mpr ⟨q, hq, rfl⟩⟩, rfl⟩)⟩)
    exact (hsaved.bind fun report => .pure fun _ hw => hw.1) u hu

theorem ensures_printHaul {P : FileSystem → Prop} (task : DownloadTask) (root : Path) (haul : Haul)
    (report : Option DownloadReport) :
    Ensures (fun w => P w.files) (printHaul task root haul report) (fun _ w => P w.files)
      fun f w => P w.files ∧ ∃ e : OutputError, f = .raised e.fault := by
  refine (ensures_printLine _).bind fun _ => (ensures_printLine _).bind fun _ =>
    (ensures_printLine _).bind fun _ =>
    (ensures_printLine _).bind fun _ => ?_
  cases report with
  | none => exact ensures_printLine _
  | some r =>
    exact (ensures_printLine _).bind fun _ => (ensures_printLine _).bind fun _ =>
      (ensures_printLine _).bind fun _ =>
      (ensures_printLine _).bind fun _ => ensures_printLine _

/-- What a download is to bring stays clear of its log. What that is, the board says in
the course of the run. -/
def SparesLog (environment : List (String × String)) (task : DownloadTask) (log : Logger)
    (u : World) : Prop :=
  task.dryRun = false → ∀ settings client haul v₁ v₂ v₃,
    log.log .info "download_command_started" (downloadStarted task) u = (.ok (), v₁) →
    openClient task.config environment log v₁ = (.ok (settings, client), v₂) →
    gatherBoard settings client log v₂ = (.ok haul, v₃) →
    ∀ target ∈ FileFetcher.targets (downloadRoot settings task) haul.collections,
      u.files.tree.ClearOf task.logPath target

theorem SparesLog.clearOf {task : DownloadTask} {u v₁ v₂ : World}
    (h : SparesLog environment task log u)
    (hrun : log.log .info "download_command_started" (downloadStarted task) u = (.ok (), v₁))
    (hclient : openClient task.config environment log v₁ = (.ok (settings, client), v₂))
    (haul : Haul) (v₃ : World) (root : Path)
    (hroot : (if task.dryRun = true then none else some (downloadRoot settings task)) = some root)
    (hgathered : gatherBoard settings client log v₂ = (.ok haul, v₃)) :
    ∀ target ∈ FileFetcher.targets root haul.collections,
    u.files.tree.ClearOf task.logPath target := by
  cases hdry : task.dryRun with
  | true => simp [hdry] at hroot
  | false =>
    obtain rfl : downloadRoot settings task = root := by simpa [hdry] using hroot
    exact h hdry settings client haul v₁ v₂ v₃ hrun hclient hgathered

theorem ensures_downloadAndPrint {task : DownloadTask} {u : World}
    (hplace : u.files.tree.locate? task.logPath = .ok l)
    (hspares : SparesLog environment task log u)
    (hrun : log.log .info "download_command_started" (downloadStarted task) u = (.ok (), v))
    (hv : log.Keeps l (Widened u.files.tree) v.files) :
    Ensures (· = v) (downloadAndPrint environment task log)
      (fun _ w => log.Keeps l (Widened u.files.tree) w.files)
      fun _ w => log.Keeps l (Widened u.files.tree) w.files := by
  have hJ : Logger.Ignored l (Widened u.files.tree) := fun _ _ hwidened hplain =>
    hwidened.put hplain
  have hopened := World.ensures_of_upholds
    (upholds_openClient (Logger.within_ofLogger hJ log) task.config environment)
  refine ((hopened.result hv).weakenError fun _ _ hw => hw.1).bind ?_
  rintro ⟨settings, client⟩ v₂ ⟨⟨hv₂, hsound⟩, hclient⟩
  have hclosed : Ensures (· = v₂) (closing (downloadBoard settings client
      (if task.dryRun = true then none else some (downloadRoot settings task)) log))
      (fun _ w => log.Keeps l (Widened u.files.tree) w.files) fun _ w =>
        log.Keeps l (Widened u.files.tree) w.files :=
    Client.ensures_followedBy
      (ensures_downloadBoard_logged hsound hplace hv₂ (hspares.clearOf hrun hclient))
      (fun _ _ hw => hw) fun _ _ hw => hw
  exact (hclosed.bind fun r => (ensures_printHaul task _ r.1 r.2).weakenError
    fun _ _ hw => hw.1) v₂ rfl

theorem ensures_runDownload {task : DownloadTask} {w u : World}
    (hopen : Logger.openFile task.logPath false none w = (.ok log, u))
    (hspares : SparesLog environment task log u) :
    Ensures (· = w) (runDownload environment task) (fun _ _ => True)
      fun f t => f.isInterrupt = false →
        RunLog.EndsIn task.logPath t.files.tree (RunLog.Tells "download_command_failed" f) := by
  obtain ⟨-, hnull, -, l, -, -, hplace, hholds⟩ := Logger.openFile_ok hopen
  have hJ : Logger.Ignored l (Widened u.files.tree) := fun _ _ hwidened hplain =>
    hwidened.put hplain
  have habout : ∀ m ∈ downloadStarted task, m.1 ∉ ["self", "level", "event"] ∧
      ¬ m.2.hasLongInteger = true := by
    simp [downloadStarted, Json.hasLongInteger]
  have hwork := ensures_begun hJ (fun _ => hJ) (.refl _) hholds "download_command_started"
    "download_command_failed"
    habout (List.forall_mem_nil _) fun v hrun hv => ensures_downloadAndPrint hplace hspares hrun hv
  refine ensures_withLog (Q := fun _ _ => True)
    (E := fun f t => f.isInterrupt = false →
      RunLog.EndsIn task.logPath t (RunLog.Tells "download_command_failed" f))
    hopen ((hwork.weaken (fun _ hw => hw) fun _ _ _ => trivial).weakenError ?_)
  intro f w hfailed hgoes
  obtain ⟨hwidened, records, r, htells, hheld⟩ := hfailed hgoes
  exact hheld.endsIn hnull (hwidened.locate? hplace) htells

/-! ### Runs -/

theorem run_of_failed {command : Command} {w t : World} {args : List String} {f : Failure}
    (hargs : ofArguments args = .ok command) (h : carryOut environment args w = (.failed f, t)) :
    run environment command w = (.error f, t) := by
  simp only [carryOut, hargs] at h
  rcases hrun : run environment command w with ⟨g | ⟨⟩, u⟩ <;> rw [hrun] at h <;> cases h
  rfl

theorem run_of_status_zero {command : Command} {w t : World} {args : List String}
    {outcome : Outcome} (hargs : ofArguments args = .ok command)
    (h : carryOut environment args w = (outcome, t))
    (hzero : outcome.status = 0) : run environment command w = (.ok (), t) := by
  simp only [carryOut, hargs] at h
  rcases hrun : run environment command w with ⟨g | ⟨⟩, u⟩ <;> rw [hrun] at h <;> cases h
  · exfalso
    revert hzero
    simp only [Outcome.status, Outcome.statusOf]
    cases g.kind <;> decide
  · rfl

/-- Provided that the output directory and the log could be opened, a failing search or
download ends its log with the record of the failure and goes out with the status of its kind.
A failing search leaves the posts as they were, unless it fails in writing them or in what it
prints afterwards; one that succeeds writes them and says so last. A search may make a
directory in place of the posts only where the path leads back up through one; a download is to
stay clear of its log. -/
theorem failures_on_record (environment : List (String × String)) (args : List String) (w : World) :
    (∀ task, ofArguments args = .ok (.search task) → ∀ v log u,
      World.onTree (makeDirectories task.directory) w = (.ok (), v) →
      Logger.openFile task.logPath false none v = (.ok log, u) →
      (∀ f t, carryOut environment args w = (.failed f, t) → f.isInterrupt = false →
        ∃ v₁, log.log .info "search_command_started" (searchStarted task) u = (.ok (), v₁) ∧
          SearchFailed environment task log v₁ f w.files.tree t.files.tree) ∧
      ∀ outcome t, carryOut environment args w = (outcome, t) → outcome.status = 0 →
        ∃ v₁, log.log .info "search_command_started" (searchStarted task) u = (.ok (), v₁) ∧
          SearchDone environment task log v₁ t.files.tree) ∧
    (∀ task, ofArguments args = .ok (.download task) → ∀ log u,
      Logger.openFile task.logPath false none w = (.ok log, u) → SparesLog environment task log u →
      ∀ f t, carryOut environment args w = (.failed f, t) → f.isInterrupt = false →
        RunLog.EndsIn task.logPath t.files.tree (RunLog.Tells "download_command_failed" f)) ∧
    ∀ f t, carryOut environment args w = (.failed f, t) → f.isInterrupt = false →
      (Outcome.failed f).status = if f.kind = .config then 2
        else if f.kind ∈ [.lex, .resolver, .precondition, .api] then 3 else 1 := by
  refine ⟨fun task hargs v log u hmade hopen => ?_,
    fun task hargs log u hopen hspares f t hend hgoes => ?_,
    fun f t _ hgoes => Outcome.statusOf_eq hgoes⟩
  · have hends := ensures_runSearch environment hmade hopen
    exact ⟨fun f t hend => hends.error rfl (run_of_failed hargs hend),
      fun outcome t hend hzero => hends.ok rfl (run_of_status_zero hargs hend hzero)⟩
  · exact (ensures_runDownload hopen hspares).error rfl (run_of_failed hargs hend) hgoes

/-! ### Runs on fixed inputs -/

theorem exists_failed {r : Outcome × World} (P : Failure → World → Prop) [∀ f t, Decidable (P f t)]
    (h : (match r with | (.failed f, t) => decide (P f t) | _ => false) = true) :
    ∃ f t, r = (.failed f, t) ∧ P f t := by
  split at h
  · exact ⟨_, _, rfl, of_decide_eq_true h⟩
  · cases h

theorem exists_done {r : Outcome × World}
    (h : (match r with | (.done, _) => true | _ => false) = true) :
    ∃ t, r = (.done, t) := by
  split at h
  · exact ⟨_, rfl⟩
  · cases h

def worldOf (files : List (Location × Entry)) (answers : List Exchange) : World :=
  { session := { script := .ofList answers }, files := { tree := { entries := files } },
    now := ⟨0⟩, draw := 0 }

def searchFor (config out : String) : List String :=
  ["search", "--config", config, "--tags", "t", "--out", out]

def postAnswer (id : Nat) : Exchange :=
  .ok { body := [.ok ("\x7b\"post\":\x7b\"id\":" ++ toString id ++
    ",\"file\":\x7b\"url\":\"https://h/1\"\x7d\x7d\x7d").toUTF8] }

def twoPosts (firstFile : Exchange) : World :=
  worldOf [(["c.yaml"], .file "download: {posts: [1, 2]}".toUTF8)]
    [postAnswer 1, postAnswer 2, firstFile,
    .ok { status := 503, reason := "Busy", headers := [("Retry-After", "1 Jan 2147483648 0:0")] }]

def oldPosts : World :=
  worldOf [(["c.yaml"], .file .empty), (["out"], .directory),
    (["out", "posts.json"], .file "old".toUTF8)]
    [.ok { body := [.ok "\x7b\"posts\":[]\x7d".toUTF8] }]

/-- A search whose directory is named by way of the posts puts a directory in their place. One that
has nothing to print to has written the posts before it fails, and one that has no room for them has
lost the old ones. A download that has its log at the place of a partial file removes it, and one
that has it at the place of a file replaces it. -/
theorem posts_and_logs_lost :
    (∃ f t,
      carryOut [] (searchFor "missing.yaml" "posts.json/..") (worldOf [] []) = (.failed f, t) ∧
      f.kind = .config ∧
      ((worldOf [] []).files.tree.exists? ⟨"", ["posts.json", "..", "posts.json"]⟩).toOption =
        some false ∧
      (t.files.tree.isDirectory ⟨"", ["posts.json", "..", "posts.json"]⟩).toOption = some true) ∧
    (∃ f t, carryOut [] (searchFor "c.yaml" "out")
        { oldPosts with screen := fun _ => some .brokenPipe } = (.failed f, t) ∧
      f.kind = .brokenPipe ∧
      (t.files.tree.readBytes ⟨"", ["out", "posts.json"]⟩).toOption =
        some "\x7b\n  \"posts\": []\n\x7d\n".toUTF8) ∧
    (∃ f t, carryOut [] (searchFor "c.yaml" "out")
        { oldPosts with shortage := some (0, .refused "[Errno 28] No space left on device") } =
          (.failed f, t) ∧
      f.kind = .os ∧
      (t.files.tree.readBytes ⟨"", ["out", "posts.json"]⟩).toOption = some .empty) ∧
    (∃ f t, carryOut []
        ["download", "--config", "c.yaml", "--log", "downloads/Single Posts/1.bin.part"]
        (twoPosts Script.notFound) = (.failed f, t) ∧
      f.kind = .overflow ∧
      (t.files.tree.exists? ⟨"", ["downloads", "Single Posts", "1.bin.part"]⟩).toOption =
        some false) ∧
    ∃ f t, carryOut []
        ["download", "--config", "c.yaml", "--out", "x/..", "--log", "Single Posts/1.bin"]
        (twoPosts (.ok { body := [.ok "a".toUTF8] })) = (.failed f, t) ∧
      f.kind = .overflow ∧
      (t.files.tree.readBytes ⟨"", ["Single Posts", "1.bin"]⟩).toOption = some "a".toUTF8 :=
  ⟨exists_failed _ (by decide +kernel), exists_failed _ (by decide +kernel),
    exists_failed _ (by decide +kernel), exists_failed _ (by decide +kernel),
    exists_failed _ (by decide +kernel)⟩

theorem exists_opened {d : Path} {w : World}
    (h : ∃ a v, World.onTree (makeDirectories d) w = (.ok a, v) ∧
      (Logger.openFile (d.child "run.log") false none v).1.toOption.isSome = true) :
    ∃ v log u, World.onTree (makeDirectories d) w = (.ok (), v) ∧
      Logger.openFile (d.child "run.log") false none v = (.ok log, u) := by
  obtain ⟨⟨⟩, v, hmade, hopens⟩ := h
  rcases hopen : Logger.openFile (d.child "run.log") false none v with ⟨f | log, u⟩ <;>
    rw [hopen] at hopens
  · cases hopens
  · exact ⟨v, log, u, hmade, hopen⟩

def sparesLog? (environment : List (String × String)) (task : DownloadTask) (log : Logger)
    (u : World) : Bool :=
  match log.log .info "download_command_started" (downloadStarted task) u with
  | (.error _, _) => true
  | (.ok (), v₁) => match openClient task.config environment log v₁ with
    | (.error _, _) => true
    | (.ok (settings, client), v₂) => match gatherBoard settings client log v₂ with
      | (.error _, _) => true
      | (.ok haul, _) => (FileFetcher.targets (downloadRoot settings task) haul.collections).all
        fun target =>
          u.files.tree.place (Client.partialPath target) != u.files.tree.place task.logPath &&
            u.files.tree.place target != u.files.tree.place task.logPath

theorem sparesLog_of {task : DownloadTask} {u : World}
    (h : sparesLog? environment task log u = true) : SparesLog environment task log u := by
  intro _ settings client haul v₁ v₂ v₃ hstarted hopened hgathered target htarget
  simp only [sparesLog?, hstarted, hopened, hgathered] at h
  have hplaces := List.all_eq_true.mp h target htarget
  simp only [Bool.and_eq_true, bne_iff_ne] at hplaces
  exact ⟨hplaces.1, fun hsame => absurd hsame hplaces.2⟩

theorem rooted_oldPosts : oldPosts.files.tree.Rooted := by
  intro l name e h
  rw [ entry?, if_neg (by simp)] at h
  obtain ⟨front, back, hentries, -⟩ := List.lookup_eq_some_iff.mp h
  have hmem : (l ++ [name], e) ∈ oldPosts.files.tree.entries := by simp [hentries]
  simp only [oldPosts, worldOf, List.mem_cons, List.not_mem_nil, or_false, Prod.mk.injEq] at hmem
  obtain ⟨hplace, -⟩ | ⟨hplace, -⟩ | ⟨hplace, -⟩ := hmem
  · obtain rfl : l = [] := by simpa using congrArg List.dropLast hplace
    rfl
  · obtain rfl : l = [] := by simpa using congrArg List.dropLast hplace
    rfl
  · obtain rfl : l = ["out"] := by simpa using congrArg List.dropLast hplace
    rfl

/-- A search that fails before it has begun, a download that is given up, and a
search that finds nothing. -/
theorem endings_on_record :
    (∃ f t, carryOut [] (searchFor "missing.yaml" "out") oldPosts = (.failed f, t) ∧
      t.files.tree.find? ⟨"", ["out", "posts.json"]⟩ = .ok (some (.file "old".toUTF8)) ∧
      RunLog.EndsIn ⟨"", ["out", "run.log"]⟩ t.files.tree (RunLog.Tells "search_command_failed" f) ∧
      (Outcome.failed f).status = 2) ∧
    (∃ f t,
      carryOut [] ["download", "--config", "c.yaml"] (twoPosts Script.notFound) = (.failed f, t) ∧
      RunLog.EndsIn ⟨"", ["e6dl-run.log"]⟩ t.files.tree (RunLog.Tells "download_command_failed" f) ∧
      (Outcome.failed f).status = 1) ∧
    ∃ t log v, carryOut [] (searchFor "c.yaml" "out") oldPosts = (.done, t) ∧
      SearchDone [] ⟨"c.yaml", "t", "out"⟩ log v t.files.tree := by
  obtain ⟨v, log, u, hmade, hopen⟩ : ∃ v log u,
      World.onTree (makeDirectories (.ofString "out")) oldPosts = (.ok (), v) ∧
        Logger.openFile ((Path.ofString "out").child "run.log") false none v = (.ok log, u) :=
    exists_opened (exists_ok _ (by decide +kernel))
  refine ⟨?_, ?_, ?_⟩
  · obtain ⟨f, t, hend, hgoes, hkind⟩ : ∃ f t,
        carryOut [] (searchFor "missing.yaml" "out") oldPosts = (.failed f, t) ∧
          f.isInterrupt = false ∧ f.kind = .config := exists_failed _ (by decide +kernel)
    obtain ⟨hsearch, -, hstatus⟩ := failures_on_record [] (searchFor "missing.yaml" "out") oldPosts
    obtain ⟨v₁, -, hfailed⟩ :=
      (hsearch ⟨"missing.yaml", "t", "out"⟩ rfl v log u hmade hopen).1 f t hend hgoes
    have hkept : PostsKept ⟨"missing.yaml", "t", "out"⟩ oldPosts.files.tree t.files.tree := by
      refine hfailed.posts.resolve_right ?_
      rintro ⟨⟨e, rfl⟩, -⟩
      cases e <;> cases hkind
    refine ⟨f, t, hend, (hkept.found (by decide) rooted_oldPosts _).mpr rfl, hfailed.last, ?_⟩
    rw [hstatus f t hend hgoes, hkind]
    decide
  · obtain ⟨log, u, hopen, hspares⟩ : ∃ log u,
        Logger.openFile (.ofString "e6dl-run.log") false none (twoPosts Script.notFound) =
          (.ok log, u) ∧
          sparesLog? [] { config := "c.yaml" } log u = true := exists_ok _ (by decide +kernel)
    obtain ⟨f, t, hend, hgoes, hkind⟩ : ∃ f t,
        carryOut [] ["download", "--config", "c.yaml"] (twoPosts Script.notFound) = (.failed f, t) ∧
          f.isInterrupt = false ∧ f.kind = .overflow := exists_failed _ (by decide +kernel)
    obtain ⟨-, hdownload, hstatus⟩ :=
      failures_on_record [] ["download", "--config", "c.yaml"] (twoPosts Script.notFound)
    have hlast := hdownload { config := "c.yaml" } rfl log u hopen
      (sparesLog_of hspares) f t hend hgoes
    refine ⟨f, t, hend, hlast, ?_⟩
    rw [hstatus f t hend hgoes, hkind]
    decide
  · obtain ⟨t, hend⟩ : ∃ t, carryOut [] (searchFor "c.yaml" "out") oldPosts = (.done, t) :=
      exists_done (by decide +kernel)
    obtain ⟨hsearch, -⟩ := failures_on_record [] (searchFor "c.yaml" "out") oldPosts
    obtain ⟨v₁, -, hdone⟩ := (hsearch ⟨"c.yaml", "t", "out"⟩ rfl v log u hmade hopen).2 .done
      t hend rfl
    exact ⟨t, log, v₁, hend, hdone⟩

end Command
end Booru
