import Booru.Command.Basic
import Booru.Post
import Booru.Settings.Validation
import Booru.World
import Booru.Download
import Booru.Grabber
import Booru.Settings.Basic

/-! What the commands do. Checking a blacklist and filtering saved posts need no board;
searching, and downloading what is declared, do. The latter keep a log, and what makes them
fail is its last record. -/

/-! ### Without a board -/

namespace Booru.Command

def readFile (role : FileRole) (path : String) : Run World String :=
  World.inspect fun t => readTextFile t role (Path.ofString path)

/-- A document in a file. Only its syntax is the file's fault. -/
def readJsonFile (role : FileRole) (path : String) : Run World Json := do
  let text ← readFile role path
  match Json.read text with
  | .ok v => pure v
  | .error (.integer e) => throw (.integer e)
  | .error _ => throw (.config (.badJson path))

def postsRecord (posts : List Post) : Json := .object [("posts", .array (posts.map Post.record))]

def postsDocument (posts : List Post) : String := (postsRecord posts).pretty 0 ++ "\n"

def writePosts (p : Path) (posts : List Post) : Run World Unit := do
  World.onTree (FileTree.makeDirectories p.parent)
  let text ← Run.lift ((postsRecord posts).write (Json.pretty 0))
  World.writeText p (text ++ "\n")

def printCount (name : String) (n : Int) : Run World Unit :=
  World.printLine (name ++ "=" ++ toString n)

def runLex (path : String) : Run World Unit := do
  let blacklist ← Run.lift (Blacklist.parse (← readFile .blacklist path))
  blacklist.lines.forM fun line => World.printLine (Blacklist.Line.render line)
  printCount "lines" blacklist.lines.length
  printCount "tokens" blacklist.tokens.length

def runFilter (task : FilterTask) : Run World Unit := do
  let blacklist ← Run.lift (Blacklist.parse (← readFile .blacklist task.blacklist))
  let (blacklist, _) ← blacklist.resolve (Blacklist.UserTable.ofList task.users).lookup
  let payload ← readJsonFile .posts task.posts
  let (posts, skipped) ← Run.lift ((Post.ofPayload payload).mapError .integer)
  let (visible, blacklisted) ← Run.lift (blacklist.filter posts)
  let (kept, invalid) := if task.keepInvalid then (visible, 0) else Post.removeInvalid visible
  match task.out with
  | none => pure ()
  | some out => writePosts (Path.ofString out) kept
  printCount "total" posts.length
  printCount "skipped" skipped
  printCount "blacklisted" blacklisted
  printCount "invalid" invalid
  printCount "kept" kept.length
  World.printLine ("kept_ids=" ++ ",".intercalate (kept.map fun p => toString p.id))

/-! ### With a board -/

/-- A failure is put on record before it goes on. An interruption is not. -/
def recording {α : Type} (log : Logger) (event : String) (fields : Json.Members) (x : Run World α) :
    Run World α :=
  tryCatch x fun f => do
    if !f.isInterrupt then log.exception event f fields
    throw f

def withLog {α : Type} (p : Path) (x : Logger → Run World α) : Run World α := do
  let log ← Logger.openFile p false none
  let r ← Run.outcome (x log)
  log.close
  Run.lift r

def retryEvent (e : Retry.Event Float) : Json.Members :=
  [("operation", .string e.operation), ("attempt", .int e.attempt),
    ("max_attempts", .int e.maxAttempts),
    ("delay_seconds", .float (Decimal.roundToThousandths e.delay)),
    ("reason", .ofOption (e.reason.map .string)), ("status_code", .ofOption (e.status.map .int)),
    ("message", .string e.error), ("url", .string e.url)]

def clientOf (settings : Settings) (credentials : Credentials) (log : Logger) : Client where
  site := settings.site
  credentials := credentials
  policy := Client.policyOf settings.site
  onRetry := fun e => log.log .warning "api_retry" (retryEvent e)

def openClient (path : String) (environment : List (String × String)) (log : Logger) :
    Run World (Settings × Client) := do
  let settings ← World.inspect fun t => Settings.load t (Path.ofString path)
  let credentials ← Run.lift ((Credentials.resolve settings.login environment).mapError .config)
  let fingerprint ← Run.lift settings.fingerprint
  log.log .info "config_loaded"
    [("config_sha256", .string fingerprint), ("base_url", .string settings.site.activeBaseUrl),
      ("authenticated", .bool !credentials.isAnonymous)]
  pure (settings, clientOf settings credentials log)

def closing {α : Type} (x : Run World α) : Run World α := do
  let r ← Run.outcome x
  Client.close
  Run.lift r

/-- A search without a limit is given up after more pages than the server has answers. -/
def searchPlan (settings : Settings) (blacklist : Option Blacklist) (log : Logger) :
    Run World (SearchPlan World) := do
  pure { blacklist, maxPages := settings.site.maxPages, postsPerPage := settings.site.postsPerPage
         journal := .ofLogger log, budget := (← get).session.script.size + 1 }

def searchBoard (settings : Settings) (client : Client) (tags : String) (log : Logger) :
    Run World SearchResult := do
  let blacklist ← client.board.sessionBlacklist settings.blacklist (.ofLogger log)
  (← searchPlan settings blacklist log).run client.board tags

def collect (environment : List (String × String)) (task : SearchTask) (log : Logger) :
    Run World SearchResult := do
  let (settings, client) ← openClient task.config environment log
  closing (searchBoard settings client task.tags log)

def searchStarted (task : SearchTask) : Json.Members :=
  [("tags", .string task.tags), ("config_path", .string task.config),
    ("out_dir", .string task.directory.text)]

def postsWritten (task : SearchTask) (r : SearchResult) : Json.Members :=
  [("path", .string task.postsPath.text), ("count", .int r.posts.length)]

def printSearch (task : SearchTask) (r : SearchResult) : Run World Unit := do
  printCount "pages" r.pages
  printCount "blacklisted" r.blacklisted
  printCount "invalid" r.invalid
  printCount "kept" r.posts.length
  World.printLine ("posts_json=" ++ task.postsPath.text)
  World.printLine ("run_log=" ++ task.logPath.text)

def searchAndWrite (environment : List (String × String)) (task : SearchTask) (log : Logger) :
    Run World Unit := do
  let result ← collect environment task log
  writePosts task.postsPath result.posts
  log.log .info "posts_written" (postsWritten task result)
  printSearch task result

def runSearch (environment : List (String × String)) (task : SearchTask) : Run World Unit := do
  World.onTree (FileTree.makeDirectories task.directory)
  withLog task.logPath fun log => do
    log.log .info "search_command_started" (searchStarted task)
    recording log "search_command_failed" [("tags", .string task.tags)]
      (searchAndWrite environment task log)

def nonEmptyCollections (cs : List Collection) : List Collection := cs.filter (!·.posts.isEmpty)

def printCollection (c : Collection) : Run World Unit :=
  World.printLine ("collection=" ++ c.label ++ " posts=" ++ toString c.size)

def gatherBoard (settings : Settings) (client : Client) (log : Logger) : Run World Haul := do
  let username := client.credentials.username
  if settings.download.isEmpty && !(settings.download.favorites && !username.isEmpty) then
    throw (.config .nothingToDownload)
  let blacklist ← client.board.sessionBlacklist settings.blacklist (.ofLogger log)
  let grabber : Grabber World :=
    { board := client.board, search := ← searchPlan settings blacklist log
      safeMode := settings.site.safeMode, naming := settings.download.naming }
  let (_, haul) ← Gathering.start (grabber.grabAll settings.download username)
  pure haul

def downloadBoard (settings : Settings) (client : Client) (root : Option Path) (log : Logger) :
    Run World (Haul × Option DownloadReport) := do
  let haul ← gatherBoard settings client log
  match root with
  | none =>
    (nonEmptyCollections haul.collections).forM printCollection
    pure (haul, none)
  | some root => do
    let report ← client.fetcher.download (.ofLogger log) root haul.collections
    pure (haul, some report)

def downloadStarted (task : DownloadTask) : Json.Members := [("config_path", .string task.config)]

def downloadRoot (settings : Settings) (task : DownloadTask) : Path :=
  .ofString (task.out.getD settings.download.directory)

def printHaul (task : DownloadTask) (root : Path) (haul : Haul) (report : Option DownloadReport) :
    Run World Unit := do
  printCount "collections" (nonEmptyCollections haul.collections).length
  printCount "posts" (haul.collections.flatMap (·.posts)).length
  printCount "blacklisted" haul.blacklisted
  printCount "invalid" haul.invalid
  match report with
  | none => pure ()
  | some r => do
    printCount "downloaded" r.downloaded
    printCount "existing" r.existing
    printCount "failed" r.failed
    World.printLine ("directory=" ++ root.text)
  World.printLine ("run_log=" ++ task.logPath.text)

def downloadAndPrint (environment : List (String × String)) (task : DownloadTask) (log : Logger) :
    Run World Unit := do
  let (settings, client) ← openClient task.config environment log
  let root := downloadRoot settings task
  let (haul, report) ← closing
    (downloadBoard settings client (if task.dryRun then none else some root) log)
  printHaul task root haul report

def runDownload (environment : List (String × String)) (task : DownloadTask) : Run World Unit :=
  withLog task.logPath fun log => do
    log.log .info "download_command_started" (downloadStarted task)
    recording log "download_command_failed" [] (downloadAndPrint environment task log)

end Booru.Command
