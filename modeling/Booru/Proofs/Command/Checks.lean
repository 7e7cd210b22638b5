import Booru.Command.Handlers
import Booru.Proofs.Client.Failures
import Booru.Proofs.Grabber.Failures
import Booru.Proofs.Settings.Checking

/-! Settings that were found valid leave the operations of a run nothing to object to. What
these check for themselves was seen to when the settings were read, when the user logged in, or
by the operation before. -/

namespace Booru

open Run

variable {H : Prop}

/-! ### What was seen to before -/

theorem Settings.Site.Bounded.check_policyOf {site : Settings.Site} (h : site.Bounded) :
    (Client.policyOf site).check = .ok () := by
  have hattempts : ¬ site.maxAttempts < 1 := Int.not_lt.mpr h.attempts
  have hbase : ¬ (1 : Float) < 0 := by decide
  have hmost : ¬ (30 : Float) < 0 := by decide
  have horder : ¬ (30 : Float) < 1 := by decide
  have hjitter : (0 : Float) ≤ 0.2 ∧ (0.2 : Float) ≤ 1 := by decide
  have hcap : ¬ (120 : Float) < 0 := by decide
  simp [Retry.Policy.check, Client.policyOf, Retry.Policy.standard, hattempts, hbase, hmost,
    horder, hjitter, hcap]

theorem Credentials.strip_username_ne {login : Settings.Login} (hstripped : login.Stripped)
    {environment : List (String × String)} {c : Credentials} (h : resolve login environment = .ok c)
    (hnamed : c.isAnonymous = false) : Text.strip c.username ≠ "" := by
  unfold resolve at h
  split at h
  · cases h
    cases hnamed
  · rename_i hfull
    dsimp only at h
    split at h
    · cases h
    · cases h
      rw [show Text.strip login.username = login.username from hstripped]
      simpa using hfull

theorem Logger.noMistake_log (log : Logger) (level : Level) (name : String)
    (fields : Json.Members) :
    Upholds (World.ServedAndFilesIn H fun _ => True) (log.log level name fields) (fun _ => True)
      (Failure.NoMistake H) := by
  have hnames : Upholds (World.ServedAndFilesIn H fun _ => True)
      (checkNames "event" ["self", "level", "event"] fields) (fun _ => True)
        (Failure.NoMistake H) := by
    unfold checkNames
    split
    · exact .pure trivial
    · exact .throw (.of_eq_false rfl)
  refine hnames.bind fun _ _ => .bind (Q := fun _ => True) ⟨fun w hw => ⟨hw, trivial⟩⟩ fun w _ => ?_
  refine .bind (Q := fun _ => True) (.lift (fun _ _ => trivial) fun f hf => ?_) fun line _ => ?_
  · unfold Json.write at hf
    split at hf <;> cases hf
    exact .of_eq_false rfl
  · dsimp only
    split
    · exact .throw (.of_eq_false rfl)
    · exact World.upholds_onFiles (Client.noMistake_write _ _)

theorem OutputError.noMistake (e : OutputError) : (Failure.raised e.fault).NoMistake H := by
  cases e <;> exact .of_eq_false rfl

theorem World.upholds_printLine {I : FileSystem → Prop} (line : String) :
    Upholds (ServedAndFilesIn H I) (printLine line) (fun _ => True) (Failure.NoMistake H) := by
  refine ⟨fun w hw => ?_⟩
  unfold printLine
  cases w.screen w.printed.length with
  | none => exact ⟨hw, trivial⟩
  | some e => exact ⟨hw, e.noMistake⟩

namespace Command

variable {I : FileSystem → Prop} {settings : Settings} {client : Client} {log : Logger}

/-- Settings and a client that no operation of a run objects to, and a log that
takes all that it is told. -/
structure Sound (H : Prop) (I : FileSystem → Prop) (settings : Settings) (client : Client)
    (log : Logger) : Prop where
  bounded : settings.site.Bounded
  named : client.isAuthenticated = true → Text.strip client.credentials.username ≠ ""
  noted : ∀ e, Upholds (World.ServedAndFilesIn H I) (client.onRetry e) (fun _ => True)
    (Failure.NoMistake H)
  told : Journal.Within (World.ServedAndFilesIn H I) H (.ofLogger log)

theorem sound_clientOf {path : String} {document : Yaml}
    (hsettings : Settings.ofYaml path document = .ok settings)
    {environment : List (String × String)} {credentials : Credentials}
    (hcredentials : Credentials.resolve settings.login environment = .ok credentials)
    (hlog : Journal.Within (World.ServedAndFilesIn H I) H (.ofLogger log)) :
    Sound H I settings (clientOf settings credentials log) log where
  bounded := Settings.bounded_ofYaml hsettings
  named hauthenticated := by
    have hnamed : credentials.isAnonymous = false := by
      cases hanonymous : credentials.isAnonymous with
      | false => rfl
      | true => simp [Client.isAuthenticated, Client.auth?, clientOf, hanonymous] at hauthenticated
    exact Credentials.strip_username_ne (Settings.stripped_ofYaml hsettings) hcredentials hnamed
  noted _ := hlog _ _ _
  told := hlog

namespace Sound

variable (h : Sound H I settings client log)
include h

theorem board : client.board.Within (World.ServedAndFilesIn H I) H :=
  Client.within_board h.noted h.named

theorem searchPlan {b : Option Blacklist} (hb : ∀ c, b = some c → c.isResolved = true) :
    Upholds (World.ServedAndFilesIn H I) (searchPlan settings b log)
      (fun plan => plan.Sane ∧ plan.journal.Within (World.ServedAndFilesIn H I) H)
      (Failure.NoMistake H) :=
  ⟨fun _ hw => ⟨hw, ⟨hb, h.bounded.pages, h.bounded.nonempty, h.bounded.full⟩, h.told⟩⟩

theorem searchBoard (tags : String) :
    Upholds (World.ServedAndFilesIn H I) (searchBoard settings client tags log) (fun _ => True)
      (Failure.NoMistake H) := by
  refine (h.board.sessionBlacklist h.told _).bind fun blacklist hb => (h.searchPlan hb).bind
    fun plan hplan => ?_
  exact hplan.1.run h.board hplan.2 tags

theorem grabber {plan : SearchPlan World} (hplan : plan.Sane)
    (hjournal : plan.journal.Within (World.ServedAndFilesIn H I) H) (safeMode : Bool)
    (naming : Naming) :
    Grabber.Within (World.ServedAndFilesIn H I) (Failure.NoMistake H)
      { board := client.board, search := plan, safeMode, naming } where
  search := hplan.run h.board hjournal
  exhaustive := hplan.exhaustive.run h.board hjournal
  fetchPost := h.board.fetchPost
  fetchPool := h.board.fetchPool
  fetchSet := h.board.fetchSet
  tell := hjournal
  resolved := hplan.resolved
  noFileUrl _ := .of_eq_false rfl
  noUsablePost _ := .of_eq_false rfl
  integer := .integer

theorem gatherBoard : Upholds (World.ServedAndFilesIn H I)
    (gatherBoard settings client log) (fun _ => True) (Failure.NoMistake H)
    := by
  unfold Command.gatherBoard
  dsimp only
  split
  · exact .throw (.of_eq_false rfl)
  refine (h.board.sessionBlacklist h.told _).bind fun blacklist hb => (h.searchPlan hb).bind
    fun plan hplan => ?_
  have hgrabber := h.grabber hplan.1 hplan.2 settings.site.safeMode settings.download.naming
  have hall := hgrabber.grabAll settings.download client.credentials.username
  exact (Gathering.upholds_start hall).bind fun _ _ => .pure trivial

end Sound

theorem Sound.downloadBoard (h : Sound H (fun _ => True) settings client log) (root : Option Path) :
    Upholds (World.ServedAndFilesIn H fun _ => True)
      (downloadBoard settings client root log) (fun _ => True)
      (Failure.NoMistake H) := by
  have hsave (url : String) (p : Path) : Upholds (World.ServedAndFilesIn H fun _ => True)
      (client.fetcher.save url p)
      (fun _ => True) (Failure.NoMistake H) := by
    refine FileFetcher.upholds_save ?_ ((Client.noMistake_downloadFile h.noted url p).bind
      fun _ _ => .pure trivial)
    exact World.upholds_inspect (f := (·.exists? p))
      fun _ _ hf => (FileTree.exists?_error hf).noMistake
  refine h.gatherBoard.bind fun haul _ => ?_
  cases root with
  | none =>
    exact .bind (Q := fun _ => True) (.forM _ fun c => World.upholds_printLine _)
      fun _ _ => .pure trivial
  | some root =>
    have hfetcher : client.fetcher.Within (World.ServedAndFilesIn H fun _ => True)
        (Failure.NoMistake H) (fun _ => True)
        (.ofLogger log) := ⟨fun url p _ => hsave url p, h.told⟩
    exact (hfetcher.download fun _ _ _ _ => trivial).bind fun _ _ => .pure trivial

/-- Under valid settings, and credentials that belong to them, no run ends by what an operation of
it does not take: unresolved users, a name that is blank, a page or a number of pages or posts out
of range, or a policy that makes no sense. -/
theorem checks_out_of_reach {path : String} {document : Yaml} {settings : Settings}
    (hsettings : Settings.ofYaml path document = .ok settings)
    {environment : List (String × String)} {credentials : Credentials}
    (hcredentials : Credentials.resolve settings.login environment = .ok credentials)
    (log : Logger) (w : World) :
    (clientOf settings credentials log).policy.check = .ok () ∧
    (∀ tags f t,
      searchBoard settings (clientOf settings credentials log) tags log w = (.error f, t) →
      f.isMisuse = false ∧ (w.session.script.Honest → f.kind ≠ .precondition)) ∧
    ∀ root f t,
      downloadBoard settings (clientOf settings credentials log) root log w = (.error f, t) →
      f.isMisuse = false ∧ (w.session.script.Honest → f.kind ≠ .precondition) := by
  have hsound : Sound w.session.script.Honest (fun _ => True) settings
      (clientOf settings credentials log) log :=
    sound_clientOf hsettings hcredentials log.noMistake_log
  have hw : World.ServedAndFilesIn w.session.script.Honest (fun _ => True) w := ⟨id, trivial⟩
  refine ⟨hsound.bounded.check_policyOf, fun tags f t hend => ?_, fun root f t hend => ?_⟩
  · have hmistake := (hsound.searchBoard tags).error hw hend
    exact ⟨hmistake.right, hmistake.kind⟩
  · have hmistake := (hsound.downloadBoard root).error hw hend
    exact ⟨hmistake.right, hmistake.kind⟩

def spacedLogin : Yaml := .mapping [(.text "login", .mapping [(.text "username", .text " me ")])]

def unknownHere : World := { session := { script := .ofRoutes [] }, now := ⟨0⟩, draw := 0 }

def plainLog : Logger := { handle := 0, path := .ofString "run.log", session := "s" }

/-- The board is asked for the user without the white space, and what the run
fails with is its answer. -/
theorem spaced_login_is_asked_for : ∃ settings f t,
    Settings.ofYaml "config.yaml" spacedLogin = .ok settings ∧
    Credentials.resolve settings.login [("E621_API_KEY", "k")] = .ok ⟨"me", "k"⟩ ∧
    searchBoard settings (clientOf settings ⟨"me", "k"⟩ plainLog) "t" plainLog unknownHere =
      (.error f, t) ∧
    f = .api (.entryRefused "User me"
      "404 Client Error: Not Found for url: https://e621.net/users/me.json") ∧
    f.isMisuse = false ∧ f.kind ≠ .precondition := by
  have hsettings : Settings.ofYaml "config.yaml" spacedLogin =
      .ok { login := { username := "me" } } := rfl
  have hcredentials : Credentials.resolve { username := "me" } [("E621_API_KEY", "k")] =
      .ok ⟨"me", "k"⟩ := rfl
  obtain ⟨-, hsearch, -⟩ := checks_out_of_reach hsettings hcredentials plainLog unknownHere
  obtain ⟨t, hend⟩ : ∃ t, searchBoard { login := { username := "me" } }
      (clientOf { login := { username := "me" } } ⟨"me", "k"⟩ plainLog) "t" plainLog unknownHere =
        (.error (.api (.entryRefused "User me"
          ("404 Client Error: Not Found for url: " ++
            ("https://e621.net" ++ Client.userPath "me")))), t) := ⟨_, rfl⟩
  obtain ⟨hright, hkind⟩ := hsearch "t" _ t hend
  have hpath : Client.userPath "me" = "/users/me.json" := by decide +kernel
  rw [hpath] at hend
  exact ⟨_, _, t, hsettings, hcredentials, hend, rfl, hright,
    hkind ⟨List.forall_mem_nil _, List.forall_mem_nil _⟩⟩

end Command
end Booru
