import Booru.Proofs.Blacklist.Joining
import Booru.Proofs.Blacklist.Rounds
import Booru.Proofs.Search.Alike
import Booru.Proofs.Settings.Checking
import Booru.Search

/-! The blacklist of a session. The lines of the profile stand in front, each local line behind them
is one line of its own, and what makes the whole fail to read is one of these parts. -/

namespace Booru

open Run

variable {σ τ : Type}

/-! ### The joined text -/

namespace Text

theorem blanks_of_wordsOf {cs : List Char} (h : wordsOf cs = []) : Blanks cs := by
  induction cs using wordInduction with
  | nil => exact List.forall_mem_nil _
  | blank c rest hc ih =>
    exact List.forall_mem_cons.mpr ⟨hc, ih (by rwa [wordsOf_cons_blank hc] at h)⟩
  | word w rest hw hrest ih =>
    rw [wordsOf_word_append hw hrest] at h
    cases h

theorem fullLines_unbroken {cs : List Char} (hbreak : '\n' ∉ cs) (hfull : ¬ Blanks cs) :
    fullLines cs = [wordsOf cs] := by
  have hwords : wordsOf cs ≠ [] := fun hnil => hfull (blanks_of_wordsOf hnil)
  simp [fullLines, wordLines, splitWhen_of_notMem hbreak, hwords]

theorem blanks_of_fullLines {cs : List Char} (h : fullLines cs = []) : Blanks cs := by
  refine blanks_of_wordsOf ?_
  rw [← flatten_wordLines, List.flatten_eq_nil_iff]
  intro ws hws
  simpa using List.filter_eq_nil_iff.mp h ws hws

end Text

namespace Blacklist

variable {profile entry : String} {extra : List String} {lines : List Line}

theorem lex_eq_nil_iff : lex profile = .ok [] ↔ Text.Blanks profile.toList := by
  constructor
  · intro h
    exact Text.blanks_of_fullLines (List.forall₂_nil_right_iff.mp (gives_fullLines h))
  · intro h
    refine lex_eq_of_gives ?_ ?_
    · simp [Text.wordsOf_blanks h]
    · rw [Text.fullLines_blanks h]
      exact .nil

theorem lex_single (h : Settings.SingleLine entry) (hlex : lex entry = .ok lines) :
    ∃ line, lines = [line] := by
  have hfull : ¬ Text.Blanks entry.toList := by
    intro hblank
    have hhead := List.head?_eq_some_head h.trimmed.nonempty
    have hstart := h.trimmed.starts _ hhead
    rw [hblank _ (List.mem_of_mem_head? hhead)] at hstart
    cases hstart
  have hlines := gives_fullLines hlex
  rw [Text.fullLines_unbroken h.single hfull] at hlines
  obtain ⟨line, rest, -, hrest, rfl⟩ := List.forall₂_cons_left_iff.mp hlines
  rw [List.forall₂_nil_left_iff.mp hrest]
  exact ⟨line, rfl⟩

theorem joinedSource_cons (profile entry : String) (extra : List String) :
    joinedSource profile (entry :: extra) = profile ++ "\n" ++ joinedSource entry extra := by
  rw [joinedSource, String.intercalate_cons_cons]
  rfl

/-- A local line that reads as this one. -/
def ReadsAs (entry : String) (line : Line) : Prop := lex entry = .ok [line]

theorem lex_joinedSource (hextra : ∀ entry ∈ extra, Settings.SingleLine entry) :
    lex (joinedSource profile extra) = .ok lines ↔ ∃ first locals, lex profile = .ok first ∧
      List.Forall₂ ReadsAs extra locals ∧ lines = first ++ locals := by
  induction extra generalizing profile lines with
  | nil => simp [joinedSource]
  | cons entry extra ih =>
    obtain ⟨hentry, hrest⟩ := List.forall_mem_cons.mp hextra
    rw [joinedSource_cons]
    constructor
    · intro h
      obtain ⟨first, second, hprofile, hsecond, rfl⟩ := lex_joined_parts h
      obtain ⟨own, locals, hown, hlocals, rfl⟩ := (ih hrest).mp hsecond
      obtain ⟨line, rfl⟩ := lex_single hentry hown
      exact ⟨first, line :: locals, hprofile, .cons hown hlocals, rfl⟩
    · rintro ⟨first, _, hprofile, hall, rfl⟩
      obtain ⟨line, locals, hline, hlocals, rfl⟩ := List.forall₂_cons_left_iff.mp hall
      exact lex_joined_ok hprofile ((ih hrest).mpr ⟨[line], locals, hline, hlocals, rfl⟩)

theorem exists_locals_iff (hextra : ∀ entry ∈ extra, Settings.SingleLine entry) :
    (∃ locals, List.Forall₂ ReadsAs extra locals) ↔ ∀ entry ∈ extra, ∃ lines,
    lex entry = .ok lines := by
  constructor
  · rintro ⟨locals, hlocals⟩
    induction hlocals with
    | nil => exact List.forall_mem_nil _
    | cons hline _ ih =>
      exact List.forall_mem_cons.mpr ⟨⟨_, hline⟩, ih (List.forall_mem_cons.mp hextra).2⟩
  · intro hlex
    induction extra with
    | nil => exact ⟨[], .nil⟩
    | cons entry extra ih =>
      obtain ⟨hentry, hrest⟩ := List.forall_mem_cons.mp hextra
      obtain ⟨⟨lines, hlines⟩, hothers⟩ := List.forall_mem_cons.mp hlex
      obtain ⟨line, rfl⟩ := lex_single hentry hlines
      obtain ⟨locals, hlocals⟩ := ih hrest hothers
      exact ⟨line :: locals, .cons hlines hlocals⟩

theorem lex_joinedSource_reads (hextra : ∀ entry ∈ extra, Settings.SingleLine entry) :
    (∃ lines, lex (joinedSource profile extra) = .ok lines) ↔
      (∃ first, lex profile = .ok first) ∧ ∀ entry ∈ extra, ∃ lines, lex entry = .ok lines := by
  rw [← exists_locals_iff hextra]
  constructor
  · rintro ⟨lines, hlines⟩
    obtain ⟨first, locals, hfirst, hlocals, -⟩ := (lex_joinedSource hextra).mp hlines
    exact ⟨⟨first, hfirst⟩, locals, hlocals⟩
  · rintro ⟨⟨first, hfirst⟩, locals, hlocals⟩
    exact ⟨first ++ locals, (lex_joinedSource hextra).mpr ⟨first, locals, hfirst, hlocals, rfl⟩⟩

theorem lex_joinedSource_fails (hextra : ∀ entry ∈ extra, Settings.SingleLine entry) :
    (∃ e, lex (joinedSource profile extra) = .error e) ↔
      (∃ e, lex profile = .error e) ∨ ∃ entry ∈ extra, ∃ e, lex entry = .error e := by
  have hfails (source : String) : (∃ e, lex source = .error e) ↔ ¬ ∃ lines,
      lex source = .ok lines := by
    cases lex source <;> simp
  simp only [hfails, lex_joinedSource_reads hextra, not_and_or, not_forall, exists_prop]

theorem no_lines_iff : (∃ first locals, lex profile = .ok first ∧
    List.Forall₂ ReadsAs extra locals ∧
    [] = first ++ locals) ↔ Text.strip profile = "" ∧ extra = [] := by
  rw [Text.strip_eq_empty_iff, ← lex_eq_nil_iff]
  constructor
  · rintro ⟨first, locals, hfirst, hlocals, hnil⟩
    obtain ⟨rfl, rfl⟩ := List.append_eq_nil_iff.mp hnil.symm
    exact ⟨hfirst, List.forall₂_nil_right_iff.mp hlocals⟩
  · rintro ⟨hblank, rfl⟩
    exact ⟨[], [], hblank, .nil, rfl⟩

def Round.Answered (r : Round) : Prop := ∀ call ∈ r.calls, ∃ n,
    call.2 = .ok (.int n) ∧ fitsWord n = true

theorem Round.Failed.not_answered {b : Blacklist} {r : Round} (h : r.Failed b) : ¬ r.Answered := by
  obtain ⟨names, fit, refused⟩ := h
  intro hall
  obtain ⟨n, hanswer, hn⟩ := hall _ (List.mem_append_right _ List.mem_cons_self)
  cases refused with
  | interrupted => cases hanswer
  | failed => cases hanswer
  | outOfRange hout =>
    cases hanswer
    exact absurd hn (by simp [hout])
  | noInteger hnone => exact hnone n (Except.ok.inj hanswer)
  | unwritable hunfit => exact absurd hn (by simp [hunfit n (Except.ok.inj hanswer)])

theorem Refused.ne_ofLex {name : String} {answer : Except Failure Json} {f : Failure}
    (h : Refused name answer f)
    (e : LexFailure) : f ≠ .ofLex e := by
  rintro rfl
  cases e <;> cases h <;> contradiction

theorem Round.Failed.ne_ofLex {b : Blacklist} {r : Round} (h : r.Failed b) :
    ∃ f, r.result = .error f ∧ ∀ e, f ≠ .ofLex e := by
  obtain ⟨names, fit, refused⟩ := h
  exact ⟨_, rfl, refused.ne_ofLex⟩

end Blacklist

/-! ### The run -/

namespace Board

variable {b : Board σ} {wanted : Settings.Hiding} {journal : Journal σ} {view : σ → τ}
  {s t : σ} {text : String}

/-- The text a session starts from, and the state then: that of the profile, or none where it
may do without a login. -/
inductive SessionText (b : Board σ) (wanted : Settings.Hiding) (s : σ) : String → σ → Prop
  | fetched {text : String} {t : σ} (authenticated : b.isAuthenticated = true)
      (answer : b.fetchBlacklist s = (.ok text, t)) : SessionText b wanted s text t
  | anonymous (anonymous : b.isAuthenticated = false)
    (unskipped : wanted.skipWhenAnonymous = false) :
      SessionText b wanted s "" s

def settle (b : Board σ) (wanted : Settings.Hiding) (journal : Journal σ) (x : Blacklist) :
    Run σ (Option Blacklist) :=
  if x.isEmpty then do
    journal.tell .info "blacklist_skipped" [("reason", .string "empty")]
    pure none
  else do
    let (resolved, _) ← x.resolve b.lookupUser
    journal.tell .info "blacklist_loaded"
      [("lines", .int resolved.lines.length), ("extra_lines", .int wanted.extraLines.length)]
    pure (some resolved)

theorem sessionBlacklist_eq (henabled : wanted.enabled = true)
    (htext : b.SessionText wanted s text t) :
    b.sessionBlacklist wanted journal s = match Blacklist.lex (joinedSource text wanted.extraLines)
      with
      | .error e => (.error (.ofLex e), t)
      | .ok lines => b.settle wanted journal ⟨lines⟩ t := by
  have hparse : (do
      let x ← Run.lift (Blacklist.parse (joinedSource text wanted.extraLines))
      b.settle wanted journal x) t = match Blacklist.lex (joinedSource text wanted.extraLines) with
        | .error e => (.error (.ofLex e), t)
        | .ok lines => b.settle wanted journal ⟨lines⟩ t := by
    rw [bind_apply, Run.lift, Blacklist.parse]
    cases Blacklist.lex (joinedSource text wanted.extraLines) <;> rfl
  rw [← hparse, sessionBlacklist, henabled]
  cases htext with
  | fetched authenticated answer =>
    simp only [authenticated, Bool.not_true, Bool.false_eq_true, if_false, Bool.false_and, if_true]
    rw [bind_apply, answer]
    rfl
  | anonymous anonymous unskipped =>
    simp only [anonymous, unskipped, Bool.not_true, Bool.false_eq_true, if_false, Bool.and_false]
    rfl

theorem settle_nil (b : Board σ) (wanted : Settings.Hiding)
    (hjournal : journal.Quiet view) (t : σ) :
    ∃ u, b.settle wanted journal ⟨[]⟩ t = (.ok none, u) := by
  obtain ⟨u, htell, -⟩ := hjournal .info "blacklist_skipped" [("reason", .string "empty")] t
  have hempty : (⟨[]⟩ : Blacklist).isEmpty = true := rfl
  refine ⟨u, ?_⟩
  simp only [settle, hempty, if_true, bind_apply, htell]
  rfl

theorem settle_cases (b : Board σ) (wanted : Settings.Hiding) (hjournal : journal.Quiet view)
    {lines : List Blacklist.Line} (hne : lines ≠ []) (t : σ) :
    (((Blacklist.round b.lookupUser (t, ⟨lines⟩)).Succeeded ⟨lines⟩ ∧ ∃ u,
      b.settle wanted journal ⟨lines⟩ t =
        (.ok (some (Blacklist.round b.lookupUser (t, ⟨lines⟩)).left), u)) ∨
    ((Blacklist.round b.lookupUser (t, ⟨lines⟩)).Failed ⟨lines⟩ ∧ ∃ f u, (∀ e, f ≠ .ofLex e) ∧
      b.settle wanted journal ⟨lines⟩ t = (.error f, u))) := by
  have hfull : (⟨lines⟩ : Blacklist).isEmpty = false := by simpa [Blacklist.isEmpty] using hne
  obtain ⟨v, hresolve⟩ : ∃ v, Blacklist.resolve ⟨lines⟩ b.lookupUser t =
      ((Blacklist.round b.lookupUser (t, ⟨lines⟩)).result.map fun n =>
        ((Blacklist.round b.lookupUser (t, ⟨lines⟩)).left, n), v) := ⟨_, rfl⟩
  rcases Blacklist.round_cases b.lookupUser t ⟨lines⟩ with hfailed | hsucceeded
  · obtain ⟨f, hresult, hlex⟩ := hfailed.ne_ofLex
    refine .inr ⟨hfailed, f, v, hlex, ?_⟩
    simp only [settle, hfull, Bool.false_eq_true, if_false, bind_apply, hresolve,
      hresult, Except.map]
  · obtain ⟨n, hresult⟩ := hsucceeded.result_eq
    obtain ⟨u, htell, -⟩ := hjournal .info "blacklist_loaded"
      [("lines", .int (Blacklist.round b.lookupUser (t, ⟨lines⟩)).left.lines.length),
        ("extra_lines", .int wanted.extraLines.length)] v
    refine .inl ⟨hsucceeded, u, ?_⟩
    simp only [settle, hfull, Bool.false_eq_true, if_false, bind_apply, hresolve,
      hresult, Except.map, htell]
    rfl

theorem settle_ne_ofLex (b : Board σ) (wanted : Settings.Hiding) (hjournal : journal.Quiet view)
    (lines : List Blacklist.Line) (t u : σ) (e : Blacklist.LexFailure) :
    b.settle wanted journal ⟨lines⟩ t ≠ (.error (.ofLex e), u) := by
  intro heq
  by_cases hnil : lines = []
  · subst hnil
    obtain ⟨v, hrun⟩ := b.settle_nil wanted hjournal t
    cases hrun.symm.trans heq
  · rcases b.settle_cases wanted hjournal hnil t with ⟨-, v, hrun⟩ | ⟨-, f, v, hlex, hrun⟩
    · cases hrun.symm.trans heq
    · cases hrun.symm.trans heq
      exact hlex e rfl

theorem settle_eq_none_iff (b : Board σ) (wanted : Settings.Hiding) (hjournal : journal.Quiet view)
    (lines : List Blacklist.Line) (t : σ) :
    (∃ u, b.settle wanted journal ⟨lines⟩ t = (.ok none, u)) ↔ lines = [] := by
  constructor
  · rintro ⟨u, heq⟩
    by_contra hne
    rcases b.settle_cases wanted hjournal hne t with ⟨-, v, hrun⟩ | ⟨-, f, v, -, hrun⟩ <;>
      cases hrun.symm.trans heq
  · rintro rfl
    exact b.settle_nil wanted hjournal t

theorem sessionBlacklist_fails_iff (henabled : wanted.enabled = true)
    (htext : b.SessionText wanted s text t) (hjournal : journal.Quiet view) :
    (∃ e u, b.sessionBlacklist wanted journal s = (.error (.ofLex e), u)) ↔
      ∃ e, Blacklist.lex (joinedSource text wanted.extraLines) = .error e := by
  rw [sessionBlacklist_eq henabled htext]
  cases Blacklist.lex (joinedSource text wanted.extraLines) with
  | error e => exact ⟨fun _ => ⟨e, rfl⟩, fun _ => ⟨e, t, rfl⟩⟩
  | ok lines => simp [settle_ne_ofLex _ _ hjournal]

theorem sessionBlacklist_none_iff (henabled : wanted.enabled = true)
    (htext : b.SessionText wanted s text t) (hjournal : journal.Quiet view) :
    (∃ u, b.sessionBlacklist wanted journal s = (.ok none, u)) ↔
      Blacklist.lex (joinedSource text wanted.extraLines) = .ok [] := by
  rw [sessionBlacklist_eq henabled htext]
  cases Blacklist.lex (joinedSource text wanted.extraLines) with
  | error e =>
    constructor
    · rintro ⟨u, hu⟩
      cases hu
    · intro h
      cases h
  | ok lines => simp [settle_eq_none_iff _ _ hjournal]

theorem resolved_parts {first locals : List Blacklist.Line} {r : Blacklist.Round}
    (h : r.Succeeded ⟨first ++ locals⟩) : ∃ numbers first' locals',
    r.calls = numbers.map Blacklist.answered ∧
      r.left = ⟨first' ++ locals'⟩ ∧
      List.Forall₂ (List.Forall₂ (Blacklist.Rewritten numbers)) first first' ∧
      List.Forall₂ (List.Forall₂ (Blacklist.Rewritten numbers)) locals locals' := by
  obtain @⟨numbers, lines, names, fit, rewritten⟩ := h
  have hfirst := List.forall₂_take_append lines first locals rewritten.flip
  have hlocals := List.forall₂_drop_append lines first locals rewritten.flip
  refine ⟨numbers, lines.take first.length, lines.drop first.length, rfl, ?_,
    hfirst.flip, hlocals.flip⟩
  rw [List.take_append_drop]

end Board

namespace Blacklist

/-- With settings that were checked and the blacklist turned on, the text of the profile and the
local lines are read by themselves: the whole fails to read exactly if one of them does, and there
is no blacklist exactly if the profile is blank and there are no local lines. Else, where every user
is found, the lines of the profile come first, and then one line for each local one. -/
theorem session_blacklist_lines (b : Board σ) (journal : Journal σ) (view : σ → τ) (s t : σ)
    (text path : String) (document : Yaml) (settings : Settings)
    (hvalid : Settings.ofYaml path document = .ok settings)
    (henabled : settings.blacklist.enabled = true)
    (htext : b.SessionText settings.blacklist s text t) (hjournal : journal.Quiet view) :
    ((∃ e u, b.sessionBlacklist settings.blacklist journal s = (.error (.ofLex e), u)) ↔
      (∃ e, lex text = .error e) ∨
        ∃ entry ∈ settings.blacklist.extraLines, ∃ e, lex entry = .error e) ∧
    ((∃ u, b.sessionBlacklist settings.blacklist journal s = (.ok none, u)) ↔
      Text.strip text = "" ∧ settings.blacklist.extraLines = []) ∧
    ∀ first, lex text = .ok first →
      (∀ entry ∈ settings.blacklist.extraLines, ∃ lines, lex entry = .ok lines) →
      ¬ (Text.strip text = "" ∧ settings.blacklist.extraLines = []) →
      ∃ locals, List.Forall₂ ReadsAs settings.blacklist.extraLines locals ∧
        ((round b.lookupUser (t, ⟨first ++ locals⟩)).Answered → ∃ numbers first' locals' u,
          b.sessionBlacklist settings.blacklist journal s = (.ok (some ⟨first' ++ locals'⟩), u) ∧
          (round b.lookupUser (t, ⟨first ++ locals⟩)).calls = numbers.map answered ∧
          isResolved ⟨first' ++ locals'⟩ = true ∧
          List.Forall₂ (List.Forall₂ (Rewritten numbers)) first first' ∧
          List.Forall₂ (List.Forall₂ (Rewritten numbers)) locals locals') := by
  have hextra : settings.blacklist.Lined := Settings.lined_ofYaml hvalid
  refine ⟨?_, ?_, fun first hfirst hall hsome => ?_⟩
  · rw [Board.sessionBlacklist_fails_iff henabled htext hjournal, lex_joinedSource_fails hextra]
  · rw [Board.sessionBlacklist_none_iff henabled htext hjournal,
      lex_joinedSource hextra, no_lines_iff]
  · obtain ⟨locals, hlocals⟩ := (exists_locals_iff hextra).mpr hall
    have hlex := (lex_joinedSource hextra).mpr ⟨first, locals, hfirst, hlocals, rfl⟩
    have hne : first ++ locals ≠ [] :=
      fun hnil => hsome (no_lines_iff.mp ⟨first, locals, hfirst, hlocals, hnil.symm⟩)
    refine ⟨locals, hlocals, fun hanswered => ?_⟩
    rw [Board.sessionBlacklist_eq henabled htext, hlex]
    rcases b.settle_cases settings.blacklist hjournal hne t
      with ⟨hsucceeded, u, hsettle⟩ | ⟨hfailed, -⟩
    · obtain ⟨numbers, first', locals', hcalls, hleft, hfront, hback⟩ :=
        Board.resolved_parts hsucceeded
      have hresolved := hsucceeded.isResolved_left
      rw [hleft] at hsettle hresolved
      exact ⟨numbers, first', locals', u, hsettle, hcalls, hresolved, hfront, hback⟩
    · exact absurd hanswered hfailed.not_answered

/-! ### A profile with two lines, and two local ones -/

def localDocument : Yaml :=
  .mapping [(.text "blacklist",
    .mapping [(.text "extra_lines", .list [.text "  -fox solo ", .text " ", .text "user:Bob"])])]

def profileBoard : Board Unit where
  isAuthenticated := true
  fetchBlacklist := pure "wolf\n\nuser:Ann\n"
  lookupUser := fun name => pure (.int (if name = "ann" then 5 else 7))
  searchPosts := fun _ _ _ => pure []
  fetchPost := fun _ => pure .null
  fetchPool := fun _ => pure []
  fetchSet := fun _ => pure []

theorem session_blacklist_two_locals :
    ∃ (settings : Settings) (first locals : List Line) (u : Unit),
    Settings.ofYaml "config.yaml" localDocument = .ok settings ∧
      settings.blacklist.extraLines = ["-fox solo", "user:Bob"] ∧
      profileBoard.sessionBlacklist settings.blacklist none () = (.ok (some ⟨first ++ locals⟩), u) ∧
      isResolved ⟨first ++ locals⟩ = true ∧ first.length = 2 ∧ locals.length = 2 := by
  obtain ⟨settings, hvalid, hlines, henabled⟩ : ∃ s,
      Settings.ofYaml "config.yaml" localDocument = .ok s ∧
      s.blacklist.extraLines = ["-fox solo", "user:Bob"] ∧ s.blacklist.enabled = true :=
        ⟨_, rfl, by decide, rfl⟩
  have htext : lex "wolf\n\nuser:Ann\n" = .ok [[.ofTag "wolf" false], [.ofUser "ann" false]] := by
    decide +kernel
  have hfox : lex "-fox solo" = .ok [[.ofTag "fox" true, .ofTag "solo" false]] := by decide +kernel
  have hbob : lex "user:Bob" = .ok [[.ofUser "bob" false]] := by decide +kernel
  obtain ⟨-, -, hlocals⟩ := session_blacklist_lines profileBoard none id () () _ "config.yaml"
    localDocument settings
    hvalid henabled (.fetched rfl rfl) (Journal.quiet_silent id)
  rw [hlines] at hlocals
  have hread : ∀ entry ∈ ["-fox solo", "user:Bob"], ∃ lines, lex entry = .ok lines := by
    simpa using ⟨⟨_, hfox⟩, _, hbob⟩
  obtain ⟨locals, hread, hresolved⟩ := hlocals _ htext hread (by simp)
  obtain rfl : locals = [[.ofTag "fox" true, .ofTag "solo" false], [.ofUser "bob" false]] := by
    cases hread with
    | cons hfirst hrest =>
      cases hrest with
      | cons hsecond hnone =>
        cases hnone
        cases hfox.symm.trans hfirst
        cases hbob.symm.trans hsecond
        rfl
  have hanswered : ∀ call ∈ [answered ("ann", 5), answered ("bob", 7)],
      ∃ n, call.2 = .ok (.int n) ∧ fitsWord n = true := by
    simpa using ⟨⟨5, rfl, by decide⟩, 7, rfl, by decide⟩
  obtain ⟨numbers, first', locals', u, hrun, -, hall, hfront, hback⟩ := hresolved hanswered
  exact ⟨settings, first', locals', u, hvalid, hlines, hrun, hall, hfront.length_eq.symm,
    hback.length_eq.symm⟩

end Blacklist
end Booru
