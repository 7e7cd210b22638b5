import Booru.Proofs.Command.Checks
import Booru.Proofs.Download.Logged

/-! What a command does around its work: it opens a log, puts on record how the work failed, and
closes the log again. The log takes all that it is told in between. -/

namespace Booru

open Run FileTree

variable {α : Type} {H : Prop} {I : FileSystem → Prop} {J : FileTree → Prop}
  {L : Failure → FileTree → Prop}
  {log : Logger} {l : Location} {fields : Json.Members}

theorem Settings.exists_ofYaml {t : FileTree} {p : Path} {settings : Settings}
    (h : load t p = .ok settings) :
    ∃ document, ofYaml p.text document = .ok settings := by
  unfold load at h
  cases htext : readTextFile t .config p with
  | error f => simp [htext, bind, Except.bind] at h
  | ok text =>
    simp only [htext, bind, Except.bind] at h
    split at h
    · rename_i document hread
      exact ⟨document, mapError_eq_ok.mp h⟩
    · cases h
    · cases h

namespace Logger

theorem upholds_log (hJ : Ignored l J) (log : Logger) (level : Level) (event : String)
    (fields : Json.Members) :
    Upholds (World.ServedAndFilesIn False (log.Keeps l J))
      (log.log level event fields) (fun _ => True)
      (Failure.NoMistake False) := by
  refine ⟨fun w hw => ?_⟩
  obtain ⟨-, hkept, records, hholds⟩ := hw
  have hend := ensures_event hJ log records level.name event fields w ⟨hkept, hholds⟩
  rw [Logger.log]
  rcases hrun : log.event level.name event fields w with ⟨f | ⟨⟩, u⟩ <;> rw [hrun] at hend
  · obtain ⟨⟨hkept, hholds⟩, ⟨m, -, -, rfl⟩ | ⟨rfl, -⟩⟩ := hend
    · exact ⟨⟨False.elim, hkept, records, hholds⟩, rfl, False.elim⟩
    · exact ⟨⟨False.elim, hkept, records, hholds⟩, rfl, False.elim⟩
  · obtain ⟨hkept, now, hholds⟩ := hend
    exact ⟨⟨False.elim, hkept, _, hholds⟩, trivial⟩

theorem within_ofLogger (hJ : Ignored l J) (log : Logger) :
    Journal.Within (World.ServedAndFilesIn False (log.Keeps l J)) False (.ofLogger log) :=
  upholds_log hJ log

end Logger

namespace Command

/-! ### A log around a command -/

theorem ensures_recording (hL : ∀ f, Logger.Ignored l (L f)) {P : World → Prop}
    {Q : α → World → Prop} (event : String)
    (hnames : ∀ m ∈ fields, m.1 ∉ ["self", "level", "event", "exc"])
    (hshort : ∀ m ∈ fields, ¬ m.2.hasLongInteger = true) {x : Run World α}
    (hx : Ensures P x Q fun f w => log.Keeps l (L f) w.files) :
    Ensures P (recording log event fields x) Q fun f w => f.isInterrupt = false →
      L f w.files.tree ∧ ∃ records r, RunLog.Tells event f r ∧
      log.Holds l (records ++ [r]) w.files := by
  refine hx.tryCatch fun f => ?_
  cases hstop : f.isInterrupt with
  | true =>
    refine Ensures.throw (f := f) fun w _ hgoes => ?_
    cases hstop.symm.trans hgoes
  | false =>
    rintro w ⟨hkept, records, hholds⟩
    refine (Logger.ensures_exception (hL f) log records event f hnames hshort).bind
      (fun _ => .throw ?_) w
      ⟨hkept, hholds⟩
    rintro u ⟨hkept, r, htells, hholds⟩ -
    exact ⟨hkept, records, r, htells, hholds⟩

theorem ensures_begun (hJ : Logger.Ignored l J) (hL : ∀ f, Logger.Ignored l (L f)) {u : World}
    (hkept : J u.files.tree) (hholds : log.Holds l [] u.files) (started failed : String)
    {about : Json.Members}
    (habout : ∀ m ∈ about, m.1 ∉ ["self", "level", "event"] ∧ ¬ m.2.hasLongInteger = true)
    (hfields : ∀ m ∈ fields, m.1 ∉ ["self", "level", "event", "exc"] ∧ ¬ m.2.hasLongInteger = true)
    {x : Run World α} {Q : α → World → Prop}
    (hx : ∀ v, log.log .info started about u = (.ok (), v) → log.Keeps l J v.files →
      Ensures (· = v) x Q fun f w => log.Keeps l (L f) w.files) :
    Ensures (· = u) (log.log .info started about >>= fun _ => recording log failed fields x) Q
      fun f w => f.isInterrupt = false →
        L f w.files.tree ∧ ∃ records r, RunLog.Tells failed f r ∧
        log.Holds l (records ++ [r]) w.files := by
  have hstarted := Logger.ensures_log hJ log [] .info started (fun m hm => (habout m hm).1)
    (fun m hm => (habout m hm).2) (E := fun _ _ => False)
  refine ((hstarted.result ⟨hkept, hholds⟩).weakenError fun _ _ hw => hw.1.elim).bind fun _ => ?_
  rintro v ⟨⟨hv, r, -, -, hr⟩, hrun⟩
  exact ensures_recording hL failed (fun m hm => (hfields m hm).1) (fun m hm => (hfields m hm).2)
    (hx v hrun ⟨hv, _, hr⟩) v rfl

theorem ensures_withLog {p : Path} {w u : World}
    (hopen : Logger.openFile p false none w = (.ok log, u)) {x : Logger → Run World α}
    {Q : α → FileTree → Prop} {E : Failure → FileTree → Prop}
    (hx : Ensures (· = u) (x log) (fun a t => Q a t.files.tree) fun f t => E f t.files.tree) :
    Ensures (· = w) (withLog p x) (fun a t => Q a t.files.tree) fun f t => E f t.files.tree := by
  rintro _ rfl
  have hend := hx u rfl
  obtain ⟨v, hclose, htree⟩ := log.close_apply (x log u).2
  have houtcome : Run.outcome (x log) u = (.ok (x log u).1, (x log u).2) := rfl
  simp only [withLog, bind_apply, hopen, houtcome, hclose, Run.lift]
  rcases hresult : x log u with ⟨f | a, t⟩ <;> rw [hresult] at hend htree <;>
    simp only [htree] <;> exact hend

theorem upholds_closing {P : World → Prop} {Q : α → Prop} {F : Failure → Prop} {x : Run World α}
    (hx : Upholds P x Q F) (hclose : ∀ w, P w → P { w with session := w.session.close }) :
    Upholds P (closing x) Q F :=
  Client.upholds_followedBy hx hclose

theorem upholds_openClient (htold : Journal.Within (World.ServedAndFilesIn H I) H (.ofLogger log))
    (path : String) (environment : List (String × String)) :
    Upholds (World.ServedAndFilesIn H I) (openClient path environment log)
      (fun r => Sound H I r.1 r.2 log) fun _ => True := by
  refine .bind (Q := fun settings => ∃ document,
    Settings.ofYaml (Path.ofString path).text document = .ok settings)
    ⟨fun w hw => ?_⟩ fun settings hsettings => ?_
  · simp only [World.inspect]
    cases hload : Settings.load w.files.tree (Path.ofString path) with
    | error f => exact ⟨hw, trivial⟩
    | ok settings => exact ⟨hw, Settings.exists_ofYaml hload⟩
  · obtain ⟨document, hread⟩ := hsettings
    refine .bind (Q := fun credentials =>
      Credentials.resolve settings.login environment = .ok credentials)
      (.lift (fun _ h => mapError_eq_ok.mp h) fun _ _ => trivial) fun credentials hcredentials => ?_
    refine .bind (Q := fun _ => True) (.lift (fun _ _ => trivial) fun _ _ => trivial) fun _ _ => ?_
    refine ((htold _ _ _).weakenError fun _ _ => trivial).bind fun _ _ => ?_
    exact .pure (sound_clientOf hread hcredentials htold)

theorem ensures_printLine {P : FileSystem → Prop} (line : String) :
    Ensures (fun w => P w.files) (World.printLine line) (fun _ w => P w.files)
      fun f w => P w.files ∧ ∃ e : OutputError, f = .raised e.fault := by
  intro w hw
  unfold World.printLine
  cases w.screen w.printed.length with
  | none => exact hw
  | some e => exact ⟨hw, e, rfl⟩

end Command
end Booru
