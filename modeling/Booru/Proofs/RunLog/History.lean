import Booru.Proofs.RunLog

/-! A log over a whole run. The loggers that come from one by binding write to one file, one line
for each event, up to the time when the first of them is closed. -/

namespace Booru

open Run

variable {p : Path} {place : Location} {content : ByteArray} {s : FileSystem} {w u v : World}

namespace Logger

variable {root l m : Logger} {bound : List Json.Members} {context fields : Json.Members}
  {level event : String}
  {isOpen : Bool} {taken : List String}

/-- The file of a log is under its path, and what is written to it goes to its end. -/
structure Stands (log : Logger) (place : Location) (isOpen : Bool) (content : ByteArray)
    (s : FileSystem) : Prop where
  plain : FileTree.hasNull log.path = false
  located : s.tree.locate? log.path = .ok place
  entry : s.tree.entry? place = some (.file content)
  held : ∃ h, s.handles[log.handle]? = some h ∧ h.location = some place ∧ h.isOpen = isOpen ∧
    (h.append = false → h.position = content.size)

theorem Stands.found (h : root.Stands place isOpen content s) :
    s.tree.find? root.path = .ok (some (.file content)) :=
  FileTree.find?_eq_some.mpr ⟨h.plain, place, h.located, h.entry⟩

theorem Stands.write (h : root.Stands place true content s) (bytes : ByteArray) :
    ∃ t, FileSystem.write root.handle bytes s = (.ok (), t) ∧
    root.Stands place true (content ++ bytes) t := by
  have hfile : s.tree.entry? place ≠ some .directory := by simp [h.entry]
  obtain ⟨handle, hopened, hplace, hopen, hend⟩ := h.held
  have hin : root.handle < s.handles.length := (List.getElem?_eq_some_iff.mp hopened).1
  refine ⟨_, FileSystem.write_to_end hopened hplace hopen hend h.entry bytes, h.plain,
    FileTree.locate?_put hfile h.located,
    FileTree.entry?_put_self (FileTree.ne_nil_of_not_directory hfile), ?_⟩
  exact ⟨_, List.getElem?_set_self hin, hplace, hopen, fun _ => rfl⟩

theorem Stands.write_closed (h : root.Stands place false content s) (bytes : ByteArray) :
    FileSystem.write root.handle bytes s = (.error (.argument .closedFile), s) := by
  obtain ⟨handle, hopened, -, hclosed, -⟩ := h.held
  simp only [FileSystem.write, hopened, hclosed, Bool.not_false, if_true]

theorem Stands.closed (h : root.Stands place isOpen content s) :
    root.Stands place false content (s.close root.handle) := by
  obtain ⟨handle, hopened, hplace, -, hend⟩ := h.held
  refine ⟨h.plain, h.located, h.entry, { handle with isOpen := false }, ?_, hplace, rfl, hend⟩
  rw [FileSystem.close, List.getElem?_modify_eq, hopened]
  rfl

theorem Stands.isOpen_eq (h : root.Stands place isOpen content w.files)
    (hl : l.handle = root.handle) :
    l.isOpen w = isOpen := by
  obtain ⟨handle, hopened, -, hopen, -⟩ := h.held
  simp only [Logger.isOpen, hl, hopened, hopen]

/-! ### Loggers that come from one by binding -/

theorem bind_untaken (h : ∀ m ∈ context, m.1 ∉ ["self"]) (l : Logger) (w : World) :
    l.bind context w = (.ok { l with
      context := Json.Members.overlay l.context (context.filter (!·.2.isNull))
      owner := false }, w) := by
  rw [bind, bind_apply, checkNames_untaken _ h]
  rfl

theorem bind_taken (h : ∃ m ∈ context, m.1 ∈ ["self"]) (l : Logger) (w : World) :
    ∃ name, l.bind context w = (.error (.takenName "bind" name), w) := by
  obtain ⟨m, -, -, hm⟩ := checkNames_taken "bind" h w
  rw [bind, bind_apply, hm]
  exact ⟨m.1, rfl⟩

theorem bind_ok (h : l.bind context w = (.ok m, v)) :
    m = { l with
      context := Json.Members.overlay l.context (context.filter (!·.2.isNull))
      owner := false } := by
  by_cases htaken : ∃ m ∈ context, m.1 ∈ ["self"]
  · obtain ⟨name, hname⟩ := bind_taken htaken l w
    rw [hname] at h
    cases h
  · rw [bind_untaken fun m hm hin => htaken ⟨m, hm, hin⟩] at h
    cases h
    rfl

/-- Loggers that come from one by binding, with all that was bound to them, the last of it first. -/
inductive Grows (root : Logger) : List Json.Members → Logger → Prop
  | root : Grows root [] root
  | bind {bound : List Json.Members} {l m : Logger} {context : Json.Members}
    {w v : World} (h : Grows root bound l)
    (hbind : l.bind context w = (.ok m, v)) : Grows root (context :: bound) m

theorem Grows.handle_eq (h : root.Grows bound l) : l.handle = root.handle := by
  induction h with
  | root => rfl
  | bind _ hbind ih => rw [bind_ok hbind, ← ih]

theorem Grows.session_eq (h : root.Grows bound l) : l.session = root.session := by
  induction h with
  | root => rfl
  | bind _ hbind ih => rw [bind_ok hbind, ← ih]

theorem Grows.owner_eq (h : root.Grows bound l) (hbound : bound ≠ []) : l.owner = false := by
  cases h with
  | root => exact absurd rfl hbound
  | bind _ hbind => rw [bind_ok hbind]

/-- What was bound last under a name and is not null. -/
def boundValue? (bound : List Json.Members) (name : String) : Option Json :=
  bound.findSome? fun context => (Json.Members.get? context name).filter (!·.isNull)

/-- What is told under a name: what a field says or, where there is none, what is bound. -/
def told (bound : List Json.Members) (fields : Json.Members) (name : String) : Option Json :=
  (Json.Members.get? fields name).or (boundValue? bound name)

theorem boundValue?_cons (context : Json.Members) (bound : List Json.Members) (name : String) :
    boundValue? (context :: bound) name =
      ((Json.Members.get? context name).filter (!·.isNull)).or (boundValue? bound name) := by
  rw [boundValue?, List.findSome?_cons]
  cases Option.filter (fun v : Json => !v.isNull) (Json.Members.get? context name) <;> rfl

theorem writable_members {ms : Json.Members} (h : (Json.object ms).Writable) :
    (Json.Members.names ms).Nodup ∧ ∀ m ∈ ms, m.2.Writable := by
  cases h with
  | object hnames h => exact ⟨hnames, h⟩

theorem Grows.nodup_context (h : root.Grows bound l) (hroot : root.context = []) :
    (Json.Members.names l.context).Nodup := by
  induction h with
  | root => exact hroot ▸ List.nodup_nil
  | bind _ hbind ih =>
    rw [bind_ok hbind]
    exact Json.Members.nodup_overlay ih _

theorem Grows.get?_context (h : root.Grows bound l) (hroot : root.context = [])
    (hbound : ∀ context ∈ bound, (Json.Members.names context).Nodup) (name : String) :
    Json.Members.get? l.context name = boundValue? bound name := by
  induction h with
  | root =>
    rw [hroot]
    rfl
  | @bind bound l m context w v _ hbind ih =>
    -- what is null is put aside before it is laid over the context, so it hides nothing
    rw [boundValue?_cons, ← ih fun c hc => hbound c (List.mem_cons_of_mem _ hc), bind_ok hbind,
      Json.Members.get?_overlay,
      Json.Members.get?_filter_of_nodup (hbound context List.mem_cons_self)]

theorem Grows.writable_context (h : root.Grows bound l) (hroot : root.context = [])
    (hbound : ∀ context ∈ bound, ∀ m ∈ context, m.2.Writable) : ∀ m ∈ l.context, m.2.Writable := by
  induction h with
  | root => simp [hroot]
  | @bind bound l m context w v _ hbind ih =>
    rw [bind_ok hbind]
    intro m hm
    rcases Json.Members.mem_overlay hm with hm | hm
    · exact ih (fun c hc => hbound c (List.mem_cons_of_mem _ hc)) m hm
    · exact hbound context List.mem_cons_self m (List.mem_of_mem_filter hm)

theorem Grows.get?_told (h : root.Grows bound l) (hroot : root.context = [])
    (hbound : ∀ context ∈ bound, (Json.Members.names context).Nodup) :
    Json.Members.get? (Json.Members.overlay l.context fields) = told bound fields := by
  funext name
  rw [Json.Members.get?_overlay, h.get?_context hroot hbound]
  rfl

theorem Grows.close_bound (h : root.Grows bound l) (hbound : bound ≠ []) (w : World) :
    l.close w = (.ok (), w) := by
  rw [close, h.owner_eq hbound]
  rfl

theorem close_owner (hroot : root.owner = true) (w : World) :
    root.close w = (.ok (), { w with files := w.files.close root.handle }) := by
  rw [close, hroot]
  rfl

/-! ### One event -/

theorem Stands.write_event (h : root.Stands place true content w.files) (hl : root.Grows bound l)
    (hnames : ∀ m ∈ fields, m.1 ∉ ["self", "level", "event"]) {level event : String}
    (hshort : ¬ (l.eventRecord level event fields w).hasLongInteger = true) :
    ∃ v, l.event level event fields w = (.ok (), v) ∧
      root.Stands place true (content ++ (l.eventLine level event fields w ++ "\n").toUTF8)
        v.files := by
  obtain ⟨t, hwrite, hstands⟩ := h.write (l.eventLine level event fields w ++ "\n").toUTF8
  refine ⟨{ w with files := t }, ?_, hstands⟩
  rw [event_untaken hnames, if_neg hshort, h.isOpen_eq hl.handle_eq, hl.handle_eq,
    Bool.not_true, Bool.and_false, if_neg Bool.false_ne_true]
  simp only [World.onFiles, World.within, hwrite]

theorem Stands.refuse_event (h : root.Stands place false content w.files) (hl : root.Grows bound l)
    (hnames : ∀ m ∈ fields, m.1 ∉ ["self", "level", "event"]) (level event : String) :
    ∃ e, l.event level event fields w = (.error (.argument e), w) := by
  by_cases hlong : (l.eventRecord level event fields w).hasLongInteger = true
  · exact ⟨_, event_long hnames _ _ hlong⟩
  have hwrite := h.write_closed (l.eventLine level event fields w ++ "\n").toUTF8
  rw [event_untaken hnames, if_neg hlong, h.isOpen_eq hl.handle_eq, hl.handle_eq,
    Bool.not_false, Bool.and_true]
  by_cases howner : l.owner = true
  · rw [if_pos howner]
    exact ⟨_, rfl⟩
  · rw [if_neg howner]
    simp only [World.onFiles, World.within, hwrite]
    exact ⟨_, rfl⟩

theorem Grows.writable_eventRecord (h : root.Grows bound l) (hroot : root.context = [])
    (hbound : ∀ context ∈ bound, (Json.object context).Writable)
    (hfields : (Json.object fields).Writable) (level event : String) (w : World) :
    (l.eventRecord level event fields w).Writable := by
  have hcontext := h.writable_context hroot fun context hc =>
    (writable_members (hbound context hc)).2
  exact RunLog.writable_record (Json.Members.nodup_overlay (h.nodup_context hroot) fields)
    fun m hm =>
    (Json.Members.mem_overlay hm).elim (hcontext m) ((writable_members hfields).2 m)

theorem Grows.read_eventLine (h : root.Grows bound l) (hroot : root.context = [])
    (hbound : ∀ context ∈ bound, (Json.object context).Writable)
    (hfields : (Json.object fields).Writable) (level event : String) (w : World) :
    '\n' ∉ (l.eventLine level event fields w).toList ∧
      ∃ ms, Json.read (l.eventLine level event fields w) = .ok (.object ms) ∧
        RunLog.Recounts w.now root.session level event
          (fun name => (told bound fields name).map Json.inOrder) ms := by
  have hwritable := h.writable_eventRecord hroot hbound hfields level event w
  have hdistinct := Json.Members.nodup_overlay (h.nodup_context hroot) fields
  have hcontext := h.writable_context hroot fun context hc =>
    (writable_members (hbound context hc)).2
  obtain ⟨ms, hread, hrecounts⟩ := RunLog.read_record w.now l.session level event hdistinct
    fun m hm =>
    (Json.Members.mem_overlay hm).elim (hcontext m) ((writable_members hfields).2 m)
  rw [h.get?_told hroot fun context hc => (writable_members (hbound context hc)).1, h.session_eq]
    at hrecounts
  exact ⟨hwritable.lineFeed_notMem, ms, hread, hrecounts⟩

/-! ### Calls one after the other -/

inductive Call
  | event (l : Logger) (level event : String) (fields : Json.Members)
  | close (l : Logger)

def Call.logger : Call → Logger
  | .event l .. => l
  | .close l => l

def Call.run : Call → Run World Unit
  | .event l level event fields => l.event level event fields
  | .close l => l.close

def after (calls : List Call) (w : World) : World := calls.foldl (fun w c => (c.run w).2) w

theorem Stands.run (h : root.Stands place isOpen content w.files)
    (hroot : root.owner = true) {c : Call}
    (hc : ∃ bound, root.Grows bound c.logger) : ∃ isOpen' content',
      root.Stands place isOpen' content' (c.run w).2.files ∧
      (isOpen' = true ↔ isOpen = true ∧ c ≠ .close root) := by
  obtain ⟨bound, hgrows⟩ := hc
  cases c with
  | event l level event fields =>
    change root.Grows bound l at hgrows
    change ∃ isOpen' content',
      root.Stands place isOpen' content' (l.event level event fields w).2.files ∧ _
    by_cases htaken : ∃ m ∈ fields, m.1 ∈ ["self", "level", "event"]
    · obtain ⟨m, -, -, hm⟩ := event_taken htaken l level event w
      rw [hm]
      exact ⟨isOpen, content, h, by simp⟩
    · have hnames : ∀ m ∈ fields, m.1 ∉ ["self", "level", "event"] := fun m hm hin =>
        htaken ⟨m, hm, hin⟩
      cases isOpen with
      | true =>
        by_cases hlong : (l.eventRecord level event fields w).hasLongInteger = true
        · rw [event_long hnames _ _ hlong]
          exact ⟨true, content, h, by simp⟩
        · obtain ⟨v, hv, hstands⟩ := h.write_event hgrows hnames hlong
          rw [hv]
          exact ⟨true, _, hstands, by simp⟩
      | false =>
        obtain ⟨e, he⟩ := h.refuse_event hgrows hnames level event
        rw [he]
        exact ⟨false, content, h, by simp⟩
  | close l =>
    change root.Grows bound l at hgrows
    change ∃ isOpen' content', root.Stands place isOpen' content' (l.close w).2.files ∧ _
    rcases eq_or_ne bound [] with rfl | hbound
    · cases hgrows
      rw [close_owner hroot]
      exact ⟨false, content, h.closed, by simp⟩
    · -- a logger that was bound owns nothing, so it is not the first
      have hne : Call.close l ≠ .close root := by
        intro heq
        cases heq
        rw [hgrows.owner_eq hbound] at hroot
        cases hroot
      rw [hgrows.close_bound hbound]
      exact ⟨isOpen, content, h, by simp [hne]⟩

theorem Stands.after (h : root.Stands place isOpen content w.files) (hroot : root.owner = true)
    {calls : List Call}
    (hcalls : ∀ c ∈ calls, ∃ bound, root.Grows bound c.logger) : ∃ isOpen' content',
      root.Stands place isOpen' content' (after calls w).files ∧
        (isOpen' = true ↔ isOpen = true ∧ Call.close root ∉ calls) := by
  induction calls generalizing w isOpen content with
  | nil => exact ⟨isOpen, content, h, by simp⟩
  | cons c calls ih =>
    obtain ⟨_, _, hstep, hopen⟩ := h.run hroot (hcalls c List.mem_cons_self)
    obtain ⟨isOpen', content', hstands, hopen'⟩ := ih hstep fun d hd =>
      hcalls d (List.mem_cons_of_mem c hd)
    refine ⟨isOpen', content', hstands, ?_⟩
    rw [hopen', hopen, List.mem_cons, not_or, and_assoc, ne_comm]

/-! ### The log from its opening on -/

theorem openFile_stands {append : Bool} {given : Option String}
    (h : openFile p append given w = (.ok root, v)) :
    root.path = p ∧ root.owner = true ∧ root.context = [] ∧
      ∃ place content, root.Stands place true content v.files := by
  rw [openFile, bind_apply] at h
  split at h
  · rename_i t _
    rw [bind_apply] at h
    simp only [World.onFiles, World.within, FileSystem.openFile] at h
    cases hopen : t.files.tree.openFile p append with
    | error f =>
      rw [hopen] at h
      cases h
    | ok opened =>
      obtain ⟨tree, place⟩ := opened
      rw [hopen] at h
      cases h
      obtain ⟨-, hnull, hplace, content, hentry, hempty⟩ := FileTree.openFile_ok hopen
      have hheld : (t.files.handles ++ [⟨some place, append, 0, true⟩])[t.files.handles.length]? =
          some ⟨some place, append, 0, true⟩ := List.getElem?_concat_length
      refine ⟨rfl, rfl, rfl, place, content, hnull, hplace, hentry, _, hheld, rfl,
        rfl, fun happend => ?_⟩
      rw [hempty happend]
      rfl
  · cases h

/-- The operation fails with a failure of a kind, and changes nothing. -/
def Refused {α : Type} (x : Run World α) (kind : FailureKind) (w : World) : Prop :=
  ∃ f, x w = (.error f, w) ∧ f.kind = kind

def LineAdded (p : Path) (P : Json.Members → Prop) (s t : FileTree) : Prop :=
  ∃ (content : ByteArray) (line : String) (ms : Json.Members),
    s.find? p = .ok (some (.file content)) ∧
      t.find? p = .ok (some (.file (content ++ (line ++ "\n").toUTF8))) ∧ '\n' ∉ line.toList ∧
    Json.read line = .ok (.object ms) ∧ P ms

/-- Whatever calls there were on the loggers of a tree, each event on one of them adds a line that
tells of it while the first logger is open, and is refused from then on. One that tells of an
integer that is too long is refused at all times. -/
theorem history_of_calls {append : Bool} {given : Option String} {before : List Call}
    (hopen : openFile p append given w = (.ok root, v))
    (hbefore : ∀ c ∈ before, ∃ bound, root.Grows bound c.logger) (hu : after before v = u)
    (hl : root.Grows bound l) :
    (∀ context, ((∀ m ∈ context, m.1 ∉ ["self"]) → ∃ m, l.bind context u = (.ok m, u)) ∧
      ((∃ m ∈ context, m.1 ∈ ["self"]) → Refused (l.bind context) .type u)) ∧
    (bound ≠ [] → l.close u = (.ok (), u)) ∧
    (bound = [] → ∃ t, l.close u = (.ok (), t) ∧ t.files.tree = u.files.tree) ∧
    ∀ level event fields,
      ((∃ m ∈ fields, m.1 ∈ ["self", "level", "event"]) →
        Refused (l.event level event fields) .type u) ∧
      ((∀ m ∈ fields, m.1 ∉ ["self", "level", "event"]) →
        (Call.close root ∈ before → Refused (l.event level event fields) .value u) ∧
        ((∀ context ∈ bound, (Json.Members.names context).Nodup) →
          (∃ name value, told bound fields name = some value ∧ value.hasLongInteger = true) →
          Refused (l.event level event fields) .value u) ∧
        (Call.close root ∉ before → (∀ context ∈ bound, (Json.object context).Writable) →
          (Json.object fields).Writable → ∃ t, l.event level event fields u = (.ok (), t) ∧
            LineAdded p (RunLog.Recounts u.now root.session level event fun name =>
              (told bound fields name).map Json.inOrder) u.files.tree t.files.tree)) := by
  obtain ⟨rfl, hroot, hcontext, place, content, hstands⟩ := openFile_stands hopen
  obtain ⟨isOpen, content, hstands, hopen⟩ := hstands.after hroot hbefore
  rw [hu] at hstands
  refine ⟨fun context => ⟨fun hnames => ⟨_, bind_untaken hnames l u⟩, fun htaken => ?_⟩,
    fun hbound => ?_, fun hbound => ?_, fun level event fields =>
      ⟨fun htaken => ?_, fun hnames => ⟨fun hclosed => ?_, ?_, ?_⟩⟩⟩
  · obtain ⟨name, hname⟩ := bind_taken htaken l u
    exact ⟨_, hname, rfl⟩
  · exact hl.close_bound hbound u
  · subst hbound
    cases hl
    exact ⟨_, close_owner hroot u, rfl⟩
  · obtain ⟨m, -, -, hm⟩ := event_taken htaken l level event u
    exact ⟨_, hm, rfl⟩
  · have hshut : isOpen = false := by
      rw [← Bool.not_eq_true, hopen]
      exact fun h => h.2 hclosed
    obtain ⟨e, he⟩ := (hshut ▸ hstands).refuse_event hl hnames level event
    exact ⟨_, he, rfl⟩
  · rintro hdistinct ⟨name, value, htold, hlong⟩
    rw [← hl.get?_told hcontext hdistinct] at htold
    obtain ⟨m, hm, rfl⟩ := Json.Members.exists_mem_of_get? htold
    exact ⟨_, event_long hnames _ _ (RunLog.hasLongInteger_record.mpr ⟨m, hm, hlong⟩), rfl⟩
  · intro hclosed hbound hfields
    have htrue : isOpen = true := hopen.mpr ⟨rfl, hclosed⟩
    have hwritable := hl.writable_eventRecord hcontext hbound hfields level event u
    obtain ⟨t, ht, hstands'⟩ := (htrue ▸ hstands).write_event hl hnames hwritable.not_hasLongInteger
    obtain ⟨hline, ms, hread, hrecounts⟩ := hl.read_eventLine hcontext hbound hfields level event u
    exact ⟨t, ht, content, _, ms, hstands.found, hstands'.found, hline, hread, hrecounts⟩

def beginning : World := { session := { script := .unreachable }, now := ⟨0⟩, draw := 0 }

def logPath : Path := ⟨"", ["run.log"]⟩

theorem exists_logger : ∃ root v, openFile logPath false (some "abc") beginning =
    (.ok root, v) := by
  obtain ⟨root, v, hopen, -⟩ : ∃ root v, openFile logPath false (some "abc") beginning =
      (.ok root, v) ∧ True :=
    exists_ok _ (by decide +kernel)
  exact ⟨root, v, hopen⟩

theorem writable_text (name text : String) : (Json.object [(name, .string text)]).Writable := by
  refine .object (List.nodup_singleton name) fun m hm => ?_
  rw [List.mem_singleton.mp hm]
  exact .string text

/-- A text over two lines, told by a logger that has its collection from the last of two bindings:
first while the log is open, though a logger in between was closed, then when it is closed. -/
theorem history_of_calls_twoLines : ∃ root v child inner,
    openFile logPath false (some "abc") beginning = (.ok root, v) ∧
    root.bind [("collection", .string "a")] v = (.ok child, v) ∧
    child.bind [("collection", .string "b")] v = (.ok inner, v) ∧
    (∃ t,
      inner.event "INFO" "e" [("note", .string "x\n\"y\"")] (after [.close child] v) =
        (.ok (), t) ∧
      LineAdded logPath
        (RunLog.Recounts (after [.close child] v).now root.session "INFO" "e" fun name =>
          (told [[("collection", .string "b")], [("collection", .string "a")]]
            [("note", .string "x\n\"y\"")] name).map Json.inOrder)
        (after [.close child] v).files.tree t.files.tree) ∧
    Refused (inner.event "INFO" "e" [("note", .string "x\n\"y\"")])
      .value (after [.close root] v) := by
  obtain ⟨root, v, hopen⟩ := exists_logger
  obtain ⟨-, hroot, -, -⟩ := openFile_stands hopen
  obtain ⟨child, hchild⟩ : ∃ child, root.bind [("collection", .string "a")] v = (.ok child, v) :=
    ⟨_, bind_untaken (by decide) root v⟩
  obtain ⟨inner, hinner⟩ : ∃ inner, child.bind [("collection", .string "b")] v = (.ok inner, v) :=
    ⟨_, bind_untaken (by decide) child v⟩
  have hgrown : root.Grows [[("collection", .string "a")]] child := .bind .root hchild
  have hnames : ∀ m ∈ [("note", Json.string "x\n\"y\"")], m.1 ∉ ["self", "level", "event"] := by
    decide
  have hother : Call.close root ∉ [Call.close child] := by
    intro hin
    cases List.mem_singleton.mp hin
    cases hroot.symm.trans (hgrown.owner_eq (List.cons_ne_nil _ _))
  have hwritable : ∀ context ∈ [[("collection", Json.string "b")], [("collection", .string "a")]],
      (Json.object context).Writable := by
    intro context hcontext
    simp only [List.mem_cons, List.not_mem_nil, or_false] at hcontext
    obtain rfl | rfl := hcontext
    · exact writable_text _ _
    · exact writable_text _ _
  have hbefore : ∀ c ∈ [Call.close child], ∃ bound, root.Grows bound c.logger := by
    intro c hc
    rw [List.mem_singleton.mp hc]
    exact ⟨_, hgrown⟩
  have hlast : ∀ c ∈ [Call.close root], ∃ bound, root.Grows bound c.logger := by
    intro c hc
    rw [List.mem_singleton.mp hc]
    exact ⟨[], .root⟩
  obtain ⟨-, -, -, hwhile⟩ := history_of_calls hopen hbefore rfl (.bind hgrown hinner)
  obtain ⟨-, -, -, hthen⟩ := history_of_calls hopen hlast rfl (.bind hgrown hinner)
  exact ⟨root, v, child, inner, hopen, hchild, hinner,
    ((hwhile "INFO" "e" _).2 hnames).2.2 hother hwritable (writable_text _ _),
    ((hthen "INFO" "e" _).2 hnames).1 List.mem_cons_self⟩

theorem Refused.not_lineAdded {x : Run World Unit} {kind : FailureKind} (h : Refused x kind w)
    (P : Json.Members → Prop) : ¬ LineAdded p P w.files.tree (x w).2.files.tree := by
  obtain ⟨f, hf, -⟩ := h
  rw [hf]
  rintro ⟨content, line, ms, hbefore, hafter, -⟩
  rw [hbefore] at hafter
  have hsame : content = content ++ (line ++ "\n").toUTF8 := by
    injection hafter with hfile
    injection hfile with hfile
    injection hfile with hfile
  have hsize := congrArg ByteArray.size hsame
  simp [ByteArray.size_append] at hsize

/-- A log that is open takes no event with a field that is named as the level is, and none with an
integer that has one digit more than are written. -/
theorem level_and_long_integer_refused : ∃ root v,
    openFile logPath false (some "abc") beginning = (.ok root, v) ∧ root.isOpen v = true ∧
    Refused (root.event "INFO" "e" [("level", .string "x")]) .type v ∧
    Refused (root.event "INFO" "e" [("n", .int (10 ^ Text.maxDigits : Nat))]) .value v ∧
    ∀ P, ¬ LineAdded logPath P v.files.tree
      (root.event "INFO" "e" [("level", .string "x")] v).2.files.tree ∧
      ¬ LineAdded logPath P v.files.tree
        (root.event "INFO" "e" [("n", .int (10 ^ Text.maxDigits : Nat))] v).2.files.tree := by
  obtain ⟨root, v, hopen⟩ := exists_logger
  obtain ⟨-, -, hcontext, place, content, hstands⟩ := openFile_stands hopen
  have hlevel : Refused (root.event "INFO" "e" [("level", .string "x")]) .type v := by
    obtain ⟨m, -, -, hm⟩ := event_taken ⟨("level", .string "x"), List.mem_cons_self, by
      decide⟩ root "INFO" "e" v
    exact ⟨_, hm, rfl⟩
  have hlong : Refused (root.event "INFO" "e" [("n", .int (10 ^ Text.maxDigits : Nat))])
      .value v := by
    have hvalue : (Json.int (10 ^ Text.maxDigits : Nat)).hasLongInteger = true :=
      Text.isLong_iff.mpr (Nat.le_of_eq (Int.natAbs_natCast _).symm)
    have hnames (value : Json) : ∀ m ∈ [("n", value)], m.1 ∉ ["self", "level", "event"] := by simp
    refine ⟨_, event_long (hnames _) _ _ (RunLog.hasLongInteger_record.mpr ?_), rfl⟩
    rw [hcontext]
    exact ⟨_, List.mem_singleton.mpr rfl, hvalue⟩
  exact ⟨root, v, hopen, hstands.isOpen_eq rfl, hlevel, hlong, fun P =>
    ⟨hlevel.not_lineAdded P, hlong.not_lineAdded P⟩⟩

end Logger
end Booru
