import Booru.RunLog
import Booru.Proofs.Download.Atomicity
import Booru.Proofs.RunLog.Recounting

/-! What is in the file of a log. A log that is open holds the records that were written so far, in
order, and writing one more never fails unless a field has a name that is taken. -/

namespace Booru

open Run

namespace RunLog

def text (records : List Json) : ByteArray :=
  (String.join (records.map fun r => r.render .line ++ "\n")).toUTF8

theorem text_concat (records : List Json) (r : Json) :
    text (records ++ [r]) = text records ++ (r.render .line ++ "\n").toUTF8 := by
  simp [text]

variable {now : Time.Instant} {session level event : String} {fields : Json.Members}
  {f : Failure} {r : Json}

theorem member_event (now : Time.Instant) (session level event : String) (fields : Json.Members) :
    (record now session level event fields).member "event" = .string event := by
  change (Json.Members.get? (members now session level event fields) "event").getD .null = _
  rw [get?_members_header (by decide)]
  rfl

theorem member_error (now : Time.Instant) (session level event : String) (fields : Json.Members) :
    (record now session level event fields).member "error" =
      (Json.Members.get? fields "error").getD .null := by
  have htop : Json.Members.get? (topLevel fields) "error" = Json.Members.get? fields "error" :=
    Json.Members.get?_filter (fun m hm => by simp [hm]) fields
  change (Json.Members.get? (members now session level event fields) "error").getD .null = _
  rw [get?_members_topLevel List.mem_cons_self, htop]

structure Tells (event : String) (f : Failure) (r : Json) : Prop where
  event : r.member "event" = .string event
  error : (r.member "error").member "type" = .string f.kind.name

/-- In a log under a path, the last record is one in `P`. -/
def EndsIn (p : Path) (t : FileTree) (P : Json → Prop) : Prop :=
  ∃ records last, t.find? p = .ok (some (.file (text (records ++ [last])))) ∧ P last

end RunLog

namespace Logger

variable {α : Type} {log : Logger} {l : Location} {records : List Json} {s : FileSystem}
  {w u : World} {p : Path}
  {J : FileTree → Prop} {fields : Json.Members}

/-- The log stands open at a place, and these are the records in it. Nothing is bound to it. -/
structure Holds (log : Logger) (l : Location) (records : List Json) (s : FileSystem) : Prop where
  unbound : log.context = []
  opened : s.handles[log.handle]? = some ⟨some l, false, (RunLog.text records).size, true⟩
  entry : s.tree.entry? l = some (.file (RunLog.text records))

theorem Holds.not_directory (h : log.Holds l records s) :
    s.tree.entry? l ≠ some .directory := by simp [h.entry]

theorem Holds.endsIn {P : Json → Prop} {r : Json} (h : log.Holds l (records ++ [r]) s)
    (hnull : FileTree.hasNull p = false) (hplace : s.tree.locate? p = .ok l) (hr : P r) :
    RunLog.EndsIn p s.tree P :=
  ⟨records, r, FileTree.find?_eq_some.mpr ⟨hnull, l, hplace, h.entry⟩, hr⟩

/-- Files at the place of the log do not count for `J`. -/
def Ignored (l : Location) (J : FileTree → Prop) : Prop :=
  ∀ t content, J t → t.entry? l ≠ some .directory → J (t.put l (.file content))

/-- The log stands open at a place, and apart from it the files are as `J` has them. -/
def Keeps (log : Logger) (l : Location) (J : FileTree → Prop) (s : FileSystem) : Prop :=
  J s.tree ∧ ∃ records, log.Holds l records s

theorem Keeps.mono {K : FileTree → Prop} (h : log.Keeps l J s) (hK : ∀ t, J t → K t) :
    log.Keeps l K s :=
  ⟨hK _ h.1, h.2⟩

theorem Holds.write (h : log.Holds l records s) (r : Json) : ∃ t,
    FileSystem.write log.handle (r.render .line ++ "\n").toUTF8 s = (.ok (), t) ∧
    log.Holds l (records ++ [r]) t ∧
      t.tree = s.tree.put l (.file (RunLog.text (records ++ [r]))) := by
  have hin : log.handle < s.handles.length := (List.getElem?_eq_some_iff.mp h.opened).1
  rw [FileSystem.write_at_end h.opened h.entry, ← RunLog.text_concat]
  exact ⟨_, rfl, ⟨h.unbound, List.getElem?_set_self hin,
    FileTree.entry?_put_self (FileTree.ne_nil_of_not_directory h.not_directory)⟩, rfl⟩

/-! ### One event -/

variable {taken : List String}

theorem checkNames_untaken (operation : String) (h : ∀ m ∈ fields, m.1 ∉ taken) (w : World) :
    checkNames operation taken fields w = (.ok (), w) := by
  have hnone : (fields.map (·.1)).find? taken.contains = none := by
    rw [List.find?_eq_none]
    intro name hname
    obtain ⟨m, hm, rfl⟩ := List.mem_map.mp hname
    simpa using h m hm
  rw [checkNames, hnone]
  rfl

theorem checkNames_taken (operation : String) (h : ∃ m ∈ fields, m.1 ∈ taken) (w : World) :
    ∃ m ∈ fields, m.1 ∈ taken ∧ checkNames operation taken fields w =
      (.error (.takenName operation m.1), w) := by
  obtain ⟨m, hm, htaken⟩ := h
  have hsome : ((fields.map (·.1)).find? taken.contains).isSome = true := by
    rw [List.find?_isSome]
    exact ⟨m.1, List.mem_map_of_mem hm, by simpa using htaken⟩
  obtain ⟨name, hfound⟩ := Option.isSome_iff_exists.mp hsome
  obtain ⟨first, hfirst, rfl⟩ := List.mem_map.mp (List.mem_of_find?_eq_some hfound)
  rw [checkNames, hfound]
  exact ⟨first, hfirst, by simpa using List.find?_some hfound, rfl⟩

theorem ensures_checkNames {P : World → Prop} (operation : String) (taken : List String)
    (fields : Json.Members) :
    Ensures P (checkNames operation taken fields) (fun _ => P)
      fun f w => P w ∧ ∃ m ∈ fields, m.1 ∈ taken ∧ f = .takenName operation m.1 := by
  intro w hw
  by_cases htaken : ∃ m ∈ fields, m.1 ∈ taken
  · obtain ⟨m, hm, hin, heq⟩ := checkNames_taken operation htaken w
    rw [heq]
    exact ⟨hw, m, hm, hin, rfl⟩
  · rw [checkNames_untaken operation (fun m hm hin => htaken ⟨m, hm, hin⟩) w]
    exact hw

def eventRecord (l : Logger) (level event : String) (fields : Json.Members) (w : World) : Json :=
  RunLog.record w.now l.session level event (Json.Members.overlay l.context fields)

def eventLine (l : Logger) (level event : String) (fields : Json.Members) (w : World) : String :=
  (l.eventRecord level event fields w).render .line

theorem event_taken (h : ∃ m ∈ fields, m.1 ∈ ["self", "level", "event"]) (l : Logger)
    (level event : String)
    (w : World) : ∃ m ∈ fields, m.1 ∈ ["self", "level", "event"] ∧
      l.event level event fields w = (.error (.takenName "event" m.1), w) := by
  obtain ⟨m, hm, hin, heq⟩ := checkNames_taken "event" h w
  rw [Logger.event, bind_apply, heq]
  exact ⟨m, hm, hin, rfl⟩

theorem event_untaken (h : ∀ m ∈ fields, m.1 ∉ ["self", "level", "event"]) (l : Logger)
    (level event : String)
    (w : World) : l.event level event fields w =
      if (l.eventRecord level event fields w).hasLongInteger
        then (.error (.argument .longInteger), w)
      else if l.owner && !l.isOpen w then (.error (.argument .closedLogger), w)
      else World.onFiles (FileSystem.write l.handle (l.eventLine level event fields w ++
        "\n").toUTF8) w := by
  have hget : (get : Run World World) w = (.ok w, w) := rfl
  have hrecord : RunLog.record w.now l.session level event (Json.Members.overlay l.context fields) =
      l.eventRecord level event fields w := rfl
  rw [Logger.event, bind_apply, checkNames_untaken _ h]
  simp only [bind_apply, hget, hrecord, Run.lift, Json.write]
  by_cases hlong : (l.eventRecord level event fields w).hasLongInteger = true
  · simp only [if_pos hlong]
  · simp only [if_neg hlong]
    split <;> rfl

theorem event_long (hnames : ∀ m ∈ fields, m.1 ∉ ["self", "level", "event"]) (level event : String)
    (hlong : (log.eventRecord level event fields w).hasLongInteger = true) :
    log.event level event fields w = (.error (.argument .longInteger), w) := by
  rw [event_untaken hnames, if_pos hlong]

theorem not_hasLongInteger_told {level event : String} (name : String) {value : Json}
    (h : log.event level event fields w = (.ok (), u))
    (hvalue : Json.Members.get? fields name = some value) :
    ¬ value.hasLongInteger = true := by
  intro hlong
  have htold : Json.Members.get? (Json.Members.overlay log.context fields) name = some value := by
    rw [Json.Members.get?_overlay, hvalue]
    rfl
  obtain ⟨m, hm, rfl⟩ := Json.Members.exists_mem_of_get? htold
  by_cases htaken : ∃ m ∈ fields, m.1 ∈ ["self", "level", "event"]
  · obtain ⟨m, -, -, heq⟩ := event_taken htaken log level event w
    cases heq.symm.trans h
  · have hnames : ∀ m ∈ fields, m.1 ∉ ["self", "level", "event"] := fun m hm hin =>
      htaken ⟨m, hm, hin⟩
    rw [event_long hnames level event (RunLog.hasLongInteger_record.mpr ⟨m, hm, hlong⟩)] at h
    cases h

theorem ensures_event (hJ : Ignored l J) (log : Logger) (records : List Json) (level event : String)
    (fields : Json.Members) :
    Ensures (fun w => J w.files.tree ∧ log.Holds l records w.files) (log.event level event fields)
      (fun _ w => J w.files.tree ∧ ∃ now, log.Holds l
        (records ++ [RunLog.record now log.session level event
          (Json.Members.overlay log.context fields)]) w.files)
      fun f w => (J w.files.tree ∧ log.Holds l records w.files) ∧
        ((∃ m ∈ fields, m.1 ∈ ["self", "level", "event"] ∧ f = .takenName "event" m.1) ∨
          f = .argument .longInteger ∧ ∃ m ∈ fields, m.2.hasLongInteger = true) := by
  rintro w ⟨hw, hholds⟩
  by_cases htaken : ∃ m ∈ fields, m.1 ∈ ["self", "level", "event"]
  · obtain ⟨m, hm, hin, heq⟩ := event_taken htaken log level event w
    rw [heq]
    exact ⟨⟨hw, hholds⟩, .inl ⟨m, hm, hin, rfl⟩⟩
  have hnames : ∀ m ∈ fields, m.1 ∉ ["self", "level", "event"] := fun m hm hin =>
    htaken ⟨m, hm, hin⟩
  by_cases hlong : (log.eventRecord level event fields w).hasLongInteger = true
  · rw [event_long hnames level event hlong]
    obtain ⟨m, hm, hvalue⟩ := RunLog.hasLongInteger_record.mp hlong
    have hin : m ∈ fields := (Json.Members.mem_overlay hm).resolve_left (by simp [hholds.unbound])
    exact ⟨⟨hw, hholds⟩, .inr ⟨rfl, m, hin, hvalue⟩⟩
  · have hopen : log.isOpen w = true := by simp only [isOpen, hholds.opened]
    rw [event_untaken hnames, if_neg hlong, hopen, Bool.not_true, Bool.and_false,
      if_neg Bool.false_ne_true]
    obtain ⟨t, hwrite, hheld, htree⟩ := hholds.write (log.eventRecord level event fields w)
    simp only [World.onFiles, World.within, eventLine, hwrite]
    exact ⟨htree ▸ hJ _ _ hw hholds.not_directory, w.now, hheld⟩

theorem ensures_log (hJ : Ignored l J) (log : Logger) (records : List Json)
    (level : Level) (event : String) {fields : Json.Members}
    (hnames : ∀ m ∈ fields, m.1 ∉ ["self", "level", "event"])
    (hshort : ∀ m ∈ fields, ¬ m.2.hasLongInteger = true) {E : Failure → World → Prop} :
    Ensures (fun w => J w.files.tree ∧ log.Holds l records w.files) (log.log level event fields)
      (fun _ w => J w.files.tree ∧ ∃ r, r.member "event" = .string event ∧
        (∀ v, Json.Members.get? fields "error" = some v → r.member "error" = v) ∧
        log.Holds l (records ++ [r]) w.files) E := by
  refine ((ensures_event hJ log records level.name event fields).weaken
    (fun _ hw => hw) ?_).weakenError ?_
  · rintro _ w ⟨hw, now, hholds⟩
    refine ⟨hw, _, RunLog.member_event .., fun v hv => ?_, hholds⟩
    rw [RunLog.member_error, Json.Members.get?_overlay, hv]
    rfl
  · rintro g w ⟨-, ⟨m, hm, htaken, -⟩ | ⟨-, m, hm, hlong⟩⟩
    · exact absurd htaken (hnames m hm)
    · exact absurd hlong (hshort m hm)

theorem not_hasLongInteger_failureRecord (f : Failure) :
    ¬ (RunLog.failureRecord f).hasLongInteger = true :=
  Bool.false_ne_true

theorem ensures_exception (hJ : Ignored l J) (log : Logger) (records : List Json)
    (event : String) (f : Failure) {fields : Json.Members}
    (hnames : ∀ m ∈ fields, m.1 ∉ ["self", "level", "event", "exc"])
    (hshort : ∀ m ∈ fields, ¬ m.2.hasLongInteger = true) {E : Failure → World → Prop} :
    Ensures (fun w => J w.files.tree ∧ log.Holds l records w.files) (log.exception event f fields)
      (fun _ w => J w.files.tree ∧ ∃ r, RunLog.Tells event f r ∧
        log.Holds l (records ++ [r]) w.files) E := by
  have huntaken : ∀ m ∈ Json.Members.put fields "error" (RunLog.failureRecord f),
      m.1 ∉ ["self", "level", "event"] := by
    intro m hm htaken
    obtain hfield | rfl := Json.Members.mem_put hm
    · exact hnames m hfield (List.mem_append_left ["exc"] htaken)
    · change "error" ∈ _ at htaken
      revert htaken
      decide
  have htold : ∀ m ∈ Json.Members.put fields "error" (RunLog.failureRecord f),
      ¬ m.2.hasLongInteger = true := by
    intro m hm
    obtain hfield | rfl := Json.Members.mem_put hm
    · exact hshort m hfield
    · exact not_hasLongInteger_failureRecord f
  refine ((ensures_checkNames "exception" _ fields).weakenError ?_).bind fun _ => ?_
  · -- the names that are taken here are among those of the fields
    rintro g w ⟨-, m, hm, htaken, -⟩
    refine absurd ?_ (hnames m hm)
    simp only [List.mem_cons, List.not_mem_nil, or_false] at htaken ⊢
    tauto
  · refine (ensures_log hJ log records _ event huntaken htold).weaken (fun _ hw => hw) ?_
    rintro _ w ⟨hw, r, hevent, herror, hholds⟩
    refine ⟨hw, r, ⟨hevent, ?_⟩, hholds⟩
    rw [herror _ (by rw [Json.Members.get?_put, if_pos rfl])]
    rfl

/-! ### Opening and closing -/

theorem ensures_openFile (p : Path) (w : World) :
    Ensures (· = w) (openFile p false none)
      (fun log u => log.path = p ∧ FileTree.hasNull p = false ∧ ∃ t l,
        FileTree.Grown p.parent w.files.tree t ∧
        FileTree.Touched p t u.files.tree ∧ u.files.tree.locate? p = .ok l ∧ log.Holds l [] u.files)
      fun _ _ => True := by
  refine ((Client.ensures_grown_onTree p.parent w).weakenError fun _ _ _ => trivial).bind
    fun _ v hv => ?_
  refine Ensures.bind ((Client.ensures_openFile_anew p v.files.tree).weakenError
    fun _ _ _ => trivial)
    (fun handle => ?_) v rfl
  rintro u ⟨hnull, l, htouched, hopened, hplace, hentry⟩
  exact ⟨rfl, hnull, v.files.tree, l, hv.2, htouched, hplace, rfl, hopened, hentry⟩

theorem openFile_ok (h : openFile p false none w = (.ok log, u)) :
    log.path = p ∧ FileTree.hasNull p = false ∧ ∃ t l, FileTree.Grown p.parent w.files.tree t ∧
      FileTree.Touched p t u.files.tree ∧ u.files.tree.locate? p = .ok l ∧ log.Holds l [] u.files :=
  (ensures_openFile p w).ok rfl h

theorem close_apply (log : Logger) (w : World) : ∃ u, log.close w = (.ok (), u) ∧
    u.files.tree = w.files.tree := by
  unfold close
  split <;> exact ⟨_, rfl, rfl⟩

end Logger
end Booru
