import Booru.Proofs.Json.RoundTrip
import Booru.RunLog

/-! What one line of a log tells. When it is read back, every field of the event stands in it once:
those of the context and the error at the top level, all others under `data`. -/

namespace Booru

namespace Json

variable {v : Json} {ms : Members}

theorem get?_inOrder (h : (Members.names ms).Nodup) (name : String) :
    Members.get? ((sortMembers ms).map fun m => (m.1, inOrder m.2)) name =
      (Members.get? ms name).map inOrder := by
  rw [Members.get?_map, Members.get?_perm h (sortMembers_perm ms).symm]

theorem names_inOrder (ms : Members) :
    (Members.names ((sortMembers ms).map fun m => (m.1, inOrder m.2))).Perm (Members.names ms) := by
  rw [Members.names_map]
  exact names_sortMembers ms

theorem isNull_inOrder (v : Json) : (inOrder v).isNull = v.isNull := by cases v <;> rfl

end Json

namespace RunLog

variable {now : Time.Instant} {session level event name : String} {fields ms : Json.Members}
  {told : String → Option Json}

def header (now : Time.Instant) (session level event : String) : Json.Members :=
  [("ts", .string now.text), ("level", .string level), ("event", .string event),
    ("session_id", .string session)]

def dataMember (data : Json.Members) : Json.Members := if data.isEmpty then []
    else [("data", .object data)]

def members (now : Time.Instant) (session level event : String) (fields : Json.Members) :
    Json.Members :=
  header now session level event ++ topLevel fields ++ dataMember (underData fields)

theorem record_eq (now : Time.Instant) (session level event : String) (fields : Json.Members) :
    record now session level event fields = .object (members now session level event fields) := rfl

/-- The members of a record tell of an event. The pairs that `told` gives stand in it,
each one in its place. -/
structure Recounts (now : Time.Instant) (session level event : String) (told : String → Option Json)
    (members : Json.Members) : Prop where
  distinct : (Json.Members.names members).Nodup
  stamp : Json.Members.get? members "ts" = some (.string now.text)
  level : Json.Members.get? members "level" = some (.string level)
  event : Json.Members.get? members "event" = some (.string event)
  session : Json.Members.get? members "session_id" = some (.string session)
  context : ∀ name ∈ contextFields, Json.Members.get? members name = (told name).filter (!·.isNull)
  error : Json.Members.get? members "error" = told "error"
  data : ∃ data : Json.Members, (Json.Members.names data).Nodup ∧
    Json.Members.get? members "data" = (if data.isEmpty then none else some (.object data)) ∧
    ∀ name, Json.Members.get? data name = if name ∈ "error" :: contextFields
      then none else told name
  nothingElse : ∀ name ∈ Json.Members.names members,
    name ∈ ["ts", "level", "event", "session_id", "error", "data"] ∨ name ∈ contextFields

theorem mem_names_topLevel (h : name ∈ Json.Members.names (topLevel fields)) :
    name ∈ "error" :: contextFields := by
  obtain ⟨m, hm, rfl⟩ := List.mem_map.mp h
  have hfield := (List.mem_filter.mp hm).2
  simp only [Bool.or_eq_true, beq_iff_eq, Bool.and_eq_true, List.contains_iff_mem] at hfield
  obtain herror | ⟨hcontext, -⟩ := hfield
  · rw [herror]
    exact List.mem_cons_self
  · exact List.mem_cons_of_mem _ hcontext

theorem mem_names_dataMember {data : Json.Members}
    (h : name ∈ Json.Members.names (dataMember data)) :
    name = "data" := by
  unfold dataMember at h
  split at h
  · cases h
  · exact List.mem_singleton.mp h

theorem get?_topLevel_none (h : name ∉ "error" :: contextFields) :
    Json.Members.get? (topLevel fields) name = none :=
  Json.Members.get?_of_forall_ne fun _ hm heq =>
    h (heq ▸ mem_names_topLevel (List.mem_map_of_mem hm))

theorem get?_dataMember_none (h : name ≠ "data") (data : Json.Members) :
    Json.Members.get? (dataMember data) name = none :=
  Json.Members.get?_of_forall_ne fun _ hm heq =>
    h (heq ▸ mem_names_dataMember (List.mem_map_of_mem hm))

theorem get?_members (now : Time.Instant) (session level event : String)
    (fields : Json.Members) (name : String) :
    Json.Members.get? (members now session level event fields) name =
      (Json.Members.get? (dataMember (underData fields)) name).or
        ((Json.Members.get? (topLevel fields) name).or
          (Json.Members.get? (header now session level event) name)) := by
  rw [members, Json.Members.get?_append, Json.Members.get?_append]

theorem get?_members_header (h : name ∉ "data" :: "error" :: contextFields) :
    Json.Members.get? (members now session level event fields) name =
      Json.Members.get? (header now session level event) name := by
  rw [List.mem_cons, not_or] at h
  rw [get?_members, get?_dataMember_none h.1, get?_topLevel_none h.2,
    Option.none_or, Option.none_or]

theorem get?_members_topLevel (h : name ∈ "error" :: contextFields) :
    Json.Members.get? (members now session level event fields) name =
      Json.Members.get? (topLevel fields) name := by
  have hother : ∀ name ∈ "error" :: contextFields, name ≠ "data" ∧
      name ∉ ["ts", "level", "event", "session_id"] := by decide
  obtain ⟨hdata, hheader⟩ := hother name h
  have hnone : Json.Members.get? (header now session level event) name = none :=
    Json.Members.get?_of_forall_ne fun m hm heq => hheader (heq ▸ List.mem_map_of_mem hm)
  rw [get?_members, get?_dataMember_none hdata, hnone, Option.none_or, Option.or_none]

theorem get?_members_data : Json.Members.get? (members now session level event fields) "data" =
    if (underData fields).isEmpty then none else some (.object (underData fields)) := by
  rw [get?_members, get?_topLevel_none (by decide)]
  unfold dataMember
  split <;> rfl

theorem names_members (now : Time.Instant) (session level event : String) (fields : Json.Members) :
    Json.Members.names (members now session level event fields) =
      ["ts", "level", "event", "session_id"] ++
      Json.Members.names (topLevel fields) ++ Json.Members.names
        (dataMember (underData fields)) := by
  rw [members, Json.Members.names, List.map_append, List.map_append]
  rfl

theorem distinct_members (h : (Json.Members.names fields).Nodup) :
    (Json.Members.names (members now session level event fields)).Nodup := by
  have hheader : ∀ name ∈ ["ts", "level", "event", "session_id"],
      name ∉ "error" :: contextFields := by decide
  have hdata : "data" ∉ ["ts", "level", "event", "session_id"] ∧
      "data" ∉ "error" :: contextFields := by decide
  have hdistinct : (Json.Members.names (dataMember (underData fields))).Nodup := by
    unfold dataMember
    split
    · exact List.nodup_nil
    · exact List.nodup_singleton "data"
  -- names of the header, of the top level and of the data are apart by what they are, and
  -- each kind is distinct
  rw [names_members, List.nodup_append, List.nodup_append]
  refine ⟨⟨by decide, Json.Members.nodup_filter h _, ?_⟩, hdistinct, ?_⟩
  · rintro name hin _ htop rfl
    exact hheader name hin (mem_names_topLevel htop)
  · rintro name hin _ hunder rfl
    obtain rfl := mem_names_dataMember hunder
    obtain hin | htop := List.mem_append.mp hin
    · exact hdata.1 hin
    · exact hdata.2 (mem_names_topLevel htop)

theorem recounts_members (h : (Json.Members.names fields).Nodup) :
    Recounts now session level event (Json.Members.get? fields)
      (members now session level event fields) where
  distinct := distinct_members h
  stamp := get?_members_header (by decide)
  level := get?_members_header (by decide)
  event := get?_members_header (by decide)
  session := get?_members_header (by decide)
  context := by
    intro name hname
    have hcontext : (name == "error") = false ∧ contextFields.contains name = true := by
      revert name
      decide
    rw [get?_members_topLevel (List.mem_cons_of_mem _ hname), topLevel,
      Json.Members.get?_filter_of_nodup h]
    simp only [hcontext, Bool.false_or, Bool.true_and]
  error := by
    rw [get?_members_topLevel List.mem_cons_self, topLevel, Json.Members.get?_filter_of_nodup h]
    cases Json.Members.get? fields "error" <;> rfl
  data := by
    refine ⟨underData fields, Json.Members.nodup_filter h _, get?_members_data, fun name => ?_⟩
    rw [underData, Json.Members.get?_filter_of_nodup h]
    have hplace : (!(name == "error" || contextFields.contains name)) =
        !decide (name ∈ "error" :: contextFields) := by
      simp [List.contains_eq_mem, beq_eq_decide]
    simp only [hplace]
    by_cases hname : name ∈ "error" :: contextFields
    · rw [if_pos hname, decide_eq_true hname]
      cases Json.Members.get? fields name <;> rfl
    · rw [if_neg hname, decide_eq_false hname]
      cases Json.Members.get? fields name <;> rfl
  nothingElse := by
    have hheader : ∀ name ∈ ["ts", "level", "event", "session_id"],
        name ∈ ["ts", "level", "event", "session_id", "error", "data"] := by decide
    intro name hname
    rw [names_members, List.mem_append, List.mem_append] at hname
    obtain (hname | hname) | hname := hname
    · exact .inl (hheader name hname)
    · rcases List.mem_cons.mp (mem_names_topLevel hname) with rfl | hcontext
      · exact .inl (by decide)
      · exact .inr hcontext
    · rw [mem_names_dataMember hname]
      exact .inl (by decide)

theorem Recounts.inOrder (h : Recounts now session level event told ms) :
    Recounts now session level event (fun name => (told name).map Json.inOrder)
      ((Json.sortMembers ms).map fun m => (m.1, Json.inOrder m.2)) where
  distinct := (Json.names_inOrder ms).nodup_iff.mpr h.distinct
  stamp := by rw [Json.get?_inOrder h.distinct, h.stamp]; rfl
  level := by rw [Json.get?_inOrder h.distinct, h.level]; rfl
  event := by rw [Json.get?_inOrder h.distinct, h.event]; rfl
  session := by rw [Json.get?_inOrder h.distinct, h.session]; rfl
  context := by
    intro name hname
    rw [Json.get?_inOrder h.distinct, h.context name hname]
    cases told name with
    | none => rfl
    | some v => simp [Option.filter, Json.isNull_inOrder]
  error := by rw [Json.get?_inOrder h.distinct, h.error]
  data := by
    obtain ⟨data, hdistinct, hget, hdata⟩ := h.data
    refine ⟨(Json.sortMembers data).map fun m => (m.1, Json.inOrder m.2),
      (Json.names_inOrder data).nodup_iff.mpr hdistinct, ?_, fun name => ?_⟩
    · rw [Json.get?_inOrder h.distinct, hget]
      have hempty : ((Json.sortMembers data).map fun m => (m.1, Json.inOrder m.2)).isEmpty =
          data.isEmpty := by
        rw [List.isEmpty_map]
        exact (Json.sortMembers_perm data).isEmpty_eq
      rw [hempty]
      split
      · rfl
      · rw [Option.map_some, Json.inOrder_object]
    · rw [Json.get?_inOrder hdistinct, hdata name]
      split <;> rfl
  nothingElse := fun name hname => h.nothingElse name ((Json.names_inOrder ms).mem_iff.mp hname)

/-! ### The line of a record -/

theorem hasLongInteger_record : (record now session level event fields).hasLongInteger = true ↔
    ∃ m ∈ fields, m.2.hasLongInteger = true := by
  have hheader : Json.hasLongMember (header now session level event) = false := rfl
  have hdata (data : Json.Members) : Json.hasLongMember (dataMember data) =
      Json.hasLongMember data := by
    cases data <;> simp [dataMember, Json.hasLongMember, Json.hasLongInteger]
  have happend (ms more : Json.Members) :
      Json.hasLongMember (ms ++ more) = (Json.hasLongMember ms || Json.hasLongMember more) := by
    rw [Bool.eq_iff_iff, Bool.or_eq_true]
    simp only [Json.hasLongMember_iff, List.mem_append, or_and_right, exists_or]
  rw [record_eq, Json.hasLongInteger, members, happend, happend, hheader, hdata,
    Bool.false_or, Bool.or_eq_true, Json.hasLongMember_iff, Json.hasLongMember_iff]
  constructor
  · rintro (⟨m, hm, hlong⟩ | ⟨m, hm, hlong⟩)
    · exact ⟨m, List.mem_of_mem_filter hm, hlong⟩
    · exact ⟨m, List.mem_of_mem_filter hm, hlong⟩
  · rintro ⟨m, hm, hlong⟩
    have hnull : m.2.isNull = false := by
      cases hvalue : m.2 <;> simp_all [Json.isNull, Json.hasLongInteger]
    cases htop : m.1 == "error" || contextFields.contains m.1 with
    | true => exact .inl ⟨m, List.mem_filter.mpr ⟨hm, by simpa [hnull] using htop⟩, hlong⟩
    | false => exact .inr ⟨m, List.mem_filter.mpr ⟨hm, by rw [htop]; rfl⟩, hlong⟩

theorem writable_record (h : (Json.Members.names fields).Nodup)
    (hvalues : ∀ m ∈ fields, m.2.Writable) :
    (record now session level event fields).Writable := by
  rw [record_eq]
  refine .object (distinct_members h) fun m hm => ?_
  rw [members, List.mem_append, List.mem_append] at hm
  obtain (hm | hm) | hm := hm
  · simp only [header, List.mem_cons, List.not_mem_nil, or_false] at hm
    obtain rfl | rfl | rfl | rfl := hm
    all_goals exact .string _
  · exact hvalues m (List.mem_of_mem_filter hm)
  · unfold dataMember at hm
    split at hm
    · cases hm
    · rw [List.mem_singleton.mp hm]
      exact .object (Json.Members.nodup_filter h _) fun u hu =>
        hvalues u (List.mem_of_mem_filter hu)

theorem read_record (now : Time.Instant) (session level event : String)
    (h : (Json.Members.names fields).Nodup)
    (hvalues : ∀ m ∈ fields, m.2.Writable) : ∃ ms,
      Json.read ((record now session level event fields).render .line) = .ok (.object ms) ∧
      Recounts now session level event
        (fun name => (Json.Members.get? fields name).map Json.inOrder) ms := by
  have hwritable : (record now session level event fields).Writable := writable_record h hvalues
  have hread := hwritable.read_render
  rw [record_eq, Json.inOrder_object] at hread
  exact ⟨_, hread, (recounts_members h).inOrder⟩

end RunLog
end Booru
