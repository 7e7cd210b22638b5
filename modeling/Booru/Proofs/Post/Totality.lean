import Booru.Post
import Booru.Proofs.Text.DigitLike

/-! When an answer of the board becomes posts. Every answer does, whatever its form, unless a
numeric field in it holds a text that looks like an integer and is not read as one: behind two minus
signs or more, with a digit that decimal numerals do not have, or with too many digits. -/

namespace Booru.Post

open Text

def number? : Json → Option Int
  | .int n => some n
  | .string s => if IsInteger (trim s.toList) then some (integerValue (trim s.toList)) else none
  | _ => none

/-- A text that passes for an integer and fails when it is read. -/
inductive Deceptive : Json → Prop
  | text {s : String} : looksDecimal (trim s.toList) = true →
      (1 < minusSigns (trim s.toList) ∨ (∃ c ∈ behindMinus (trim s.toList), isDecimal c = false) ∨
        maxDigits < (behindMinus (trim s.toList)).length) →
      Deceptive (.string s)

def fault? : Json → Option IntegerError
  | .string s =>
    if looksDecimal (trim s.toList) = true ∧ ¬ IsInteger (trim s.toList) then
      some (integerFault (trim s.toList))
    else none
  | _ => none

/-- A result that is there once all of some fields are read, unless one of them fails. -/
def afterReading {α : Type} (fields : List Json) (a : α) : Except IntegerError α :=
  match fields.findSome? fault? with
  | some e => .error e
  | none => .ok a

def scoreFields : Json → List Json
  | .object ms =>
    let total := (Json.Members.get? ms "total").getD .null
    total :: if (number? total).isSome then []
      else [(Json.Members.get? ms "up").getD .null, (Json.Members.get? ms "down").getD .null]
  | v => [v]

def scoreNumber : Json → Int
  | .object ms =>
    (number? ((Json.Members.get? ms "total").getD .null)).getD
      ((number? ((Json.Members.get? ms "up").getD .null)).getD 0 +
        (number? ((Json.Members.get? ms "down").getD .null)).getD 0)
  | v => (number? v).getD 0

def entryFields (entry : Json) : List Json :=
  match entry with
  | .object _ =>
    entry.member "id" :: if (number? (entry.member "id")).isSome then
      entry.member "uploader_id" :: scoreFields (entry.member "score") ++
        [(entry.member "file").member "size"]
    else []
  | _ => []

def numericFields (payload : Json) : List Json := (itemsOf payload).flatMap entryFields

def normal? (entry : Json) : Option Post :=
  match entry with
  | .object _ => (number? (entry.member "id")).map fun id =>
    { id
      uploader := (number? (entry.member "uploader_id")).getD 0
      rating := ratingOf (entry.member "rating")
      tags := tagsOf (entry.member "tags")
      deleted := deletedOf entry
      fileUrl := text? ((entry.member "file").member "url")
      score := scoreNumber (entry.member "score")
      md5 := text? ((entry.member "file").member "md5")
      fileExt := text? ((entry.member "file").member "ext")
      fileSize := max 0 ((number? ((entry.member "file").member "size")).getD 0) }
  | _ => none

/-! ### One field -/

theorem looksDecimal_iff {cs : List Char} :
    looksDecimal cs = true ↔ behindMinus cs ≠ [] ∧ ∀ c ∈ behindMinus cs, isDigitLike c = true := by
  simp [looksDecimal, behindMinus]

theorem looksDecimal_of_isInteger {cs : List Char} (h : IsInteger cs) : looksDecimal cs = true :=
  looksDecimal_iff.mpr ⟨h.nonempty, fun c hc => isDigitLike_of_isDecimal (h.decimal c hc)⟩

theorem integer_eq (v : Json) : integer? v = afterReading [v] (number? v) := by
  cases v with
  | string s =>
    simp only [integer?, afterReading, List.findSome?_singleton, fault?, number?]
    by_cases hlooks : looksDecimal (trim s.toList) = true
    · obtain ⟨hne, hlike⟩ := looksDecimal_iff.mp hlooks
      rw [if_pos hlooks, readInteger_digits_like hne hlike]
      by_cases hinteger : IsInteger (trim s.toList)
      · simp [hinteger, Except.map]
      · simp [hinteger, hlooks, Except.map]
    · have hno : ¬ IsInteger (trim s.toList) := fun h => hlooks (looksDecimal_of_isInteger h)
      simp [hlooks, hno]
  | _ => rfl

theorem fault_eq_some {v : Json} {e : IntegerError} :
    fault? v = some e ↔ Deceptive v ∧ ∃ s, v = .string s ∧ e = integerFault (trim s.toList) := by
  constructor
  · intro h
    cases v with
    | string s =>
      simp only [fault?, Option.ite_none_right_eq_some, Option.some.injEq] at h
      obtain ⟨⟨hlooks, hno⟩, he⟩ := h
      refine ⟨.text hlooks ?_, s, rfl, he.symm⟩
      by_contra hgaps
      simp only [not_or, not_exists, not_and, Bool.not_eq_false, not_lt] at hgaps
      exact hno ⟨hgaps.1, (looksDecimal_iff.mp hlooks).1, hgaps.2.1, hgaps.2.2⟩
    | _ => simp [fault?] at h
  · rintro ⟨hdeceptive, s, rfl, rfl⟩
    cases hdeceptive with
    | text hlooks hgaps =>
      have hno : ¬ IsInteger (trim s.toList) := by
        intro h
        rcases hgaps with hsigns | ⟨c, hc, hdecimal⟩ | hlong
        · exact absurd h.signs (not_le.mpr hsigns)
        · simp [h.decimal c hc] at hdecimal
        · exact absurd h.short (not_le.mpr hlong)
      simp [fault?, hlooks, hno]

theorem fault_eq_none {v : Json} : fault? v = none ↔ ¬ Deceptive v := by
  constructor
  · intro h hdeceptive
    cases hdeceptive with
    | @text s hlooks hgaps =>
      have hfault := fault_eq_some.mpr ⟨.text hlooks hgaps, s, rfl, rfl⟩
      simp [h] at hfault
  · intro h
    cases hv : fault? v with
    | none => rfl
    | some e => exact absurd (fault_eq_some.mp hv).1 h

/-! ### Several fields -/

variable {α β : Type}

theorem afterReading_bind {a : α} {b : β} {k : α → Except IntegerError β} {more : List Json}
    (fields : List Json) (h : k a = afterReading more b) :
    (afterReading fields a >>= k) = afterReading (fields ++ more) b := by
  simp only [afterReading, List.findSome?_append]
  cases fields.findSome? fault? with
  | some e => rfl
  | none => exact h

theorem afterReading_pure {a : α} {b : β} {k : α → Except IntegerError β} (fields : List Json)
    (h : k a = .ok b) : (afterReading fields a >>= k) = afterReading fields b := by
  have hall := @afterReading_bind _ _ a b k [] fields h
  rwa [List.append_nil] at hall

theorem integer_bind {b : β} {k : Option Int → Except IntegerError β} {more : List Json} (v : Json)
    (h : k (number? v) = afterReading more b) :
    (integer? v >>= k) = afterReading (v :: more) b := by
  rw [integer_eq]
  exact afterReading_bind [v] h

theorem afterReading_eq_ok {fields : List Json} {a b : α} :
    afterReading fields a = .ok b ↔ (∀ v ∈ fields, ¬ Deceptive v) ∧ b = a := by
  have hnone : fields.findSome? fault? = none ↔ ∀ v ∈ fields, ¬ Deceptive v := by
    simp only [List.findSome?_eq_none_iff, fault_eq_none]
  rw [← hnone, afterReading]
  cases fields.findSome? fault? with
  | some e => simp
  | none => simp [eq_comm]

theorem afterReading_eq_error {fields : List Json} {a : α} {e : IntegerError} :
    afterReading fields a = .error e ↔ ∃ before s after, fields = before ++ .string s :: after ∧
      (∀ v ∈ before, ¬ Deceptive v) ∧ Deceptive (.string s) ∧ e = integerFault (trim s.toList) := by
  have hsome : afterReading fields a = .error e ↔ fields.findSome? fault? = some e := by
    rw [afterReading]
    cases fields.findSome? fault? with
    | some e' => simp
    | none => simp
  rw [hsome, List.findSome?_eq_some_iff]
  constructor
  · rintro ⟨before, v, after, hsplit, hv, hbefore⟩
    obtain ⟨hdeceptive, s, rfl, he⟩ := fault_eq_some.mp hv
    exact ⟨before, s, after, hsplit, fun u hu => fault_eq_none.mp (hbefore u hu), hdeceptive, he⟩
  · rintro ⟨before, s, after, hsplit, hbefore, hdeceptive, he⟩
    exact ⟨before, .string s, after, hsplit, fault_eq_some.mpr ⟨hdeceptive, s, rfl, he⟩,
      fun u hu => fault_eq_none.mpr (hbefore u hu)⟩

/-! ### Entries and answers -/

theorem scoreOf_eq (v : Json) : scoreOf v = afterReading (scoreFields v) (scoreNumber v) := by
  cases v with
  | object ms =>
    refine integer_bind _ ?_
    cases htotal : number? ((Json.Members.get? ms "total").getD .null) with
    | some n =>
      simp only [scoreNumber, htotal, Option.isSome_some, if_true]
      rfl
    | none =>
      have hvotes : scoreNumber (.object ms) =
          (number? ((Json.Members.get? ms "up").getD .null)).getD 0 +
            (number? ((Json.Members.get? ms "down").getD .null)).getD 0 := by
        simp [scoreNumber, htotal]
      rw [hvotes]
      exact integer_bind _ (integer_bind _ rfl)
  | _ => exact integer_bind _ rfl

theorem ofEntry_eq (entry : Json) :
    ofEntry? entry = afterReading (entryFields entry) (normal? entry) := by
  cases entry with
  | object ms =>
    refine integer_bind _ ?_
    cases hid : number? ((Json.object ms).member "id") with
    | none =>
      simp only [normal?, hid]
      rfl
    | some id =>
      simp only [normal?, hid, Option.isSome_some, if_true, Option.map_some, List.cons_append]
      refine integer_bind _ ?_
      rw [scoreOf_eq]
      exact afterReading_bind _ (integer_bind _ rfl)
  | _ => rfl

theorem ofEntries_eq (entries : List Json) :
    ofEntries entries = afterReading (entries.flatMap entryFields)
      (entries.filterMap normal?, entries.countP fun entry => (normal? entry).isNone) := by
  induction entries with
  | nil => rfl
  | cons entry rest ih =>
    rw [ofEntries, ofEntry_eq, List.flatMap_cons]
    refine afterReading_bind _ ?_
    rw [ih]
    refine afterReading_pure _ ?_
    cases hentry : normal? entry with
    | some p => simp [hentry, pure, Except.pure]
    | none => simp [hentry, pure, Except.pure]

/-- An answer of any form becomes posts and a number of left-out entries, if and only if none of the
numeric fields read on the way is deceptive: an entry gives a post exactly if it is an object with a
number, and whatever else does not fit falls back to a default. Else the first deceptive field makes
it fail. -/
theorem ofPayload_ok_iff (payload : Json) :
    (∀ posts skipped, ofPayload payload = .ok (posts, skipped) ↔
      (∀ v ∈ numericFields payload, ¬ Deceptive v) ∧ posts = (itemsOf payload).filterMap normal? ∧
        skipped = (itemsOf payload).countP fun entry => (normal? entry).isNone) ∧
    ∀ e, ofPayload payload = .error e ↔ ∃ before s after,
      numericFields payload = before ++ .string s :: after ∧ (∀ v ∈ before, ¬ Deceptive v) ∧
        Deceptive (.string s) ∧ e = integerFault (trim s.toList) := by
  rw [ofPayload, ofEntries_eq, ← numericFields]
  refine ⟨fun posts skipped => ?_, fun e => afterReading_eq_error⟩
  rw [afterReading_eq_ok, Prod.mk.injEq]

example : ofPayload (.array [.object [("id", .string "--5")]]) = .error (.malformed "--5") := rfl

end Booru.Post
