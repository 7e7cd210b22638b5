import Booru.Proofs.Json.Members
import Booru.Proofs.Json.Numbers
import Booru.Proofs.Json.Quoting

/-! A document on one line holds no line break, and it is read back as the value that it was written
for, with the members of every object in the order of their names. -/

namespace Booru.Json

variable {v : Json} {items : List Json} {ms more : Members} {cs rest : List Char} {fuel : Nat}

/-! ### Values and their order -/

/-- A value that has a text: its decimal numbers are finite, its integers are not too long to be
read, and no object has a name twice. -/
inductive Writable : Json → Prop
  | null : Writable .null
  | bool (b : Bool) : Writable (.bool b)
  | int {n : Int} (h : n.natAbs < 10 ^ Text.maxDigits) : Writable (.int n)
  | float {x : Float} (h : x.isFinite = true) : Writable (.float x)
  | string (s : String) : Writable (.string s)
  | array {items : List Json} (h : ∀ v ∈ items, Writable v) : Writable (.array items)
  | object {ms : Members} (hnames : (Members.names ms).Nodup) (h : ∀ m ∈ ms, Writable m.2) :
    Writable (.object ms)

mutual
def inOrder : Json → Json
  | .array items => .array (inOrderItems items)
  | .object ms => .object (sortMembers (inOrderMembers ms))
  | v => v

def inOrderItems : List Json → List Json
  | [] => []
  | v :: rest => inOrder v :: inOrderItems rest

def inOrderMembers : List (String × Json) → List (String × Json)
  | [] => []
  | (name, v) :: rest => (name, inOrder v) :: inOrderMembers rest
end

theorem inOrderItems_eq_map (items : List Json) : inOrderItems items = items.map inOrder := by
  induction items with
  | nil => rfl
  | cons v rest ih => rw [inOrderItems, ih, List.map_cons]

theorem inOrderMembers_eq_map (ms : Members) : inOrderMembers ms = ms.map fun m =>
    (m.1, inOrder m.2) := by
  induction ms with
  | nil => rfl
  | cons m rest ih => rw [inOrderMembers, ih, List.map_cons]

theorem renderItems_eq_map (style : Style) (items : List Json) :
    renderItems style items = items.map (render style) := by
  induction items with
  | nil => rfl
  | cons v rest ih => rw [renderItems, ih, List.map_cons]

theorem renderMembers_eq_map (style : Style) (ms : Members) :
    renderMembers style ms = ms.map fun m => (m.1, render style m.2) := by
  induction ms with
  | nil => rfl
  | cons m rest ih => rw [renderMembers, ih, List.map_cons]

theorem sortMembers_map {α β : Type} (f : α → β) (ms : List (String × α)) :
    sortMembers (ms.map fun m => (m.1, f m.2)) = (sortMembers ms).map fun m => (m.1, f m.2) := by
  symm
  apply List.map_mergeSort
  intro a _ b _
  rfl

theorem sortMembers_perm {α : Type} (ms : List (String × α)) : (sortMembers ms).Perm ms :=
  List.mergeSort_perm ..

theorem inOrder_array (items : List Json) :
    inOrder (.array items) = .array (items.map inOrder) := by
  rw [inOrder, inOrderItems_eq_map]

theorem inOrder_object (ms : Members) :
    inOrder (.object ms) = .object ((sortMembers ms).map fun m => (m.1, inOrder m.2)) := by
  rw [inOrder, inOrderMembers_eq_map, sortMembers_map]

/-! ### Texts of arrays and objects -/

def lineText (v : Json) : List Char := (render .line v).toList

def memberText (m : String × Json) : List Char := (quote m.1).toList ++ ':' :: ' ' :: lineText m.2

def listed (texts : List (List Char)) : List Char := [',', ' '].intercalate texts

theorem lineText_array (items : List Json) :
    lineText (.array items) = '[' :: (listed (items.map lineText) ++ [']']) := by
  have hparts : (renderItems .line items).map String.toList = items.map lineText := by
    rw [renderItems_eq_map, List.map_map]
    rfl
  rw [lineText, render, String.toList_append, String.toList_append,
    String.toList_intercalate, hparts]
  rfl

theorem lineText_object (ms : Members) :
    lineText (.object ms) = '\x7b' :: (listed ((sortMembers ms).map memberText) ++ ['\x7d']) := by
  have hparts : ((sortMembers (renderMembers .line ms)).map fun p =>
      quote p.1 ++ Style.line.nameMark ++ p.2).map
      String.toList = (sortMembers ms).map memberText := by
    rw [renderMembers_eq_map, sortMembers_map, List.map_map, List.map_map]
    apply List.map_congr_left
    intro m _
    change (quote m.1 ++ ": " ++ render .line m.2).toList = _
    rw [String.toList_append, String.toList_append, List.append_assoc]
    rfl
  rw [lineText, render, String.toList_append, String.toList_append, String.toList_intercalate]
  change "\x7b".toList ++ listed
    (((sortMembers (renderMembers .line ms)).map _).map String.toList) ++ "\x7d".toList = _
  rw [hparts]
  rfl

theorem listed_singleton (t : List Char) : listed [t] = t := List.append_nil t

theorem listed_cons (t : List Char) {ts : List (List Char)} (h : ts ≠ []) :
    listed (t :: ts) = t ++ ',' :: ' ' :: listed ts := by
  obtain ⟨u, us, rfl⟩ := List.exists_cons_of_ne_nil h
  rfl

/-! ### One step of reading -/

def starting : List Char :=
  ['n', 't', 'f', '"', '[', '\x7b', '-', '0', '1', '2', '3', '4', '5', '6', '7', '8', '9']

def Begins (cs : List Char) : Prop := ∃ c more, cs = c :: more ∧ c ∈ starting

theorem Begins.append (h : Begins cs) (rest : List Char) : Begins (cs ++ rest) := by
  obtain ⟨c, more, rfl, hc⟩ := h
  exact ⟨c, more ++ rest, rfl, hc⟩

theorem Begins.skipSpace (h : Begins cs) : skipSpace cs = cs := by
  have hstarting : starting.all (fun c => !isSpace c) = true := by decide
  obtain ⟨c, more, rfl, hc⟩ := h
  exact List.dropWhile_cons_of_neg (by simpa using List.all_eq_true.mp hstarting c hc)

theorem Begins.ne_cons (h : Begins cs) {d : Char} (hd : d ∉ starting) (more : List Char) :
    cs ≠ d :: more := by
  obtain ⟨c, _, rfl, hc⟩ := h
  intro heq
  exact hd ((List.cons.inj heq).1 ▸ hc)

theorem begins_listed {ts : List (List Char)} (hne : ts ≠ []) (h : ∀ t ∈ ts, Begins t) :
    Begins (listed ts) := by
  obtain ⟨t, more, rfl⟩ := List.exists_cons_of_ne_nil hne
  have ht := h t List.mem_cons_self
  rcases eq_or_ne more [] with rfl | hmore
  · exact (listed_singleton t).symm ▸ ht
  · exact listed_cons t hmore ▸ ht.append _

theorem begins_quote (s : String) : Begins (quote s).toList :=
  ⟨'"', _, toList_quote s, by decide⟩

theorem begins_memberText (m : String × Json) : Begins (memberText m) := (begins_quote m.1).append _

theorem begins_number {sign : List Char} (hsign : IsSign sign) {c : Char}
    (hc : c.isDigit = true) (cs : List Char) :
    Begins (sign ++ c :: cs) := by
  have hdigit : c ∈ starting := by
    obtain ⟨hlo, hhi⟩ := Text.toNat_of_isDigit hc
    have hall : ∀ n < 10, Char.ofNat (48 + n) ∈ starting := by decide
    have hofNat := hall (c.toNat - 48) (by omega)
    rwa [Nat.add_sub_cancel' hlo, Char.ofNat_toNat] at hofNat
  obtain rfl | rfl := hsign
  · exact ⟨c, cs, rfl, hdigit⟩
  · exact ⟨'-', c :: cs, rfl, by decide⟩

theorem readValue_string (s : String) : readValue (fuel + 1) ((quote s).toList ++ rest) =
    .ok (.string s, rest) := by
  rw [toList_quote, List.cons_append, List.append_assoc]
  change (readString (s.toList.flatMap escape ++ '"' :: rest)).map _ = _
  rw [readString_quoted]
  rfl

theorem readValue_array (h : Begins cs) :
    readValue (fuel + 1) ('[' :: cs) = (readItems fuel cs).map fun r => (.array r.1, r.2) := by
  rw [readValue, h.skipSpace]
  split
  · exact absurd rfl (h.ne_cons (by decide) _)
  · rfl

theorem readValue_object (h : Begins cs) :
    readValue (fuel + 1) ('\x7b' :: cs) = (readMembers fuel cs).map fun r =>
      (.object (Members.ofList r.1), r.2) := by
  rw [readValue, h.skipSpace]
  split
  · exact absurd rfl (h.ne_cons (by decide) _)
  · rfl

theorem readItems_last (h : readValue fuel cs = .ok (v, ']' :: rest)) :
    readItems (fuel + 1) cs = .ok ([v], rest) := by
  rw [readItems, h]
  rfl

theorem readItems_more (h : readValue fuel cs = .ok (v, ',' :: ' ' :: rest)) (hrest : Begins rest) :
    readItems (fuel + 1) cs = (readItems fuel rest).map fun r => (v :: r.1, r.2) := by
  rw [readItems, h]
  change (readItems fuel (skipSpace rest)).map _ = _
  rw [hrest.skipSpace]

theorem readMembers_last {name : String} (hcs : Begins cs)
    (h : readValue fuel cs = .ok (v, '\x7d' :: rest)) :
    readMembers (fuel + 1) ((quote name).toList ++ ':' :: ' ' :: cs) = .ok ([(name, v)], rest) := by
  have hcolon : skipSpace (':' :: ' ' :: cs) = ':' :: ' ' :: cs := rfl
  have hbody : skipSpace (' ' :: cs) = cs := hcs.skipSpace
  rw [toList_quote, List.cons_append, List.append_assoc, List.singleton_append,
    readMembers, readString_quoted]
  simp only [hcolon, hbody, h]
  rfl

theorem readMembers_more {name : String} (hcs : Begins cs)
    (h : readValue fuel cs = .ok (v, ',' :: ' ' :: rest))
    (hrest : Begins rest) : readMembers (fuel + 1) ((quote name).toList ++ ':' :: ' ' :: cs) =
      (readMembers fuel rest).map fun r => ((name, v) :: r.1, r.2) := by
  have hcolon : skipSpace (':' :: ' ' :: cs) = ':' :: ' ' :: cs := rfl
  have hbody : skipSpace (' ' :: cs) = cs := hcs.skipSpace
  have hcomma : skipSpace (',' :: ' ' :: rest) = ',' :: ' ' :: rest := rfl
  have hmore : skipSpace (' ' :: rest) = rest := hrest.skipSpace
  rw [toList_quote, List.cons_append, List.append_assoc, List.singleton_append,
    readMembers, readString_quoted]
  simp only [hcolon, hbody, h, hcomma, hmore]

theorem begins_of_mem_constants {m : String × Json} (h : m ∈ constants) :
    ∃ a b as, m.1.toList = a :: b :: as ∧ a.isDigit = false ∧ b.isDigit = false := by
  simp only [constants, List.mem_cons, List.not_mem_nil, or_false] at h
  obtain rfl | rfl | rfl | rfl | rfl | rfl := h
  all_goals exact ⟨_, _, _, rfl, rfl, rfl⟩

theorem constant?_number {sign : List Char} (hsign : IsSign sign) {c : Char}
    (hc : c.isDigit = true) (cs : List Char) :
    constant? (sign ++ c :: cs) = none := by
  apply List.findSome?_eq_none_iff.mpr
  intro m hm
  obtain ⟨a, b, as, hword, ha, hb⟩ := begins_of_mem_constants hm
  have hne {d : Char} (hd : d.isDigit = false) : (d == c) = false :=
    beq_false_of_ne fun heq => by simp [heq, hc] at hd
  have hprefix : m.1.toList.isPrefixOf (sign ++ c :: cs) = false := by
    rw [hword]
    obtain rfl | rfl := hsign
    · rw [List.nil_append, List.isPrefixOf_cons_cons, hne ha, Bool.false_and]
    · rw [List.singleton_append, List.isPrefixOf_cons_cons, List.isPrefixOf_cons_cons, hne hb,
        Bool.false_and, Bool.and_false]
  simp [afterWord?, hprefix]

theorem readValue_number {sign : List Char} (hsign : IsSign sign) {c : Char}
    (hc : c.isDigit = true) (cs : List Char) :
    readValue (fuel + 1) (sign ++ c :: cs) = readNumber (sign ++ c :: cs) := by
  have hnone := constant?_number hsign hc cs
  have hmark (d : Char) (rest : List Char) (hd : d ∈ ['"', '\x7b', '[']) :
      sign ++ c :: cs ≠ d :: rest := by
    have hplain : ['"', '\x7b', '['].all (fun d => d != '-' && !d.isDigit) = true := by decide
    obtain ⟨hminus, hdigit⟩ : d ≠ '-' ∧ d.isDigit = false := by
      simpa using List.all_eq_true.mp hplain d hd
    intro heq
    obtain rfl | rfl := hsign
    · obtain ⟨rfl, -⟩ := List.cons.inj heq
      rw [hc] at hdigit
      cases hdigit
    · exact hminus (List.cons.inj heq).1.symm
  rw [readValue, hnone]
  · exact fun rest => hmark '"' rest (by decide)
  · exact fun rest => hmark '\x7b' rest (by decide)
  · exact fun rest => hmark '[' rest (by decide)

/-! ### Values read back -/

theorem Closes.nil : Closes [] := by
  intro c hc
  cases hc

theorem Closes.cons {c : Char} (hc : c ∈ closing) (rest : List Char) : Closes (c :: rest) := by
  intro d hd
  cases hd
  exact hc

/-- The text of a value is read as the value, whatever stands behind it. -/
structure ReadBack (v : Json) : Prop where
  begins : Begins (lineText v)
  read : ∀ fuel rest, (lineText v).length ≤ fuel → Closes rest →
    readValue fuel (lineText v ++ rest) = .ok (inOrder v, rest)

-- The induction is on the items. Each of them leaves one unit of fuel less, and its text and the
-- marks behind it are at least as long.
theorem readItems_listed (hne : items ≠ []) (h : ∀ v ∈ items, ReadBack v)
    (hfuel : (listed (items.map lineText)).length < fuel) :
    readItems fuel (listed (items.map lineText) ++ ']' :: rest) =
      .ok (items.map inOrder, rest) := by
  induction items generalizing fuel with
  | nil => exact absurd rfl hne
  | cons v more ih =>
    obtain ⟨fuel, rfl⟩ : ∃ k, fuel = k + 1 := ⟨fuel - 1, by omega⟩
    have hv := h v List.mem_cons_self
    have hmore : ∀ u ∈ more, ReadBack u := fun u hu => h u (List.mem_cons_of_mem v hu)
    rw [List.map_cons] at hfuel ⊢
    by_cases hlast : more = []
    · subst hlast
      rw [List.map_nil, listed_singleton] at hfuel ⊢
      exact readItems_last (hv.read fuel _ (by omega) (.cons (by decide) rest))
    · have htexts : more.map lineText ≠ [] := by simpa using hlast
      have hbegins : Begins (listed (more.map lineText)) :=
        begins_listed htexts (List.forall_mem_map.mpr fun u hu => (hmore u hu).begins)
      rw [listed_cons _ htexts] at hfuel ⊢
      simp only [List.length_append, List.length_cons] at hfuel
      have hread := hv.read fuel (',' :: ' ' :: (listed (more.map lineText) ++ ']' :: rest))
        (by omega)
        (.cons (by decide) _)
      rw [List.append_assoc, List.cons_append, List.cons_append,
        readItems_more hread (hbegins.append _), ih hlast hmore (by omega)]
      rfl

theorem readMembers_listed (hne : ms ≠ []) (h : ∀ m ∈ ms, ReadBack m.2)
    (hfuel : (listed (ms.map memberText)).length < fuel) :
    readMembers fuel (listed (ms.map memberText) ++ '\x7d' :: rest) =
      .ok (ms.map fun m => (m.1, inOrder m.2), rest) := by
  induction ms generalizing fuel with
  | nil => exact absurd rfl hne
  | cons m more ih =>
    obtain ⟨fuel, rfl⟩ : ∃ k, fuel = k + 1 := ⟨fuel - 1, by omega⟩
    have hm := h m List.mem_cons_self
    have hmore : ∀ u ∈ more, ReadBack u.2 := fun u hu => h u (List.mem_cons_of_mem m hu)
    rw [List.map_cons] at hfuel ⊢
    by_cases hlast : more = []
    · subst hlast
      rw [List.map_nil, listed_singleton, memberText] at hfuel ⊢
      simp only [List.length_append, List.length_cons] at hfuel
      rw [List.append_assoc]
      exact readMembers_last (hm.begins.append _)
        (hm.read fuel _ (by omega) (.cons (by decide) rest))
    · have htexts : more.map memberText ≠ [] := by simpa using hlast
      have hbegins : Begins (listed (more.map memberText)) :=
        begins_listed htexts (List.forall_mem_map.mpr fun u _ => begins_memberText u)
      rw [listed_cons _ htexts, memberText] at hfuel ⊢
      simp only [List.length_append, List.length_cons] at hfuel
      have hread := hm.read fuel (',' :: ' ' :: (listed (more.map memberText) ++ '\x7d' :: rest))
        (by omega)
        (.cons (by decide) _)
      simp only [List.append_assoc, List.cons_append]
      rw [readMembers_more (hm.begins.append _) hread (hbegins.append _), ih hlast hmore (by omega)]
      rfl

theorem ReadBack.of_succ (hbegins : Begins (lineText v))
    (h : ∀ fuel rest, (lineText v).length ≤ fuel + 1 → Closes rest → readValue (fuel + 1)
      (lineText v ++ rest) = .ok (inOrder v, rest)) : ReadBack v := by
  refine ⟨hbegins, fun fuel rest hfuel hrest => ?_⟩
  cases fuel with
  | zero =>
    obtain ⟨c, cs, htext, -⟩ := hbegins
    rw [htext] at hfuel
    cases hfuel
  | succ fuel => exact h fuel rest hfuel hrest

theorem ReadBack.array (h : ∀ v ∈ items, ReadBack v) : ReadBack (.array items) := by
  have htext := lineText_array items
  refine .of_succ ⟨'[', _, htext, by decide⟩ fun fuel rest hfuel _ => ?_
  rw [htext, List.length_cons, List.length_append, List.length_singleton] at hfuel
  rw [htext, inOrder_array, List.cons_append, List.append_assoc, List.singleton_append]
  rcases eq_or_ne items [] with rfl | hne
  · rfl
  have hbegins : Begins (listed (items.map lineText)) :=
    begins_listed (by simpa using hne) (List.forall_mem_map.mpr fun u hu => (h u hu).begins)
  rw [readValue_array (hbegins.append _), readItems_listed hne h (by omega)]
  rfl

theorem names_sortMembers (ms : Members) :
    (Members.names (sortMembers ms)).Perm (Members.names ms) :=
  (sortMembers_perm ms).map _

theorem ReadBack.object (hnames : (Members.names ms).Nodup) (h : ∀ m ∈ ms, ReadBack m.2) :
    ReadBack (.object ms) := by
  have htext := lineText_object ms
  have hsorted : ∀ m ∈ sortMembers ms, ReadBack m.2 :=
    fun m hm => h m ((sortMembers_perm ms).mem_iff.mp hm)
  refine .of_succ ⟨'\x7b', _, htext, by decide⟩ fun fuel rest hfuel _ => ?_
  rw [htext, List.length_cons, List.length_append, List.length_singleton] at hfuel
  rw [htext, inOrder_object, List.cons_append, List.append_assoc, List.singleton_append]
  rcases eq_or_ne (sortMembers ms) [] with hnone | hne
  · rw [hnone]
    rfl
  have hbegins : Begins (listed ((sortMembers ms).map memberText)) :=
    begins_listed (by simpa using hne) (List.forall_mem_map.mpr fun m _ => begins_memberText m)
  have hnodup : (Members.names ((sortMembers ms).map fun m => (m.1, inOrder m.2))).Nodup := by
    rw [Members.names_map]
    exact (names_sortMembers ms).nodup_iff.mpr hnames
  rw [readValue_object (hbegins.append _), readMembers_listed hne hsorted (by omega)]
  change Except.ok (Json.object (Members.ofList _), rest) = _
  rw [Members.ofList_of_nodup hnodup]

theorem ReadBack.number {sign : List Char} (hsign : IsSign sign) {c : Char} (hc : c.isDigit = true)
    (htext : lineText v = sign ++ c :: cs) (horder : inOrder v = v)
    (hread : ∀ rest, Closes rest → readNumber (lineText v ++ rest) = .ok (v, rest)) :
    ReadBack v := by
  refine .of_succ (htext ▸ begins_number hsign hc cs) fun fuel rest _ hrest => ?_
  have hnumber := hread rest hrest
  rw [htext, List.append_assoc, List.cons_append] at hnumber ⊢
  rw [readValue_number hsign hc, hnumber, horder]

theorem lineText_int (n : Int) : ∃ sign c cs, IsSign sign ∧ c.isDigit = true ∧
    lineText (.int n) = sign ++ c :: cs := by
  have htext := Text.toList_toString n
  obtain ⟨c, cs, hcs, -⟩ := toDigits_leading n.natAbs
  have hdigit : c.isDigit = true :=
    Nat.isDigit_of_mem_toDigits (b := 10) (n := n.natAbs) (by decide) (by decide)
      (hcs ▸ List.mem_cons_self)
  rw [hcs] at htext
  exact ⟨_, c, cs, isSign_ite _, hdigit, htext⟩

theorem ReadBack.int {n : Int} (h : n.natAbs < 10 ^ Text.maxDigits) : ReadBack (.int n) := by
  have hsize : (Nat.toDigits 10 n.natAbs).length ≤ Text.maxDigits :=
    (Nat.length_toDigits_le_iff (by decide) (by decide)).mpr h
  obtain ⟨sign, c, cs, hsign, hdigit, htext⟩ := lineText_int n
  refine .number hsign hdigit htext rfl fun rest hrest => ?_
  exact (readNumber_integer n hrest).trans (if_neg (Nat.not_lt.mpr hsize))

theorem ReadBack.float {x : Float} (h : x.isFinite = true) : ReadBack (.float x) := by
  obtain ⟨negative, n, hproper, htext, -⟩ := numberLayout.exists_numeral h
  obtain ⟨a, cs, hchars, ha⟩ := hproper.head
  have hdigit : (Nat.digitChar a).isDigit = true := by rw [Nat.isDigit_digitChar, decide_eq_true ha]
  rw [hchars] at htext
  exact .number (isSign_ite _) hdigit htext rfl fun rest => readNumber_double h

theorem Writable.readBack (h : Writable v) : ReadBack v := by
  induction h with
  | null => exact .of_succ ⟨'n', _, rfl, by decide⟩ fun _ _ _ _ => rfl
  | bool b =>
    cases b
    · exact .of_succ ⟨'f', _, rfl, by decide⟩ fun _ _ _ _ => rfl
    · exact .of_succ ⟨'t', _, rfl, by decide⟩ fun _ _ _ _ => rfl
  | int h => exact .int h
  | float h => exact .float h
  | string s => exact .of_succ (begins_quote s) fun _ _ _ _ => readValue_string s
  | array _ ih => exact .array ih
  | object hnames _ ih => exact .object hnames ih

theorem Writable.read_render (h : Writable v) : Json.read (render .line v) = .ok (inOrder v) := by
  have hread := h.readBack.read (2 * (lineText v).length + 2) [] (by omega) .nil
  have hbegins := h.readBack.begins
  rw [List.append_nil] at hread
  change document (lineText v) = _
  unfold document
  split
  · rename_i heq
    exact absurd heq (hbegins.ne_cons (by decide) _)
  · rw [hbegins.skipSpace, hread]
    rfl

theorem hasLongItem_iff {items : List Json} :
    hasLongItem items = true ↔ ∃ v ∈ items, v.hasLongInteger = true := by
  induction items with
  | nil => simp [hasLongItem]
  | cons v rest ih => simp [hasLongItem, ih]

theorem hasLongMember_iff {ms : Members} : hasLongMember ms = true ↔ ∃ m ∈ ms,
    m.2.hasLongInteger = true := by
  induction ms with
  | nil => simp [hasLongMember]
  | cons m rest ih => simp [hasLongMember, ih]

theorem Writable.not_hasLongInteger (h : Writable v) : ¬ v.hasLongInteger = true := by
  induction h with
  | int h => simpa [hasLongInteger, Text.isLong_iff] using h
  | array _ ih => simpa [hasLongInteger, hasLongItem_iff] using ih
  | object _ _ ih => simpa [hasLongInteger, hasLongMember_iff] using ih
  | _ => simp [hasLongInteger]

/-! ### One line -/

theorem lineFeed_notMem_listed {ts : List (List Char)} (h : ∀ t ∈ ts, '\n' ∉ t) :
    '\n' ∉ listed ts := by
  induction ts with
  | nil => simp [listed]
  | cons t more ih =>
    have hmore := ih fun u hu => h u (List.mem_cons_of_mem t hu)
    rcases eq_or_ne more [] with rfl | hne
    · rw [listed_singleton]
      exact h t List.mem_cons_self
    · rw [listed_cons t hne]
      simp [h t List.mem_cons_self, hmore]

theorem lineFeed_notMem_number {sign ds : List Char} (hsign : IsSign sign)
    (h : ∀ c ∈ ds, Text.isBlank c = false) :
    '\n' ∉ sign ++ ds := by
  have hds : '\n' ∉ ds := fun hin => absurd (h _ hin) (by decide)
  obtain rfl | rfl := hsign
  · exact hds
  · simp [hds]

theorem Writable.lineFeed_notMem (h : Writable v) : '\n' ∉ lineText v := by
  induction h with
  | null => decide
  | bool b => cases b <;> decide
  | @int n h =>
    rw [lineText, render, Text.toList_toString]
    exact lineFeed_notMem_number (isSign_ite _) fun c hc =>
      Text.isBlank_of_isDigit (Nat.isDigit_of_mem_toDigits (by decide) (by decide) hc)
  | float h =>
    obtain ⟨negative, n, hproper, htext, -⟩ := numberLayout.exists_numeral h
    rw [lineText, render, htext]
    exact lineFeed_notMem_number (isSign_ite _) fun c => hproper.not_isBlank
  | string s => exact lineFeed_notMem_quote s
  | @array items _ ih =>
    rw [lineText_array]
    simpa using lineFeed_notMem_listed (List.forall_mem_map.mpr ih)
  | @object ms _ _ ih =>
    have htexts : ∀ m ∈ sortMembers ms, '\n' ∉ memberText m := by
      intro m hm
      have hvalue := ih m ((sortMembers_perm ms).mem_iff.mp hm)
      rw [memberText]
      simp [lineFeed_notMem_quote, hvalue]
    rw [lineText_object]
    simpa using lineFeed_notMem_listed (List.forall_mem_map.mpr htexts)

end Booru.Json
