import Booru.Proofs.Files.Changes
import Booru.Proofs.Text.Trimming

/-! Paths as they are written. The text of a path is read back as the same path, and steps down from
a directory lead to places below it. -/

namespace Booru

open Text

namespace Text

variable {p : Char → Bool} {cs w : List Char}

theorem not_of_mem_splitWhen (h : w ∈ splitWhen p cs) : ∀ c ∈ w, p c = false := by
  induction cs generalizing w with
  | nil =>
    obtain rfl : w = [] := by simpa [splitWhen] using h
    exact List.forall_mem_nil _
  | cons a cs ih =>
    cases ha : p a with
    | true =>
      rw [splitWhen_cons_of_pos ha] at h
      rcases List.mem_cons.mp h with rfl | hrest
      · exact List.forall_mem_nil _
      · exact ih hrest
    | false =>
      obtain ⟨first, others, hsplit⟩ := exists_splitWhen p cs
      rw [hsplit] at ih
      have hcons : splitWhen p (a :: cs) = _ := splitWhen_append [a] (by simpa using ha) hsplit
      rw [hcons] at h
      rcases List.mem_cons.mp h with rfl | hrest
      · exact List.forall_mem_cons.mpr ⟨ha, ih List.mem_cons_self⟩
      · exact ih (List.mem_cons_of_mem _ hrest)

theorem splitWhen_intercalate {a : Char} {ws : List (List Char)} (hne : ws ≠ [])
    (hws : ∀ w ∈ ws, a ∉ w) :
    splitWhen (· == a) ([a].intercalate ws) = ws := by
  induction ws with
  | nil => exact absurd rfl hne
  | cons w ws ih =>
    obtain ⟨hw, hrest⟩ := List.forall_mem_cons.mp hws
    cases ws with
    | nil => rw [List.intercalate_singleton, splitWhen_of_notMem hw]
    | cons w' ws =>
      have hbreak := @splitWhen_append_cons (· == a) a (beq_self_eq_true a) w
        ([a].intercalate (w' :: ws))
      rw [List.intercalate_cons_cons, List.append_assoc, List.singleton_append, hbreak,
        splitWhen_of_notMem hw, ih (List.cons_ne_nil _ _) hrest, List.singleton_append]

end Text

namespace Path

variable {d p : Path} {name : String} {names : List String}

def descend (d : Path) (names : List String) : Path := { d with parts := d.parts ++ names }

theorem descend_cons (d : Path) (name : String) (names : List String) :
    d.descend (name :: names) = (d.child name).descend names := by
  simp [descend, child]

/-! ### The text of a path -/

structure Normal (p : Path) : Prop where
  top : p.root ∈ ["", "/", "//"]
  parts : ∀ part ∈ p.parts, part ≠ "" ∧ part ≠ "." ∧ '/' ∉ part.toList

theorem normal_ofString (s : String) : (ofString s).Normal := by
  constructor
  · change rootOf s.toList ∈ _
    unfold rootOf
    split <;> decide
  · intro part hpart
    obtain ⟨hin, hkept⟩ := List.mem_filter.mp hpart
    obtain ⟨w, hw, rfl⟩ := List.mem_map.mp hin
    have hslash : '/' ∉ w := fun hmem => absurd (not_of_mem_splitWhen hw _ hmem) (by decide)
    simpa [hslash] using hkept

theorem Normal.descend (h : d.Normal)
    (hnames : ∀ name ∈ names, name ≠ "" ∧ name ≠ "." ∧ '/' ∉ name.toList) :
    (d.descend names).Normal :=
  ⟨h.top, List.forall_mem_append.mpr ⟨h.parts, hnames⟩⟩

theorem ofString_behind {top : String} (htop : top ∈ ["", "/", "//"]) {c : Char}
    (hc : c ≠ '/') (cs : List Char) :
    ofString (top ++ String.ofList (c :: cs)) =
      ⟨top, (ofString (String.ofList (c :: cs))).parts⟩ := by
  simp only [List.mem_cons, List.not_mem_nil, or_false] at htop
  rcases htop with rfl | rfl | rfl <;> simp [ofString, rootOf, splitWhen, hc]

theorem Normal.ofString_joined (h : p.Normal) (hne : p.parts ≠ []) :
    (ofString ("/".intercalate p.parts)).parts = p.parts := by
  have hsplit : splitWhen (· == '/') ("/".intercalate p.parts).toList =
      p.parts.map String.toList := by
    rw [String.toList_intercalate]
    refine splitWhen_intercalate (by simpa using hne) fun w hw => ?_
    obtain ⟨part, hpart, rfl⟩ := List.mem_map.mp hw
    exact (h.parts part hpart).2.2
  have hkept : p.parts.filter (fun part => part != "" && part != ".") = p.parts := by
    refine List.filter_eq_self.mpr fun part hpart => ?_
    simpa using ⟨(h.parts part hpart).1, (h.parts part hpart).2.1⟩
  have hback : (p.parts.map String.toList).map String.ofList = p.parts := by
    simp [Function.comp_def]
  simp only [ofString, hsplit, hback, hkept]

theorem ofString_top {top : String} (htop : top ∈ ["", "/", "//"]) :
    ofString (text ⟨top, []⟩) = ⟨top, []⟩ := by
  simp only [List.mem_cons, List.not_mem_nil, or_false] at htop
  rcases htop with rfl | rfl | rfl <;> decide

theorem Normal.ofString_text (h : p.Normal) : ofString p.text = p := by
  obtain ⟨top, parts⟩ := p
  cases parts with
  | nil => exact ofString_top h.top
  | cons part parts =>
    obtain ⟨hfull, -, hslash⟩ := h.parts part List.mem_cons_self
    obtain ⟨c, cs, hpart⟩ := List.exists_cons_of_ne_nil fun heq =>
      hfull (String.toList_eq_nil_iff.mp heq)
    obtain ⟨rest, hjoined⟩ : ∃ rest, "/".intercalate (part :: parts) =
        String.ofList (c :: rest) := by
      cases parts with
      | nil => exact ⟨cs, by simp [← hpart]⟩
      | cons next parts =>
        refine ⟨cs ++ '/' :: ("/".intercalate (next :: parts)).toList, String.toList_injective ?_⟩
        simp [String.intercalate_cons_cons, hpart]
    have hc : c ≠ '/' := fun heq => hslash (by simp [hpart, heq])
    have hparts := h.ofString_joined (List.cons_ne_nil part parts)
    have htext : text ⟨top, part :: parts⟩ = top ++ "/".intercalate (part :: parts) := by
      simp [text]
    rw [htext, hjoined, ofString_behind h.top hc, ← hjoined, hparts]

/-! ### The place of a path further down -/

theorem size_le_child (d : Path) (hname : name ≠ "") :
    d.text.utf8ByteSize ≤ (d.child name).text.utf8ByteSize := by
  obtain ⟨n, htext, hsize⟩ := d.exists_size_child
  have hpos : name.utf8ByteSize ≠ 0 := fun h => hname (String.utf8ByteSize_eq_zero_iff.mp h)
  rw [hsize]
  omega

theorem size_le_descend (d : Path) (hnames : ∀ name ∈ names, name ≠ "") :
    d.text.utf8ByteSize ≤ (d.descend names).text.utf8ByteSize := by
  induction names generalizing d with
  | nil => simp [descend]
  | cons name names ih =>
    obtain ⟨hname, hrest⟩ := List.forall_mem_cons.mp hnames
    rw [descend_cons]
    exact (d.size_le_child hname).trans (ih _ hrest)

theorem locate?_descend {t : FileTree} {l : Location} (hfull : ∀ name ∈ names, name ≠ "")
    (hdown : ".." ∉ names) (h : t.locate? (d.descend names) = .ok l) :
    ∃ top, t.locate? d = .ok top ∧ l = top ++ names := by
  unfold FileTree.locate? at h ⊢
  split at h
  · cases h
  · rename_i hshort
    have hsize := d.size_le_descend hfull
    rw [if_neg (by omega)]
    rw [descend, FileTree.walk_append] at h
    cases htop : t.walk (if d.root.isEmpty then t.workingDirectory else []) d.parts with
    | error problem =>
      rw [htop] at h
      cases h
    | ok top =>
      rw [htop] at h
      exact ⟨top, rfl, FileTree.walk_of_down hdown h⟩

end Path
end Booru
