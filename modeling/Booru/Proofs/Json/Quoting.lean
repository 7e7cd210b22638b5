import Mathlib.Tactic.IntervalCases
import Booru.Json.Reader
import Booru.Json.Basic

/-! Texts in double quotes. A quoted text is read back as it was, and stands on one line. -/

namespace Booru.Json

variable {start fuel : Nat} {done cs rest : List Char} {c : Char}

theorem hexFour?_control {n : Nat} (hn : n < 32) (c : Char) (rest : List Char) :
    hexFour? (Text.hexDigits 4 n ++ c :: rest) = some (n, c :: rest) := by
  interval_cases n <;> rfl

theorem unicodeEscape_control (hc : c.toNat < 32) (d : Char) (rest : List Char) :
    unicodeEscape (Text.hexDigits 4 c.toNat ++ d :: rest) = .ok (c, d :: rest) := by
  have hhigh : isHighSurrogate c.toNat = false := by
    unfold isHighSurrogate
    simp
    omega
  have hlow : isLowSurrogate c.toNat = false := by
    unfold isLowSurrogate
    simp
    omega
  have hchar : unitChar c.toNat = c := by
    rw [unitChar, hhigh, hlow]
    exact Char.ofNat_toNat c
  unfold unicodeEscape
  rw [hexFour?_control hc]
  simp only [hhigh, hchar, Bool.false_and, Bool.false_eq_true, if_false]

theorem stringBody_escape (c : Char) (hrest : rest ≠ []) :
    stringBody start (fuel + 1) done (escape c ++ rest) =
      stringBody start fuel (c :: done) rest := by
  obtain ⟨d, more, rfl⟩ := List.exists_cons_of_ne_nil hrest
  unfold escape
  split
  · rfl
  · rfl
  · rfl
  · rfl
  · rfl
  · rfl
  · rfl
  · rename_i hquote hbackslash _ _ _ _ _
    split
    · rename_i hcontrol
      rw [List.cons_append, List.cons_append, stringBody]
      simp only [unicodeEscape_control hcontrol]
    · rename_i hplain
      change stringBody start (fuel + 1) done (c :: d :: more) = _
      rw [stringBody, if_neg hplain]
      · exact hquote
      · exact hbackslash

theorem stringBody_quoted (rest : List Char) (hfuel : cs.length < fuel) :
    stringBody start fuel done (cs.flatMap escape ++ '"' :: rest) =
      .ok (String.ofList (done.reverse ++ cs), rest) := by
  induction cs generalizing fuel done with
  | nil =>
    obtain ⟨fuel, rfl⟩ : ∃ k, fuel = k + 1 := ⟨fuel - 1, by simp at hfuel; omega⟩
    rw [List.append_nil]
    rfl
  | cons c cs ih =>
    obtain ⟨fuel, rfl⟩ : ∃ k, fuel = k + 1 := ⟨fuel - 1, by simp at hfuel; omega⟩
    have htail : cs.flatMap escape ++ '"' :: rest ≠ [] := by simp
    rw [List.flatMap_cons, List.append_assoc, stringBody_escape c htail,
      ih (Nat.lt_of_succ_lt_succ hfuel), List.reverse_cons, List.append_assoc,
      List.singleton_append]

theorem length_le_escaped (cs : List Char) : cs.length ≤ (cs.flatMap escape).length := by
  have hescape (c : Char) : 1 ≤ (escape c).length := by
    unfold escape
    split
    all_goals first | simp | (split <;> simp)
  induction cs with
  | nil => simp
  | cons c cs ih =>
    rw [List.flatMap_cons, List.length_append, List.length_cons]
    have := hescape c
    omega

theorem readString_quoted (s : String) (rest : List Char) :
    readString (s.toList.flatMap escape ++ '"' :: rest) = .ok (s, rest) := by
  have hfuel : s.toList.length < (s.toList.flatMap escape ++ '"' :: rest).length + 1 := by
    have := length_le_escaped s.toList
    rw [List.length_append]
    omega
  rw [readString, stringBody_quoted rest hfuel, List.reverse_nil, List.nil_append,
    String.ofList_toList]

theorem toList_quote (s : String) :
    (quote s).toList = '"' :: (s.toList.flatMap escape ++ ['"']) := by
  rw [quote, String.toList_ofList, List.cons_append]

/-! ### Line breaks -/

theorem lineFeed_notMem_hexDigits (width n : Nat) : '\n' ∉ Text.hexDigits width n := by
  induction width generalizing n with
  | zero => simp [Text.hexDigits]
  | succ width ih =>
    have hdigit : ∀ d < 16, '\n' ≠ Nat.digitChar d := by decide
    rw [Text.hexDigits, List.mem_append, List.mem_singleton, not_or]
    exact ⟨ih _, hdigit _ (Nat.mod_lt _ (by decide))⟩

theorem lineFeed_notMem_escape (c : Char) : '\n' ∉ escape c := by
  unfold escape
  split
  · decide
  · decide
  · decide
  · decide
  · decide
  · decide
  · decide
  · rename_i hlineFeed _ _ _ _
    split
    · simp [lineFeed_notMem_hexDigits]
    · simpa using fun h => hlineFeed h.symm

theorem lineFeed_notMem_quote (s : String) : '\n' ∉ (quote s).toList := by
  simp [toList_quote, lineFeed_notMem_escape]

end Booru.Json
