import Booru.Text.Encoding

/-! Percent escapes. A part of an address has no characters but plain ones and those of escapes, and
it is read back as the text that it was written for: so no two texts are written alike. -/

namespace Booru.Text

variable {b : UInt8} {bs : List UInt8} {rest : List Char}

def isPlain (c : Char) : Bool := c.isAlphanum || c == '_' || c == '.' || c == '-' || c == '~'

def isEscapeDigit (c : Char) : Bool := c.isDigit || ('A' ≤ c && c ≤ 'F')

/-- A text of plain characters and of escapes, which are two digits to the base of
sixteen behind their sign. -/
inductive Escaped : List Char → Prop
  | nil : Escaped []
  | plain {c : Char} {rest : List Char} (hc : isPlain c = true) (later : Escaped rest) :
    Escaped (c :: rest)
  | escape {hi lo : Char} {rest : List Char} (hhi : isEscapeDigit hi = true)
    (hlo : isEscapeDigit lo = true)
      (later : Escaped rest) : Escaped ('%' :: hi :: lo :: rest)

def percentDecoded? (s : String) : Option String :=
  (percentDecode s.toList).bind fun bytes => String.fromUTF8? ⟨bytes.toArray⟩

/-! ### One byte -/

set_option maxRecDepth 4000 in
theorem unreserved_plain : (List.range 256).all (fun n => !isUnreserved (UInt8.ofNat n) ||
    (isPlain (Char.ofNat n) && Char.ofNat n != '%' && (Char.ofNat n).toNat == n)) = true := by
      decide

theorem plain_of_isUnreserved (h : isUnreserved b = true) :
    ∃ c, percentByte b = [c] ∧ isPlain c = true ∧ c ≠ '%' ∧ UInt8.ofNat c.toNat = b := by
  have hbyte := List.all_eq_true.mp unreserved_plain b.toNat (List.mem_range.mpr b.toNat_lt)
  simp only [UInt8.ofNat_toNat, h, Bool.not_true, Bool.false_or, Bool.and_eq_true, bne_iff_ne,
    beq_iff_eq] at hbyte
  obtain ⟨⟨hplain, hpercent⟩, hcode⟩ := hbyte
  exact ⟨Char.ofNat b.toNat, if_pos h, hplain, hpercent, by rw [hcode, UInt8.ofNat_toNat]⟩

theorem escapeDigit_spec {n : Nat} (h : n < 16) :
    isEscapeDigit (upperHexDigit n) = true ∧ hexValue? (upperHexDigit n) = some n := by
  have hchecked : (List.range 16).all (fun n => isEscapeDigit (upperHexDigit n) &&
      hexValue? (upperHexDigit n) == some n) = true := by decide
  simpa using List.all_eq_true.mp hchecked n (List.mem_range.mpr h)

theorem byte_halves (b : UInt8) : b.toNat / 16 < 16 ∧ b.toNat % 16 < 16 ∧
    UInt8.ofNat (16 * (b.toNat / 16) + b.toNat % 16) = b := by
  have hlt := b.toNat_lt
  refine ⟨by omega, by omega, ?_⟩
  rw [Nat.div_add_mod, UInt8.ofNat_toNat]

theorem percentDecode_cons {c : Char} (h : c ≠ '%') :
    percentDecode (c :: rest) = (percentDecode rest).map (UInt8.ofNat c.toNat :: ·) := by
  rw [percentDecode]
  · simp [h]
  · simp [h]

theorem percentDecode_percentByte (b : UInt8) (rest : List Char) :
    percentDecode (percentByte b ++ rest) = (percentDecode rest).map (b :: ·) := by
  by_cases h : isUnreserved b = true
  · obtain ⟨c, hbyte, -, hpercent, hcode⟩ := plain_of_isUnreserved h
    rw [hbyte, List.singleton_append, percentDecode_cons hpercent, hcode]
  · obtain ⟨hhi, hlo, hjoined⟩ := byte_halves b
    rw [percentByte, if_neg h]
    simp only [List.cons_append, List.nil_append, percentDecode, (escapeDigit_spec hhi).2,
      (escapeDigit_spec hlo).2, hjoined]

theorem Escaped.percentByte (b : UInt8) (h : Escaped rest) : Escaped (percentByte b ++ rest) := by
  by_cases hb : isUnreserved b = true
  · obtain ⟨c, hbyte, hplain, -, -⟩ := plain_of_isUnreserved hb
    rw [hbyte]
    exact .plain hplain h
  · obtain ⟨hhi, hlo, -⟩ := byte_halves b
    rw [Text.percentByte, if_neg hb]
    exact .escape (escapeDigit_spec hhi).1 (escapeDigit_spec hlo).1 h

/-! ### Whole texts -/

theorem percentDecode_flatMap (bs : List UInt8) :
    percentDecode (bs.flatMap percentByte) = some bs := by
  induction bs with
  | nil => rfl
  | cons b bs ih => rw [List.flatMap_cons, percentDecode_percentByte, ih, Option.map_some]

theorem escaped_flatMap (bs : List UInt8) : Escaped (bs.flatMap percentByte) := by
  induction bs with
  | nil => exact .nil
  | cons b bs ih => exact ih.percentByte b

theorem toList_loop (bytes : ByteArray) (n i : Nat) (done : List UInt8) (h : i + n = bytes.size) :
    ByteArray.toList.loop bytes i done = done.reverse ++ bytes.data.toList.drop i := by
  induction n generalizing i done with
  | zero =>
    have hend : bytes.data.toList.length ≤ i := by
      rw [Array.length_toList, ByteArray.size_data]
      omega
    rw [ByteArray.toList.loop.eq_def, if_neg (by omega),
      List.drop_eq_nil_of_le hend, List.append_nil]
  | succ n ih =>
    have hlt : i < bytes.data.toList.length := by
      rw [Array.length_toList, ByteArray.size_data]
      omega
    have hget : bytes.get! i = bytes.data.toList[i] := by
      rw [Array.length_toList] at hlt
      exact getElem!_pos bytes.data i hlt
    rw [ByteArray.toList.loop.eq_def, if_pos (by omega), ih _ _ (by omega),
      List.reverse_cons, List.append_assoc, hget, List.singleton_append, List.getElem_cons_drop]

theorem toList_bytes (bytes : ByteArray) : bytes.toList = bytes.data.toList :=
  toList_loop bytes bytes.size 0 [] (Nat.zero_add _)

theorem plain_of_escapeDigit {c : Char} (h : isEscapeDigit c = true) : isPlain c = true := by
  rw [isEscapeDigit, Bool.or_eq_true] at h
  obtain hdigit | hletter := h
  · simp [isPlain, Char.isAlphanum, hdigit]
  · obtain ⟨hlow, hhigh⟩ : 'A' ≤ c ∧ c ≤ 'F' := by simpa using hletter
    have hupper : c.isUpper = true := decide_eq_true ⟨hlow, Nat.le_trans hhigh (by decide)⟩
    have halpha : c.isAlpha = true := Bool.or_eq_true_iff.mpr (.inl hupper)
    simp [isPlain, Char.isAlphanum, halpha]

theorem Escaped.plain_of_mem {cs : List Char} (h : Escaped cs) {c : Char} (hc : c ∈ cs)
    (hsign : c ≠ '%') :
    isPlain c = true := by
  induction h with
  | nil => cases hc
  | plain hplain _ ih =>
    obtain rfl | hc := List.mem_cons.mp hc
    · exact hplain
    · exact ih hc
  | escape hhi hlo _ ih =>
    obtain rfl | rfl | rfl | hc := by simpa only [List.mem_cons] using hc
    · exact absurd rfl hsign
    · exact plain_of_escapeDigit hhi
    · exact plain_of_escapeDigit hlo
    · exact ih hc

theorem escaped_percentEncode (s : String) : Escaped (percentEncode s).toList := by
  rw [percentEncode, String.toList_ofList]
  exact escaped_flatMap _

theorem percentDecoded_percentEncode (s : String) : percentDecoded? (percentEncode s) = some s := by
  rw [percentDecoded?, percentEncode, String.toList_ofList, percentDecode_flatMap, toList_bytes]
  exact dif_pos s.isValidUTF8

theorem percentEncode_injective : Function.Injective percentEncode := by
  intro s t h
  have hboth := congrArg percentDecoded? h
  rwa [percentDecoded_percentEncode, percentDecoded_percentEncode, Option.some.injEq] at hboth

end Booru.Text
