import Booru.Json.Reader
import Booru.Json.Basic
import Booru.Proofs.Decimal.Numeral

/-! Numbers inside a document. A written number is read up to the mark behind it, as an integer or
as a double just as it was. -/

namespace Booru.Json

open Decimal (Numeral digitChars powerChars powerDigits)

variable {rest tail : List Char} {ds : List Nat} {n : Numeral} {x : Float}

def closing : List Char := [',', ']', '\x7d']

theorem plain_of_mem_closing {c : Char} (h : c ∈ 'e' :: closing) : c.isDigit = false ∧ c ≠ '.' := by
  have hplain : ('e' :: closing).all (fun c => !c.isDigit && c != '.') = true := by decide
  simpa using List.all_eq_true.mp hplain c h

theorem ne_exponent_of_mem_closing {c : Char} (h : c ∈ closing) : c ≠ 'e' ∧ c ≠ 'E' := by
  have hother : closing.all (fun c => c != 'e' && c != 'E') = true := by decide
  simpa using List.all_eq_true.mp hother c h

def Closes (rest : List Char) : Prop := ∀ c ∈ rest.head?, c ∈ closing

def Unnumbered (rest : List Char) : Prop := ∀ c ∈ rest.head?, c.isDigit = false

theorem Closes.unnumbered (h : Closes rest) : Unnumbered rest := fun c hc =>
  (plain_of_mem_closing (List.mem_cons_of_mem 'e' (h c hc))).1

theorem digitsOf_digits (hds : ∀ c ∈ tail, c.isDigit = true) (hrest : Unnumbered rest) :
    digitsOf (tail ++ rest) = (tail, rest) := by
  have hnone : rest.takeWhile Char.isDigit = [] ∧ rest.dropWhile Char.isDigit = rest := by
    cases rest with
    | nil => exact ⟨rfl, rfl⟩
    | cons c more =>
      have hc := hrest c rfl
      exact ⟨List.takeWhile_cons_of_neg (by simp [hc]), List.dropWhile_cons_of_neg (by simp [hc])⟩
  rw [digitsOf, List.takeWhile_append_of_pos hds, List.dropWhile_append_of_pos hds, hnone.1,
    hnone.2, List.append_nil]

theorem isDigit_of_mem_digitChars (hds : ∀ a ∈ ds, a < 10) : ∀ c ∈ digitChars ds,
    c.isDigit = true := by
  intro c hc
  obtain ⟨a, ha, rfl⟩ := List.mem_map.mp hc
  rw [Nat.isDigit_digitChar, decide_eq_true (hds a ha)]

/-! ### Integers -/

def IsSign (sign : List Char) : Prop := sign = [] ∨ sign = ['-']

theorem isSign_ite (p : Prop) [Decidable p] : IsSign (if p then ['-'] else []) := by
  unfold IsSign
  split <;> simp

theorem IsSign.minusOf {sign : List Char} (h : IsSign sign) {c : Char} (hc : c.isDigit = true)
    (rest : List Char) :
    minusOf (sign ++ c :: rest) = (sign, c :: rest) := by
  obtain rfl | rfl := h
  · rw [List.nil_append]
    unfold Json.minusOf
    split
    · rename_i heq
      obtain ⟨rfl, -⟩ := List.cons.inj heq
      exact absurd hc (by decide)
    · rfl
  · rfl

theorem wholeOf_digits {c : Char} {cs : List Char} (hds : ∀ d ∈ c :: cs, d.isDigit = true)
    (hleading : c = '0' → cs = []) (hrest : Unnumbered rest) :
    wholeOf (c :: cs ++ rest) = (c :: cs, rest) := by
  rw [List.cons_append]
  unfold wholeOf
  split
  · rename_i heq
    obtain ⟨rfl, rfl⟩ := List.cons.inj heq
    rw [hleading rfl, List.nil_append]
  · exact digitsOf_digits hds hrest

theorem fractionOf_other (h : ∀ c ∈ rest.head?, c ≠ '.') : fractionOf rest = ([], rest) := by
  unfold fractionOf
  split
  · exact absurd rfl (h '.' rfl)
  · rfl

theorem exponentOf_other (h : ∀ c ∈ rest.head?, c ≠ 'e' ∧ c ≠ 'E') :
    exponentOf rest = ([], rest) := by
  cases rest with
  | nil => rfl
  | cons c rest =>
    have hc := h c rfl
    rw [exponentOf, if_neg (by simp [hc])]

theorem Closes.fractionOf (h : Closes rest) : fractionOf rest = ([], rest) :=
  fractionOf_other fun c hc => (plain_of_mem_closing (List.mem_cons_of_mem 'e' (h c hc))).2

theorem Closes.exponentOf (h : Closes rest) : exponentOf rest = ([], rest) :=
  exponentOf_other fun c hc => ne_exponent_of_mem_closing (h c hc)

theorem toDigits_leading (size : Nat) :
    ∃ c cs, Nat.toDigits 10 size = c :: cs ∧ (c = '0' → cs = []) := by
  obtain ⟨c, cs, hcs⟩ := List.exists_cons_of_ne_nil (Nat.toDigits_ne_nil (n := size) (b := 10))
  refine ⟨c, cs, hcs, ?_⟩
  rintro rfl
  rcases Nat.eq_zero_or_pos size with rfl | hpos
  · rw [Nat.toDigits_zero] at hcs
    exact (List.cons.inj hcs).2.symm
  · exact absurd (by rw [hcs]; rfl) (Text.head?_toDigits hpos)

theorem readNumber_integer (n : Int) (hrest : Closes rest) :
    readNumber ((toString n).toList ++ rest) =
    if Text.maxDigits < (Nat.toDigits 10 n.natAbs).length then
      .error (.integer (.tooLong (Nat.toDigits 10 n.natAbs).length))
    else .ok (.int n, rest) := by
  have hread := Text.readInteger_toString n
  rw [← String.ofList_toList (s := toString n), Text.toList_toString] at hread
  have hdigits : ∀ c ∈ Nat.toDigits 10 n.natAbs, c.isDigit = true := fun c hc =>
    Nat.isDigit_of_mem_toDigits (by decide) (by decide) hc
  obtain ⟨c, cs, hcs, hleading⟩ := toDigits_leading n.natAbs
  rw [Text.toList_toString, List.append_assoc]
  rw [hcs] at hread hdigits ⊢
  have hminus := (isSign_ite (n < 0)).minusOf (hdigits c List.mem_cons_self) (cs ++ rest)
  have hwhole := wholeOf_digits hdigits hleading hrest.unnumbered
  unfold readNumber
  rw [List.cons_append, hminus]
  simp only
  rw [← List.cons_append, hwhole]
  simp only [hrest.fractionOf, hrest.exponentOf, List.isEmpty_nil, List.isEmpty_cons,
    Bool.and_self, if_true, Bool.false_eq_true, if_false]
  by_cases hlong : Text.maxDigits < (c :: cs).length
  · rw [if_pos hlong] at hread ⊢
    rw [hread]
  · rw [if_neg hlong] at hread ⊢
    rw [hread]

/-! ### Decimal numbers -/

theorem exponentSign_ite (p : Prop) [Decidable p] (cs : List Char) :
    exponentSign ((if p then '-' else '+') :: cs) = ([if p then '-' else '+'], cs) := by
  split <;> rfl

theorem exponentOf_power (power : Option Int) (hrest : Closes rest) :
    exponentOf (power.elim [] powerChars ++ rest) = (power.elim [] powerChars, rest) := by
  cases power with
  | none => exact hrest.exponentOf
  | some p =>
    have hdigits := digitsOf_digits
      (isDigit_of_mem_digitChars fun a (ha : a ∈ powerDigits p.natAbs) =>
        Decimal.powerDigits_lt ha) hrest.unnumbered
    have hsome : (digitChars (powerDigits p.natAbs)).isEmpty = false := by
      rw [digitChars, List.isEmpty_map]
      exact List.isEmpty_eq_false_iff.mpr (Decimal.powerDigits_ne_nil _)
    change exponentOf (powerChars p ++ rest) = (powerChars p, rest)
    unfold powerChars
    rw [List.cons_append, List.cons_append, exponentOf, exponentSign_ite]
    simp [hdigits, hsome]

theorem head_power (power : Option Int) (hrest : Closes rest) :
    ∀ c ∈ (power.elim [] powerChars ++ rest).head?, c ∈ 'e' :: closing := by
  intro c hc
  cases power with
  | none => exact List.mem_cons_of_mem 'e' (hrest c hc)
  | some p =>
    cases hc
    exact List.mem_cons_self

theorem unnumbered_power (power : Option Int) (hrest : Closes rest) :
    Unnumbered (power.elim [] powerChars ++ rest) :=
  fun c hc => (plain_of_mem_closing (head_power power hrest c hc)).1

theorem fractionOf_fraction (hdecimal : ∀ a ∈ n.fraction, a < 10) (hrest : Closes rest) :
    fractionOf (n.fractionChars ++ (n.power.elim [] powerChars ++ rest)) =
      (n.fractionChars, n.power.elim [] powerChars ++ rest) := by
  unfold Numeral.fractionChars
  split
  · exact fractionOf_other fun c hc => (plain_of_mem_closing (head_power n.power hrest c hc)).2
  · rename_i hsome
    have hdigits := digitsOf_digits (isDigit_of_mem_digitChars hdecimal)
      (unnumbered_power n.power hrest)
    have hnonempty : (digitChars n.fraction).isEmpty = false := by
      rw [digitChars, List.isEmpty_map]
      exact List.isEmpty_eq_false_iff.mpr hsome
    rw [List.cons_append, fractionOf, hdigits, hnonempty]
    rfl

theorem unnumbered_fraction (n : Numeral) (hrest : Closes rest) :
    Unnumbered (n.fractionChars ++ (n.power.elim [] powerChars ++ rest)) := by
  unfold Numeral.fractionChars
  split
  · exact unnumbered_power n.power hrest
  · intro c hc
    cases hc
    rfl

theorem readNumber_numeral (h : n.Proper) {sign : List Char} (hsign : IsSign sign)
    (hrest : Closes rest) :
    readNumber (sign ++ n.chars ++ rest) =
      .ok (.float ((Decimal.read? (String.ofList (sign ++ n.chars))).getD 0.0), rest) := by
  obtain ⟨a, ds, hwhole, hzero⟩ := h.leading
  have hdigits := isDigit_of_mem_digitChars h.wholeDecimal
  rw [hwhole] at hdigits
  have ha : a < 10 := h.wholeDecimal a (hwhole ▸ List.mem_cons_self)
  have hleading : Nat.digitChar a = '0' → digitChars ds = [] := by
    have hall : ∀ a < 10, Nat.digitChar a = '0' → a = 0 := by decide
    intro hchar
    rw [hzero (hall a ha hchar)]
    rfl
  have hminus := hsign.minusOf (hdigits _ List.mem_cons_self)
    (digitChars ds ++ (n.fractionChars ++ (n.power.elim [] powerChars ++ rest)))
  have hwholeOf : wholeOf (Nat.digitChar a :: digitChars ds ++ _) =
      (Nat.digitChar a :: digitChars ds, _) :=
    wholeOf_digits hdigits hleading (unnumbered_fraction n hrest)
  have hbroken : (n.fractionChars.isEmpty && (n.power.elim [] powerChars).isEmpty) = false := by
    unfold Numeral.fractionChars
    obtain hfraction | hpower := h.broken
    · rw [if_neg hfraction]
      rfl
    · obtain ⟨p, hp⟩ := Option.isSome_iff_exists.mp hpower
      rw [hp]
      exact Bool.and_false _
  have hchars : sign ++ n.chars ++ rest = sign ++ Nat.digitChar a ::
      (digitChars ds ++ (n.fractionChars ++ (n.power.elim [] powerChars ++ rest))) := by
    simp [Numeral.chars, hwhole, digitChars]
  have htext : sign ++ n.chars = sign ++ (Nat.digitChar a :: digitChars ds) ++ n.fractionChars ++
      n.power.elim [] powerChars := by
    simp [Numeral.chars, hwhole, digitChars]
  rw [hchars, htext]
  unfold readNumber
  rw [hminus]
  simp only
  rw [← List.cons_append, hwholeOf]
  simp only [fractionOf_fraction h.fractionDecimal hrest, exponentOf_power n.power hrest,
    hbroken, List.isEmpty_cons, Bool.false_eq_true, if_false]

theorem readNumber_double (hx : x.isFinite = true) (hrest : Closes rest) :
    readNumber ((numberLayout.text x).toList ++ rest) = .ok (.float x, rest) := by
  obtain ⟨negative, n, hproper, htext, hread⟩ := numberLayout.exists_numeral hx
  rw [htext, readNumber_numeral hproper (isSign_ite _) hrest, ← htext, String.ofList_toList,
    hread, Option.getD_some]

end Booru.Json
