import Booru.Proofs.Blacklist.Word

/-! What the lexer reads of a word: the term that the word spells and no other, unless a number in
it has too many digits. -/

namespace Booru.Blacklist

open Text

variable {negated minus : Bool} {start cs name value mark digits rest w : List Char}
  {comparator : String} {t : Token} {e : IntegerError} {n : Nat}

/-! ### Values -/

theorem lexId_digits (hdigits : IsNumeral digits) (hrest : ∀ c ∈ rest.head?, c.isDigit = false) :
    lexId negated (digits ++ rest) =
      if maxDigits < digits.length then .error (.integer (.tooLong digits.length))
      else if Nat.ofDigitChars 10 digits 0 < 0x8000000000000000 then
        .ok (.ofId (Nat.ofDigitChars 10 digits 0) negated, rest)
      else stop (.idOutOfRange (String.ofList digits)) (digits ++ rest) := by
  have hnumber : number digits = if maxDigits < digits.length then
      .error (.integer (.tooLong digits.length)) else .ok (Nat.ofDigitChars 10 digits 0 : Int) :=
    number_signed hdigits false
  have hfits : fitsWord (Nat.ofDigitChars 10 digits 0) = true ↔
      Nat.ofDigitChars 10 digits 0 < 0x8000000000000000 := by
    rw [fitsWord_iff]
    omega
  simp only [lexId, takeWhile_run hdigits.digits hrest, dropWhile_run hdigits.digits hrest,
    isEmpty_eq_false hdigits.nonempty, hnumber, bind, Except.bind, pure, Except.pure]
  split
  · contradiction
  by_cases hlong : maxDigits < digits.length
  · simp [hlong]
  rw [if_neg hlong, if_neg hlong]
  exact ite_congr (propext hfits) (fun _ => rfl) fun _ => rfl

theorem lexId_bare (hrest : ∀ c ∈ rest.head?, c.isDigit = false) :
    lexId negated rest = stop .missingId rest := by
  have htake : rest.takeWhile Char.isDigit = [] := @takeWhile_run _ [] rest (by simp) hrest
  simp only [lexId, htake, List.isEmpty_nil, if_true]

theorem lexThreshold_signed (hdigits : IsNumeral digits)
    (hrest : ∀ c ∈ rest.head?, c.isDigit = false) :
    lexThreshold negated comparator (signMark minus ++ (digits ++ rest)) =
      if maxDigits < digits.length then .error (.integer (.tooLong digits.length))
      else if fitsWord (signedValue minus digits) then
        .ok (.scoreOf comparator (signedValue minus digits) negated, rest)
      else stop (.scoreOutOfRange (String.ofList (signMark minus ++ digits)))
        (signMark minus ++ (digits ++ rest)) := by
  simp only [lexThreshold, signOf_signMark minus (hdigits.head_ne (by decide)),
    takeWhile_run hdigits.digits hrest, dropWhile_run hdigits.digits hrest,
    isEmpty_eq_false hdigits.nonempty, number_signed hdigits, bind, Except.bind, pure, Except.pure]
  split
  · contradiction
  by_cases hlong : maxDigits < digits.length
  · simp [hlong]
  · simp only [hlong, if_false]

theorem lexThreshold_bare (hrest : ∀ c ∈ (signOf cs).2.head?, c.isDigit = false) :
    lexThreshold negated comparator cs = stop .missingScore cs := by
  have htake : (signOf cs).2.takeWhile Char.isDigit = [] := @takeWhile_run _ [] _ (by simp) hrest
  simp only [lexThreshold, htake, List.isEmpty_nil, if_true]

theorem lexScore_mark (hmark : Comparator mark comparator)
    (hrest : ∀ c ∈ rest.head?, isComparatorChar c = false) :
    lexScore negated (mark ++ rest) = lexThreshold negated comparator rest := by
  obtain ⟨hcomparator, hdrop⟩ := comparatorOf_eq hmark hrest
  simp only [lexScore, hcomparator, hdrop, hmark.mem, if_true]

theorem head_threshold (hdigits : IsNumeral digits) (minus : Bool) (rest : List Char) :
    ∀ c ∈ (signMark minus ++ (digits ++ rest)).head?, isComparatorChar c = false := by
  intro c hc
  cases minus with
  | true =>
    have : c = '-' := by simpa [signMark, eq_comm] using hc
    subst this
    decide
  | false =>
    rw [Bool.eq_false_iff]
    intro hcomp
    exact hdigits.head_ne (isDigit_comparator hcomp) (by simpa [signMark] using hc)

theorem lexScore_signed (hmark : Comparator mark comparator) (hdigits : IsNumeral digits) :
    lexScore negated (mark ++ (signMark minus ++ (digits ++ rest))) =
      lexThreshold negated comparator (signMark minus ++ (digits ++ rest)) :=
  lexScore_mark hmark (head_threshold hdigits minus rest)

theorem lexId_ok (h : lexId negated cs = .ok (t, [])) :
    IsNumeral cs ∧ Nat.ofDigitChars 10 cs 0 < 0x8000000000000000 ∧
      t = .ofId (Nat.ofDigitChars 10 cs 0) negated := by
  obtain ⟨digits, rest, rfl, hdigits, hrest⟩ := exists_run Char.isDigit cs
  by_cases hne : digits = []
  · subst hne
    rw [List.nil_append, lexId_bare hrest] at h
    simp [stop] at h
  rw [lexId_digits ⟨hne, hdigits⟩ hrest] at h
  split at h
  · simp at h
  split at h
  · rename_i hle
    simp only [Except.ok.injEq, Prod.mk.injEq] at h
    obtain ⟨rfl, rfl⟩ := h
    rw [List.append_nil]
    exact ⟨⟨hne, hdigits⟩, hle, rfl⟩
  · simp [stop] at h

theorem lexId_integer (h : lexId negated cs = .error (.integer e)) :
    ∃ digits rest, cs = digits ++ rest ∧ (∀ c ∈ digits, c.isDigit = true) ∧
      maxDigits < digits.length ∧ (∀ c ∈ rest.head?, c.isDigit = false) ∧
      e = .tooLong digits.length := by
  obtain ⟨digits, rest, rfl, hdigits, hrest⟩ := exists_run Char.isDigit cs
  by_cases hne : digits = []
  · subst hne
    rw [List.nil_append, lexId_bare hrest] at h
    simp [stop] at h
  rw [lexId_digits ⟨hne, hdigits⟩ hrest] at h
  split at h
  · rename_i hlong
    simp only [Except.error.injEq, Stop.integer.injEq] at h
    exact ⟨digits, rest, rfl, hdigits, hlong, hrest, h.symm⟩
  · split at h <;> simp [stop] at h

theorem exists_threshold (cs : List Char) :
    (∃ minus digits rest, cs = signMark minus ++ (digits ++ rest) ∧ IsNumeral digits ∧
      ∀ c ∈ rest.head?, c.isDigit = false) ∨ ∀ c ∈ (signOf cs).2.head?, c.isDigit = false := by
  obtain ⟨minus, -, hcs⟩ := signOf_eq cs
  obtain ⟨digits, rest, hrun, hdigits, hrest⟩ := exists_run Char.isDigit (signOf cs).2
  by_cases hne : digits = []
  · right
    rwa [hrun, hne, List.nil_append]
  · left
    exact ⟨minus, digits, rest, by rw [← hrun]; exact hcs, ⟨hne, hdigits⟩, hrest⟩

theorem lexThreshold_ok (h : lexThreshold negated comparator cs = .ok (t, [])) :
    ∃ minus digits, cs = signMark minus ++ digits ∧ IsNumeral digits ∧
      fitsWord (signedValue minus digits) = true ∧
      t = .scoreOf comparator (signedValue minus digits) negated := by
  rcases exists_threshold cs with ⟨minus, digits, rest, rfl, hdigits, hrest⟩ | hbare
  · rw [lexThreshold_signed hdigits hrest] at h
    split at h
    · simp at h
    split at h
    · rename_i hfits
      simp only [Except.ok.injEq, Prod.mk.injEq] at h
      obtain ⟨rfl, rfl⟩ := h
      exact ⟨minus, digits, by rw [List.append_nil], hdigits, hfits, rfl⟩
    · simp [stop] at h
  · rw [lexThreshold_bare hbare] at h
    simp [stop] at h

theorem lexThreshold_integer (h : lexThreshold negated comparator cs = .error (.integer e)) :
    ∃ minus digits rest, cs = signMark minus ++ (digits ++ rest) ∧
    (∀ c ∈ digits, c.isDigit = true) ∧
      maxDigits < digits.length ∧ (∀ c ∈ rest.head?, c.isDigit = false) ∧
      e = .tooLong digits.length := by
  rcases exists_threshold cs with ⟨minus, digits, rest, rfl, hdigits, hrest⟩ | hbare
  · rw [lexThreshold_signed hdigits hrest] at h
    split at h
    · rename_i hlong
      simp only [Except.error.injEq, Stop.integer.injEq] at h
      exact ⟨minus, digits, rest, rfl, hdigits.digits, hlong, hrest, h.symm⟩
    · split at h <;> simp [stop] at h
  · rw [lexThreshold_bare hbare] at h
    simp [stop] at h

theorem lexScore_ok (h : lexScore negated cs = .ok (t, [])) :
    ∃ mark comparator minus digits, cs = mark ++ (signMark minus ++ digits) ∧
      Comparator mark comparator ∧ IsNumeral digits ∧ fitsWord (signedValue minus digits) = true ∧
      t = .scoreOf comparator (signedValue minus digits) negated := by
  unfold lexScore at h
  split at h
  · rename_i hknown
    obtain ⟨mark, hmark, hsplit⟩ := exists_comparator cs hknown
    obtain ⟨minus, digits, hdigits, hnumeral, hfits, ht⟩ := lexThreshold_ok h
    exact ⟨mark, _, minus, digits, by rwa [hdigits] at hsplit, hmark, hnumeral, hfits, ht⟩
  · simp [stop] at h

theorem lexScore_integer (h : lexScore negated cs = .error (.integer e)) :
    ∃ mark comparator minus digits rest, cs = mark ++ (signMark minus ++ (digits ++ rest)) ∧
      Comparator mark comparator ∧ (∀ c ∈ digits, c.isDigit = true) ∧ maxDigits < digits.length ∧
      (∀ c ∈ rest.head?, c.isDigit = false) ∧ e = .tooLong digits.length := by
  unfold lexScore at h
  split at h
  · rename_i hknown
    obtain ⟨mark, hmark, hsplit⟩ := exists_comparator cs hknown
    obtain ⟨minus, digits, rest, hdigits, hrun, hlong, hrest, he⟩ := lexThreshold_integer h
    exact ⟨mark, _, minus, digits, rest, by rwa [hdigits] at hsplit, hmark, hrun, hlong, hrest, he⟩
  · simp [stop] at h

theorem lexUser_ok (h : lexUser negated cs = .ok (t, [])) :
    IsName cs ∧ t = .ofUser (foldName (String.ofList cs)) negated := by
  simp only [lexUser] at h
  split at h
  · simp [stop] at h
  rename_i hne
  simp only [Except.ok.injEq, Prod.mk.injEq] at h
  have hrun := List.dropWhile_eq_nil_iff.mp h.2
  rw [List.takeWhile_eq_self_iff.mpr hrun] at h hne
  exact ⟨⟨by simpa using hne, hrun⟩, h.1.symm⟩

/-! ### Terms -/

theorem not_isTagChar_colon : isTagChar ':' = false := by decide

theorem lexUnsigned_name (hname : IsName name) :
    lexUnsigned negated start name = .ok (.ofTag (foldName (String.ofList name)) negated, []) := by
  simp only [lexUnsigned, List.takeWhile_eq_self_iff.mpr hname.tags,
    List.dropWhile_eq_nil_iff.mpr hname.tags, isEmpty_eq_false hname.nonempty, Bool.false_eq_true,
    if_false]

theorem lexUnsigned_special (hname : IsName name) (value : List Char) :
    lexUnsigned negated start (name ++ ':' :: value) =
      lexSpecial (foldName (String.ofList name)) negated start value := by
  have hhead : ∀ c ∈ (':' :: value).head?, isTagChar c = false := by simp [not_isTagChar_colon]
  simp only [lexUnsigned, takeWhile_run hname.tags hhead, dropWhile_run hname.tags hhead,
    isEmpty_eq_false hname.nonempty, Bool.false_eq_true, if_false]

theorem lexUnsigned_shape {r : Except Stop (Token × List Char)}
    (h : lexUnsigned negated start cs = r)
    (hr : ∀ p here, r ≠ stop p here) : ∃ name, IsName name ∧
      ((∃ value, cs = name ++ ':' :: value ∧
          r = lexSpecial (foldName (String.ofList name)) negated start value) ∨
        ∃ rest, cs = name ++ rest ∧
        r = .ok (.ofTag (foldName (String.ofList name)) negated, rest)) := by
  simp only [lexUnsigned] at h
  split at h
  · exact absurd h.symm (hr _ _)
  rename_i hne
  have hsplit := @List.takeWhile_append_dropWhile _ isTagChar cs
  refine ⟨cs.takeWhile isTagChar, ⟨by simpa using hne, fun _ => List.mem_takeWhile_imp⟩, ?_⟩
  split at h
  · rename_i value hvalue
    exact .inl ⟨value, by rw [← hvalue, hsplit], h.symm⟩
  · exact .inr ⟨_, hsplit.symm, h.symm⟩

theorem lexUnsigned_rating (hname : IsName name) (hfold : foldName (String.ofList name) = "rating")
    (hvalue : ∀ c ∈ value, c.isAlpha = true) :
    lexUnsigned negated start (name ++ ':' :: value) =
      .ok (.ofRating (String.ofList value) negated, []) := by
  rw [lexUnsigned_special hname, hfold]
  simp only [lexSpecial, List.takeWhile_eq_self_iff.mpr hvalue,
    List.dropWhile_eq_nil_iff.mpr hvalue]

theorem lexUnsigned_id (hname : IsName name) (hfold : foldName (String.ofList name) = "id")
    (hdigits : IsNumeral digits) (hshort : digits.length ≤ maxDigits)
    (hle : Nat.ofDigitChars 10 digits 0 < 0x8000000000000000) :
    lexUnsigned negated start (name ++ ':' :: digits) =
      .ok (.ofId (Nat.ofDigitChars 10 digits 0) negated, []) := by
  have hread := @lexId_digits negated digits [] hdigits (by simp)
  rw [List.append_nil, if_neg (Nat.not_lt.mpr hshort), if_pos hle] at hread
  rw [lexUnsigned_special hname, hfold]
  exact hread

theorem lexUnsigned_user (hname : IsName name) (hfold : foldName (String.ofList name) = "user")
    (hvalue : IsName value) :
    lexUnsigned negated start (name ++ ':' :: value) =
      .ok (.ofUser (foldName (String.ofList value)) negated, []) := by
  rw [lexUnsigned_special hname, hfold]
  simp only [lexSpecial, lexUser, List.takeWhile_eq_self_iff.mpr hvalue.tags,
    List.dropWhile_eq_nil_iff.mpr hvalue.tags, isEmpty_eq_false hvalue.nonempty,
    Bool.false_eq_true, if_false]

theorem lexUnsigned_score (hname : IsName name) (hfold : foldName (String.ofList name) = "score")
    (hmark : Comparator mark comparator) (hdigits : IsNumeral digits)
    (hshort : digits.length ≤ maxDigits) (hfits : fitsWord (signedValue minus digits) = true) :
    lexUnsigned negated start (name ++ ':' :: (mark ++ (signMark minus ++ digits))) =
      .ok (.scoreOf comparator (signedValue minus digits) negated, []) := by
  have hread := @lexThreshold_signed negated minus digits [] comparator hdigits (by simp)
  rw [if_neg (Nat.not_lt.mpr hshort), if_pos hfits] at hread
  have hscore := @lexScore_signed negated minus mark digits [] comparator hmark hdigits
  rw [hread, List.append_nil] at hscore
  rw [lexUnsigned_special hname, hfold]
  exact hscore

theorem lexUnsigned_atom (h : Atom negated w t) (hshort : ∀ n, ¬ LongAtom w n) :
    lexUnsigned negated start w = .ok (t, []) := by
  cases h with
  | tag hname => exact lexUnsigned_name hname
  | rating hname hfold hvalue => exact lexUnsigned_rating hname hfold hvalue
  | @id name digits hname hfold hdigits hle =>
    refine lexUnsigned_id hname hfold hdigits (Nat.not_lt.mp fun hlong => ?_) hle
    exact hshort digits.length (by
      simpa using @LongAtom.id name digits [] hname hfold hdigits.digits hlong (by simp))
  | user hname hfold hvalue => exact lexUnsigned_user hname hfold hvalue
  | @score name mark digits comparator minus hname hfold hmark hdigits hlow hhigh =>
    have hfits := fitsWord_iff.mpr ⟨hlow, hhigh⟩
    refine lexUnsigned_score hname hfold hmark hdigits (Nat.not_lt.mp fun hlong => ?_) hfits
    exact hshort digits.length (by
      simpa using @LongAtom.score name mark digits [] comparator minus hname hfold hmark
        hdigits.digits hlong (by simp))

theorem lexUnsigned_longAtom (h : LongAtom w n) :
    lexUnsigned negated start w = .error (.integer (.tooLong n)) := by
  have hpos : ∀ {digits : List Char}, maxDigits < digits.length → digits ≠ [] := by
    rintro digits hlong rfl
    simp at hlong
  cases h with
  | @id name digits rest hname hfold hdigits hlong hrest =>
    have hread := @lexId_digits negated digits rest ⟨hpos hlong, hdigits⟩ hrest
    rw [if_pos hlong] at hread
    rw [lexUnsigned_special hname, hfold]
    exact hread
  | @score name mark digits rest comparator minus hname hfold hmark hdigits hlong hrest =>
    have hscore := @lexScore_signed negated minus mark digits rest comparator hmark
      ⟨hpos hlong, hdigits⟩
    rw [lexThreshold_signed ⟨hpos hlong, hdigits⟩ hrest, if_pos hlong] at hscore
    rw [lexUnsigned_special hname, hfold]
    exact hscore

theorem atom_of_lexUnsigned (h : lexUnsigned negated start w = .ok (t, [])) : Atom negated w t := by
  obtain ⟨name, hname, ⟨value, rfl, hread⟩ | ⟨rest, rfl, hread⟩⟩ :=
    lexUnsigned_shape h (by simp [stop])
  · -- one case for each kind of special term, and one for the names of none
    generalize hfold : foldName (String.ofList name) = folded at hread
    unfold lexSpecial at hread
    split at hread
    · simp only [Except.ok.injEq, Prod.mk.injEq] at hread
      obtain ⟨rfl, hdrop⟩ := hread
      have hletters := List.dropWhile_eq_nil_iff.mp hdrop.symm
      rw [List.takeWhile_eq_self_iff.mpr hletters]
      exact .rating hname hfold hletters
    · obtain ⟨hdigits, hle, rfl⟩ := lexId_ok hread.symm
      exact .id hname hfold hdigits hle
    · obtain ⟨hvalue, rfl⟩ := lexUser_ok hread.symm
      exact .user hname hfold hvalue
    · obtain ⟨mark, comparator, minus, digits, rfl, hmark, hdigits, hfits, rfl⟩ :=
        lexScore_ok hread.symm
      obtain ⟨hlow, hhigh⟩ := fitsWord_iff.mp hfits
      exact .score hname hfold hmark hdigits hlow hhigh
    · simp [stop] at hread
  · simp only [Except.ok.injEq, Prod.mk.injEq] at hread
    obtain ⟨rfl, rfl⟩ := hread
    rw [List.append_nil]
    exact .tag hname

theorem longAtom_of_lexUnsigned (h : lexUnsigned negated start w = .error (.integer e)) :
    ∃ n, LongAtom w n ∧ e = .tooLong n := by
  obtain ⟨name, hname, ⟨value, rfl, hread⟩ | ⟨rest, rfl, hread⟩⟩ :=
    lexUnsigned_shape h (by simp [stop])
  · generalize hfold : foldName (String.ofList name) = folded at hread
    unfold lexSpecial at hread
    split at hread
    · simp at hread
    · obtain ⟨digits, rest, rfl, hdigits, hlong, hrest, rfl⟩ := lexId_integer hread.symm
      exact ⟨_, .id hname hfold hdigits hlong hrest, rfl⟩
    · simp only [lexUser] at hread
      split at hread <;> simp [stop] at hread
    · obtain ⟨mark, comparator, minus, digits, rest, rfl, hmark, hdigits, hlong, hrest, rfl⟩ :=
        lexScore_integer hread.symm
      exact ⟨_, .score hname hfold hmark hdigits hlong hrest, rfl⟩
    · simp [stop] at hread
  · simp at hread

/-! ### Words -/

theorem IsName.head (h : IsName name) (rest : List Char) :
    (name ++ rest).head?.any isTagChar = true := by
  cases name with
  | nil => exact absurd rfl h.nonempty
  | cons c name => simpa using h.tags c (by simp)

theorem Atom.head (h : Atom negated w t) : w.head?.any isTagChar = true := by
  cases h with
  | tag hname => simpa using hname.head []
  | rating hname => exact hname.head _
  | id hname => exact hname.head _
  | user hname => exact hname.head _
  | score hname => exact hname.head _

theorem LongAtom.head (h : LongAtom w n) : w.head?.any isTagChar = true := by
  cases h with
  | id hname => exact hname.head _
  | score hname => exact hname.head _

theorem lexToken_positive (h : w.head? ≠ some '-') : lexToken w = lexUnsigned false w w := by
  cases w with
  | nil => rfl
  | cons c w =>
    have hc : c ≠ '-' := by simpa using h
    simp [lexToken, hc]

theorem lexToken_negative (h : w.head?.any isTagChar = true) :
    lexToken ('-' :: w) = lexUnsigned true ('-' :: w) w := by
  simp only [lexToken, h, if_true]

theorem lexToken_spells (h : Spells w t) (hshort : ∀ n, ¬ Overlong w n) :
    lexToken w = .ok (t, []) := by
  cases h with
  | positive hsign hatom =>
    rw [lexToken_positive hsign]
    exact lexUnsigned_atom hatom fun n hlong => hshort n (.positive hsign hlong)
  | negative hatom =>
    rw [lexToken_negative hatom.head]
    exact lexUnsigned_atom hatom fun n hlong => hshort n (.negative hlong)

theorem lexToken_overlong (h : Overlong w n) : lexToken w = .error (.integer (.tooLong n)) := by
  cases h with
  | positive hsign hatom =>
    rw [lexToken_positive hsign]
    exact lexUnsigned_longAtom hatom
  | negative hatom =>
    rw [lexToken_negative hatom.head]
    exact lexUnsigned_longAtom hatom

theorem lexToken_cases (w : List Char) :
    w.head? ≠ some '-' ∧ lexToken w = lexUnsigned false w w ∨
      (∃ v, w = '-' :: v ∧ lexToken w = lexUnsigned true w v) ∨
      lexToken w = stop .bareNegation w := by
  by_cases hsign : w.head? = some '-'
  · right
    obtain ⟨v, rfl⟩ := List.head?_eq_some_iff.mp hsign
    by_cases hhead : v.head?.any isTagChar = true
    · exact .inl ⟨v, rfl, lexToken_negative hhead⟩
    · right
      simp only [lexToken, hhead]
      rfl
  · exact .inl ⟨hsign, lexToken_positive hsign⟩

theorem spells_of_lexToken (h : lexToken w = .ok (t, [])) : Spells w t := by
  rcases lexToken_cases w with ⟨hsign, hread⟩ | ⟨v, rfl, hread⟩ | hread
  · exact .positive hsign (atom_of_lexUnsigned (hread.symm.trans h))
  · exact .negative (atom_of_lexUnsigned (hread.symm.trans h))
  · simp [hread, stop] at h

theorem overlong_of_lexToken (h : lexToken w = .error (.integer e)) :
    ∃ n, Overlong w n ∧ e = .tooLong n := by
  rcases lexToken_cases w with ⟨hsign, hread⟩ | ⟨v, rfl, hread⟩ | hread
  · obtain ⟨n, hlong, he⟩ := longAtom_of_lexUnsigned (hread.symm.trans h)
    exact ⟨n, .positive hsign hlong, he⟩
  · obtain ⟨n, hlong, he⟩ := longAtom_of_lexUnsigned (hread.symm.trans h)
    exact ⟨n, .negative hlong, he⟩
  · simp [hread, stop] at h

theorem wordToken_eq_ok : wordToken w = .ok t ↔ Spells w t ∧ ∀ n, ¬ Overlong w n := by
  constructor
  · intro h
    have hread : lexToken w = .ok (t, []) := by
      unfold wordToken at h
      split at h
      · simp at h
      · rename_i hread
        rw [hread, Except.ok.inj h]
      · simp [stop] at h
    refine ⟨spells_of_lexToken hread, fun n hlong => ?_⟩
    simp [lexToken_overlong hlong] at hread
  · rintro ⟨hspells, hshort⟩
    simp only [wordToken, lexToken_spells hspells hshort]

theorem wordToken_eq_integer :
    wordToken w = .error (.integer e) ↔ ∃ n, Overlong w n ∧ e = .tooLong n := by
  constructor
  · intro h
    unfold wordToken at h
    split at h
    · rename_i hread
      rw [Except.error.inj h] at hread
      exact overlong_of_lexToken hread
    · simp at h
    · simp [stop] at h
  · rintro ⟨n, hlong, rfl⟩
    simp only [wordToken, lexToken_overlong hlong]

end Booru.Blacklist
