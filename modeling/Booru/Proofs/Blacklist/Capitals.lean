import Booru.Proofs.Blacklist.Joining
import Booru.Proofs.Blacklist.LetterCase
import Booru.Proofs.Text.Capitals

/-! A blacklist in capitals. It is one too, word by word, and it is the same one unless a
letter stands in it that shares its capital with another small letter: of those, folding
brings back the other one. -/

namespace Booru.Blacklist

open Text

variable {name w : List Char} {negated : Bool} {t : Token} {c : Char}

def capitals (cs : List Char) : List Char := cs.map upperChar

def Unshared (cs : List Char) : Prop := ∀ c ∈ cs, c ∉ variantLetters

def IsAscii (cs : List Char) : Prop := ∀ c ∈ cs, c.toNat < 128

/-! ### Characters -/

theorem isTagChar_upperChar (h : isTagChar c = true) : isTagChar (upperChar c) = true := by
  refine upperChar_cases (motive := (isTagChar · = true)) c (fun hc => ?_) (fun e he _ => ?_)
    (fun hc r hr hcov => ?_)
    fun _ => h
  · exact forall_ascii (motive := fun c => isTagChar c = true → isTagChar c.toUpper =
      true) (by decide) hc h
  · exact isTagChar_of_isAlphanumeric (List.all_eq_true.mp strayCapitals_letters e he)
  · obtain ⟨hcapital, hback⟩ := CaseRun.inverse_spec hr hcov
    have hsame := (CaseRun.isAlphanumeric_apply hr hcapital).2
    rw [hback, Char.ofNat_toNat] at hsame
    exact isTagChar_of_isAlphanumeric (hsame.symm.trans (isAlphanumeric_of_isTagChar hc h))

theorem upperChar_ne_dottedCapitalI (h : c ≠ dottedCapitalI) : upperChar c ≠ dottedCapitalI := by
  refine upperChar_cases (motive := (· ≠ dottedCapitalI)) c (fun hc => ?_) (fun e he _ => ?_)
    (fun _ r hr hcov heq => ?_) fun _ => h
  · exact forall_ascii (motive := fun c => c.toUpper ≠ dottedCapitalI) (by decide) hc
  · exact bne_iff_ne.mp (List.all_eq_true.mp strayCapitals_undotted e he)
  · -- the small letter of the capital is the character, but this capital is its own small letter
    obtain ⟨hcapital, hback⟩ := CaseRun.inverse_spec hr hcov
    rw [heq] at hcapital hback
    have hlower := lowerChar_of_covers hr (by decide) hcapital
    rw [hback, Char.ofNat_toNat, show lowerChar dottedCapitalI = dottedCapitalI from rfl] at hlower
    exact h hlower.symm

theorem foldChar_upperChar (h : isTagChar c = true) :
    foldChar (upperChar c) = foldChar c ↔ c ∉ variantLetters := by
  by_cases hdot : c = dottedCapitalI
  · subst hdot
    exact iff_of_true rfl (by decide)
  have hiota : c ≠ iotaSubscript := by
    rintro rfl
    have hletter := isAlphanumeric_of_isTagChar (by decide) h
    rw [isAlphanumeric_iotaSubscript] at hletter
    exact absurd hletter Bool.false_ne_true
  rw [foldChar_eq_lowerChar (isTagChar_upperChar h) (upperChar_ne_dottedCapitalI hdot),
    foldChar_eq_lowerChar h hdot]
  constructor
  · exact fun hsame hvariant => lowerChar_upperChar_of_variant hvariant hsame
  · exact fun hvariant => lowerChar_upperChar hvariant hiota

theorem isBlank_of_variant (h : c ∈ variantLetters) : isBlank c = false := by
  have hall : (variantLetters.all (!isBlank ·)) = true := by decide
  simpa using List.all_eq_true.mp hall c h

theorem IsAscii.unshared (h : IsAscii w) : Unshared w := by
  intro c hc hvariant
  have hall : (variantLetters.all (128 ≤ ·.toNat)) = true := by decide
  have habove := decide_eq_true_eq.mp (List.all_eq_true.mp hall c hvariant)
  have := h c hc
  omega

/-! ### Names -/

theorem IsName.capitals (h : IsName name) : IsName (capitals name) := by
  refine ⟨by simpa [Blacklist.capitals] using h.nonempty, fun c hc => ?_⟩
  obtain ⟨a, ha, rfl⟩ := List.mem_map.mp hc
  exact isTagChar_upperChar (h.tags a ha)

theorem foldName_capitals (h : IsName name) :
    foldName (String.ofList (capitals name)) = foldName (String.ofList name) ↔ Unshared name := by
  rw [← String.toList_inj, toList_foldName, toList_foldName, String.toList_ofList,
    String.toList_ofList, capitals, List.map_map, List.map_inj_left]
  exact forall₂_congr fun c hc => foldChar_upperChar (h.tags c hc)

theorem isAscii_of_kind (kind : TokenKind) (h : foldName (String.ofList name) = kind.name) :
    IsAscii name := by
  intro c hc
  have hletters : kind.name.toList.all (fun low => low.toNat < 128 && low != 'k') = true := by
    cases kind <;> decide
  have hmem : foldChar c ∈ kind.name.toList := by
    rw [← h, toList_foldName, String.toList_ofList]
    exact List.mem_map_of_mem hc
  have hlow := List.all_eq_true.mp hletters _ hmem
  simp only [Bool.and_eq_true, decide_eq_true_eq, bne_iff_ne] at hlow
  exact ascii_of_foldChar rfl hlow.1 hlow.2

theorem isAscii_special {value : List Char} (hname : IsAscii name) (hvalue : IsAscii value) :
    IsAscii (name ++ ':' :: value) := by
  intro c hc
  rcases List.mem_append.mp hc with hc | hc
  · exact hname c hc
  rcases List.mem_cons.mp hc with rfl | hc
  · decide
  · exact hvalue c hc

theorem isAscii_of_isDigit {digits : List Char} (h : ∀ c ∈ digits, c.isDigit = true) :
    IsAscii digits := by
  intro c hc
  have := toNat_of_isDigit (h c hc)
  omega

theorem Comparator.isAscii {mark : List Char} {comparator : String}
    (h : Comparator mark comparator) :
    IsAscii mark := by
  intro c hc
  have hmark := h.chars c hc
  simp only [isComparatorChar, Bool.or_eq_true, decide_eq_true_eq] at hmark
  rcases hmark with (rfl | rfl) | rfl <;> decide

theorem Atom.name_of_not_isAscii (h : Atom negated w t) (hascii : ¬ IsAscii w) :
    IsName w ∧ t = .ofTag (foldName (String.ofList w)) negated ∨
      ∃ name value, w = name ++ ':' :: value ∧ IsName name ∧
      foldName (String.ofList name) = "user" ∧
        IsName value ∧ t = .ofUser (foldName (String.ofList value)) negated := by
  cases h with
  | tag hname => exact .inl ⟨hname, rfl⟩
  | rating hname hfold hvalue =>
    refine absurd (isAscii_special (isAscii_of_kind .rating hfold) fun c hc => ?_) hascii
    have := toNat_of_isAlpha (hvalue c hc)
    omega
  | id hname hfold hdigits hle =>
    exact absurd (isAscii_special (isAscii_of_kind .id hfold) (isAscii_of_isDigit hdigits.digits))
      hascii
  | user hname hfold hvalue => exact .inr ⟨_, _, rfl, hname, hfold, hvalue, rfl⟩
  | @score name mark digits comparator minus hname hfold hmark hdigits hlow hhigh =>
    refine absurd (isAscii_special (isAscii_of_kind .score hfold) fun c hc => ?_) hascii
    rcases List.mem_append.mp hc with hc | hc
    · exact hmark.isAscii c hc
    rcases List.mem_append.mp hc with hc | hc
    · cases minus with
      | true =>
        rw [List.mem_singleton.mp hc]
        decide
      | false => simp [signMark] at hc
    · exact isAscii_of_isDigit hdigits.digits c hc

/-! ### Words -/

theorem wordToken_capitals_of_isAscii (h : wordToken w = .ok t) (hascii : IsAscii w) :
    wordToken (capitals w) = .ok t := by
  have hsmall : small (capitals w) = small w := by
    rw [small, capitals, List.map_map, small]
    refine List.map_congr_left fun c hc => ?_
    rw [Function.comp_apply, upperChar, if_pos (hascii c hc)]
    exact forall_ascii (motive := fun c => c.toUpper.toLower = c.toLower) (by decide) (hascii c hc)
  have hread : wordToken (small w) = .ok t := by
    rw [wordToken_small, h]
    rfl
  rw [← hsmall, wordToken_small] at hread
  cases hup : wordToken (capitals w) with
  | error e => simp [hup, Except.mapError] at hread
  | ok t' => simpa [hup, Except.mapError] using hread

theorem Atom.lexUnsigned_capitals (h : Atom negated w t) (hascii : ¬ IsAscii w)
    (start : List Char) :
    ∃ t', lexUnsigned negated start (capitals w) = .ok (t', []) ∧ (t' = t ↔ Unshared w) := by
  rcases h.name_of_not_isAscii hascii with ⟨hname, rfl⟩
    | ⟨name, value, rfl, hname, hfold, hvalue, rfl⟩
  · refine ⟨_, lexUnsigned_name hname.capitals, ?_⟩
    rw [← foldName_capitals hname]
    simp [Token.ofTag]
  · have hkind : IsAscii name := isAscii_of_kind .user hfold
    have hcapitals : capitals (name ++ ':' :: value) = capitals name ++ ':' :: capitals value := by
      rw [capitals, List.map_append, List.map_cons, show upperChar ':' = ':' from rfl,
        capitals, capitals]
    have hfold' : foldName (String.ofList (capitals name)) = "user" := by
      rw [(foldName_capitals hname).mpr hkind.unshared, hfold]
    refine ⟨_, hcapitals ▸ lexUnsigned_user hname.capitals hfold' hvalue.capitals, ?_⟩
    have hvalues : Unshared (name ++ ':' :: value) ↔ Unshared value := by
      have hcolon : ':' ∉ variantLetters := by decide
      have hplain : Unshared name := hkind.unshared
      simp only [Unshared, List.forall_mem_append, List.forall_mem_cons]
      exact ⟨fun h => h.2.2, fun h => ⟨hplain, hcolon, h⟩⟩
    rw [hvalues, ← foldName_capitals hvalue]
    simp [Token.ofUser]

theorem wordToken_capitals (h : wordToken w = .ok t) :
    ∃ t', wordToken (capitals w) = .ok t' ∧ (t' = t ↔ Unshared w) := by
  by_cases hascii : IsAscii w
  · exact ⟨t, wordToken_capitals_of_isAscii h hascii, iff_of_true rfl hascii.unshared⟩
  cases (wordToken_eq_ok.mp h).1 with
  | positive hsign hatom =>
    obtain ⟨t', hread, hiff⟩ := hatom.lexUnsigned_capitals hascii (capitals w)
    have hhead : (capitals w).head? ≠ some '-' := by
      rw [capitals, List.head?_map]
      intro hminus
      obtain ⟨c, hc, hup⟩ := Option.map_eq_some_iff.mp hminus
      rw [(upperChar_eq_iff (by decide) (by decide)).mp hup] at hc
      exact hsign hc
    refine ⟨t', ?_, hiff⟩
    simp only [wordToken, lexToken_positive hhead, hread]
  | @negative v _ hatom =>
    have hascii' : ¬ IsAscii v := fun hv => hascii fun c hc => by
      rcases List.mem_cons.mp hc with rfl | hc
      · decide
      · exact hv c hc
    obtain ⟨t', hread, hiff⟩ := hatom.lexUnsigned_capitals hascii' ('-' :: capitals v)
    have hhead : (capitals v).head?.any isTagChar = true := by
      cases v with
      | nil => exact hatom.head
      | cons c v => exact isTagChar_upperChar hatom.head
    have hcapitals : capitals ('-' :: v) = '-' :: capitals v := rfl
    have hvalues : Unshared ('-' :: v) ↔ Unshared v := by
      have hminus : '-' ∉ variantLetters := by decide
      simp only [Unshared, List.forall_mem_cons]
      exact and_iff_right hminus
    refine ⟨t', ?_, hiff.trans hvalues.symm⟩
    simp only [hcapitals, wordToken, lexToken_negative hhead, hread]

theorem wordToken_of_gives (h : Gives w t) : wordToken w = .ok t := by
  have hlex := h.2
  rw [lex_word h.1.isWord] at hlex
  cases ht : wordToken w with
  | error e => simp [ht] at hlex
  | ok t' => simpa [ht] using hlex

theorem IsWord.capitals (h : IsWord w) : IsWord (capitals w) := by
  refine ⟨by simpa [Blacklist.capitals] using h.nonempty, fun c hc => ?_⟩
  obtain ⟨a, ha, rfl⟩ := List.mem_map.mp hc
  rw [isBlank_upperChar, h.unbroken a ha]

theorem Gives.capitals (h : Gives w t) : ∃ t', Gives (capitals w) t' ∧ (t' = t ↔ Unshared w) := by
  obtain ⟨t', hread, hiff⟩ := wordToken_capitals (wordToken_of_gives h)
  exact ⟨t', gives_of_wordToken (IsWord.capitals h.1.isWord) hread, hiff⟩

/-! ### Texts -/

theorem exists_forall₂_map {α β : Type} {R : α → β → Prop} {f : α → α} {P : α → Prop}
    (h : ∀ a b, R a b → ∃ b', R (f a) b' ∧ (b' = b ↔ P a)) {as : List α} {bs : List β}
    (hall : List.Forall₂ R as bs) :
    ∃ bs', List.Forall₂ R (as.map f) bs' ∧ (bs' = bs ↔ ∀ a ∈ as, P a) := by
  induction hall with
  | nil => exact ⟨[], .nil, by simp⟩
  | cons hab _ ih =>
    obtain ⟨b', hb', hiff⟩ := h _ _ hab
    obtain ⟨bs', hbs', hiffs⟩ := ih
    refine ⟨b' :: bs', .cons hb' hbs', ?_⟩
    rw [List.cons_eq_cons, hiff, hiffs, List.forall_mem_cons]

/-- A blacklist whose characters have one character each for their upper case is a blacklist
in capitals too. It is the same one exactly if no letter of it shares its capital with
another small letter. -/
theorem lex_upper {s : String} {lines : List Line} (h : lex s = .ok lines)
    (hsingle : ∀ c ∈ s.toList, (upperChars c).length = 1) :
    ∃ lines', lex (upper s) = .ok lines' ∧
      (lines' = lines ↔ ∀ c ∈ s.toList, c ∉ variantLetters) := by
  have hlines (ws : List (List Char)) (l : Line) (hl : List.Forall₂ Gives ws l) :
      ∃ l', List.Forall₂ Gives (ws.map capitals) l' ∧ (l' = l ↔ ∀ w ∈ ws, Unshared w) :=
    exists_forall₂_map (fun _ _ => Gives.capitals) hl
  obtain ⟨lines', hfull, hiff⟩ := exists_forall₂_map hlines (gives_fullLines h)
  have hupper : (upper s).toList = capitals s.toList := toList_upper hsingle
  have hfullLines : fullLines (capitals s.toList) = (fullLines s.toList).map (List.map capitals) :=
    fullLines_map isBlank_upperChar (fun _ => upperChar_eq_iff (by decide) (by decide)) _
  have hgood : ∀ w ∈ wordsOf (upper s).toList, Reads w := by
    intro w hw
    rw [hupper, capitals, wordsOf_map isBlank_upperChar] at hw
    obtain ⟨v, hv, rfl⟩ := List.mem_map.mp hw
    obtain ⟨t, ht⟩ := reads_iff.mp (lex_ok_iff_reads.mp ⟨lines, h⟩ v hv)
    obtain ⟨t', ht', -⟩ := wordToken_capitals ht
    exact reads_iff.mpr ⟨t', ht'⟩
  refine ⟨lines', lex_eq_of_gives hgood (by rwa [hupper, hfullLines]), hiff.trans ?_⟩
  -- every letter of the text stands in one of its words
  constructor
  · intro hall c hc hvariant
    obtain ⟨w, hw, hcw⟩ := exists_mem_wordsOf.mpr ⟨hc, isBlank_of_variant hvariant⟩
    rw [← flatten_fullLines, List.mem_flatten] at hw
    obtain ⟨ws, hws, hw⟩ := hw
    exact hall ws hws w hw c hcw hvariant
  · intro hall ws hws w hw c hcw
    have hword : w ∈ wordsOf s.toList := by
      rw [← flatten_fullLines]
      exact List.mem_flatten_of_mem hws hw
    exact hall c (exists_mem_wordsOf.mp ⟨w, hword, hcw⟩).1

/-- The final sigma has the capital of the other sigma, which folding gives back. -/
theorem lex_upper_final_sigma :
    ¬ ∀ (s : String) (lines : List Line), lex s = .ok lines →
      (∀ c ∈ s.toList, (upperChars c).length = 1) → lex (upper s) = .ok lines := by
  intro h
  have hsmall : lex "ς" = .ok [[.ofTag "ς" false]] := by decide +kernel
  have hcapital : lex (upper "ς") = .ok [[.ofTag "σ" false]] := by decide +kernel
  have hsingle : ("ς".toList.all fun c => (upperChars c).length == 1) = true := by decide
  have hsame := h "ς" _ hsmall fun c hc => beq_iff_eq.mp (List.all_eq_true.mp hsingle c hc)
  rw [hcapital] at hsame
  exact absurd hsame (by decide)

theorem lex_upper_accents : lex "pokémon\n-rating:s user:Ölaf" =
      .ok [[.ofTag "pokémon" false], [.ofRating "s" true, .ofUser "ölaf" false]] ∧
    lex (upper "pokémon\n-rating:s user:Ölaf") =
      .ok [[.ofTag "pokémon" false], [.ofRating "s" true, .ofUser "ölaf" false]] := by
  have hlex : lex "pokémon\n-rating:s user:Ölaf" =
      .ok [[.ofTag "pokémon" false], [.ofRating "s" true, .ofUser "ölaf" false]] := by
        decide +kernel
  have hsingle : ("pokémon\n-rating:s user:Ölaf".toList.all fun c =>
      (upperChars c).length == 1 && !variantLetters.contains c) = true := by decide +kernel
  have hchars (c : Char) (hc : c ∈ "pokémon\n-rating:s user:Ölaf".toList) :
      (upperChars c).length = 1 ∧ c ∉ variantLetters := by
    simpa using List.all_eq_true.mp hsingle c hc
  obtain ⟨lines', hupper, hsame⟩ := lex_upper hlex fun c hc => (hchars c hc).1
  exact ⟨hlex, hupper.trans (congrArg Except.ok (hsame.mpr fun c hc => (hchars c hc).2))⟩

end Booru.Blacklist
