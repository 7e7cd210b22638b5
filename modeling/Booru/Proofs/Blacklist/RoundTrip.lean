import Booru.Blacklist.Basic
import Booru.Proofs.Blacklist.WordByWord

/-! Written form and reading of blacklists are inverse to each other. The blacklists that are read
back as they were written are those that some text reads as: the canonical ones. -/

namespace Booru.Blacklist

open Text

inductive Token.Canonical : Token → Prop
  | plain {payload : String} {negated : Bool} : IsFolded payload →
      (negated = false → payload.toList.head? ≠ some '-') →
      Canonical { kind := .plain, payload, negated }
  | rating {payload : String} {negated : Bool} : (∀ c ∈ payload.toList, c.isLower = true) →
      Canonical { kind := .rating, payload, negated, rating := some (.classify payload) }
  | id {n : Int} {negated : Bool} : 0 ≤ n → n < 0x8000000000000000 →
      Canonical { kind := .id, payload := toString n, negated, value := some n }
  | user {payload : String} {negated : Bool} : IsFolded payload →
      Canonical { kind := .user, payload, negated }
  | score {comparator : String} {n : Int} {negated : Bool} : comparator ∈ comparators →
      -0x8000000000000000 ≤ n → n < 0x8000000000000000 →
      Canonical
        { kind := .score, payload := comparator ++ toString n, negated, value := some n,
          comparator := some comparator }

def Canonical (lines : List Line) : Prop := ∀ l ∈ lines, l ≠ [] ∧ ∀ t ∈ l, t.Canonical

variable {t : Token} {w name : List Char} {negated : Bool}

/-! ### What is read is canonical -/

theorem IsName.isFolded (h : IsName name) : IsFolded (foldName (String.ofList name)) := by
  refine ⟨⟨?_, ?_⟩, foldName_foldName _⟩
  · rw [toList_foldName, String.toList_ofList]
    exact fun hnil => h.nonempty (List.map_eq_nil_iff.mp hnil)
  · intro c hc
    rw [toList_foldName, String.toList_ofList] at hc
    obtain ⟨a, ha, rfl⟩ := List.mem_map.mp hc
    exact isTagChar_foldChar (h.tags a ha)

theorem head_foldName (h : name.head? ≠ some '-') :
    (foldName (String.ofList name)).toList.head? ≠ some '-' := by
  rw [toList_foldName, String.toList_ofList, List.head?_map]
  intro hhead
  obtain ⟨c, hc, hfold⟩ := Option.map_eq_some_iff.mp hhead
  rw [foldChar_eq_minus hfold] at hc
  exact h hc

theorem Atom.canonical (h : Atom negated w t) (hsign : negated = false → w.head? ≠ some '-') :
    t.Canonical := by
  cases h with
  | tag hname => exact .plain hname.isFolded fun hpos => head_foldName (hsign hpos)
  | @rating name value hname hfold hvalue =>
    refine .rating fun c hc => ?_
    rw [toList_lower (by simpa using hvalue), String.toList_ofList] at hc
    obtain ⟨a, ha, rfl⟩ := List.mem_map.mp hc
    exact isLower_toLower (hvalue a ha)
  | id hname hfold hdigits hle => exact .id (by omega) (by omega)
  | user hname hfold hvalue => exact .user hvalue.isFolded
  | score hname hfold hmark hdigits hlow hhigh =>
    exact .score (by simpa using hmark.mem) hlow hhigh

theorem Spells.canonical (h : Spells w t) : t.Canonical := by
  cases h with
  | positive hsign hatom => exact hatom.canonical fun _ => hsign
  | negative hatom => exact hatom.canonical fun h => by simp at h

/-! ### What is canonical is read back -/

theorem toList_toString (n : Int) :
    (toString n).toList = signMark (decide (n < 0)) ++ Nat.toDigits 10 n.natAbs := by
  rw [Text.toList_toString, signMark]
  by_cases hneg : n < 0 <;> simp [hneg]

theorem isNumeral_toDigits (n : Nat) : IsNumeral (Nat.toDigits 10 n) :=
  ⟨Nat.toDigits_ne_nil, fun _ hc => Nat.isDigit_of_mem_toDigits (by decide) (by decide) hc⟩

theorem signedValue_toDigits (n : Int) :
    signedValue (decide (n < 0)) (Nat.toDigits 10 n.natAbs) = n := by
  simp only [signedValue, Nat.ofDigitChars_ten_toDigits]
  by_cases hneg : n < 0
  · rw [if_pos (by simpa using hneg)]
    omega
  · rw [if_neg (by simpa using hneg)]
    omega

theorem length_toDigits_le {n : Nat} (h : n ≤ 0x8000000000000000) :
    (Nat.toDigits 10 n).length ≤ maxDigits := by
  have hshort : (Nat.toDigits 10 n).length ≤ 19 :=
    (Nat.length_toDigits_le_iff (by decide) (by decide)).mpr (by omega)
  exact Nat.le_trans hshort (by decide)

theorem toList_special (kind : TokenKind) (value : String) :
    (kind.name ++ ":" ++ value).toList = kind.name.toList ++ ':' :: value.toList := by
  simp

variable {start : List Char}

theorem Token.Canonical.lexUnsigned_body (h : t.Canonical) :
    lexUnsigned t.negated start t.body.toList = .ok (t, []) := by
  cases h with
  | @plain payload negated hpayload =>
    have hread := @lexUnsigned_name negated start payload.toList hpayload.isName
    rwa [String.ofList_toList, hpayload.fold] at hread
  | @rating payload negated hpayload =>
    have hletters : ∀ c ∈ payload.toList, c.isAlpha = true :=
      fun c hc => isAlpha_of_isLower (hpayload c hc)
    have hread := @lexUnsigned_rating negated start _ _ (isFolded_kind .rating).isName
      (fold_kind .rating) hletters
    rw [String.ofList_toList, Token.ofRating, lower_of_isLower hpayload] at hread
    rw [Token.body, toList_special]
    exact hread
  | @id n negated hlow hhigh =>
    -- no post's number comes near the number of digits that are still read
    have hdigits : (toString n).toList = Nat.toDigits 10 n.natAbs := by
      rw [toList_toString]
      simp [signMark, hlow]
    have hvalue : (n.natAbs : Int) = n := by omega
    have hread := @lexUnsigned_id negated start _ _ (isFolded_kind .id).isName (fold_kind .id)
      (isNumeral_toDigits n.natAbs) (length_toDigits_le (by omega))
      (by rw [Nat.ofDigitChars_ten_toDigits]; omega)
    rw [Nat.ofDigitChars_ten_toDigits, hvalue] at hread
    rw [Token.body, toList_special, hdigits]
    exact hread
  | @user payload negated hpayload =>
    have hread := @lexUnsigned_user negated start _ _ (isFolded_kind .user).isName (fold_kind .user)
      hpayload.isName
    rw [String.ofList_toList, hpayload.fold] at hread
    rw [Token.body, toList_special]
    exact hread
  | @score comparator n negated hcomparator hlow hhigh =>
    have hmark : Comparator comparator.toList comparator := by
      have := @Comparator.written comparator.toList (by simpa using hcomparator)
      rwa [String.ofList_toList] at this
    have hvalue := signedValue_toDigits n
    have hread := @lexUnsigned_score negated (decide (n < 0)) start _ _ _ _
      (isFolded_kind .score).isName
      (fold_kind .score) hmark (isNumeral_toDigits n.natAbs) (length_toDigits_le (by omega))
      (by rw [hvalue]; exact fitsWord_iff.mpr ⟨hlow, hhigh⟩)
    rw [hvalue, ← toList_toString, ← String.toList_append, ← toList_special,
      ← String.append_assoc] at hread
    exact hread

theorem Token.Canonical.head_body (h : t.Canonical) (hpos : t.negated = false) :
    t.body.toList.head? ≠ some '-' := by
  cases h with
  | plain hpayload hsign => exact hsign hpos
  | rating hpayload => simp [Token.body, TokenKind.name]
  | id hlow hhigh => simp [Token.body, TokenKind.name]
  | user hpayload => simp [Token.body, TokenKind.name]
  | score hcomparator hlow hhigh => simp [Token.body]

theorem Token.Canonical.wordToken_render (h : t.Canonical) : wordToken t.render.toList = .ok t := by
  have hread : lexToken t.render.toList = .ok (t, []) := by
    cases hnegated : t.negated with
    | true =>
      have hbody : lexUnsigned t.negated ('-' :: t.body.toList) t.body.toList =
          _ := h.lexUnsigned_body
      rw [hnegated] at hbody
      have hrender : t.render.toList = '-' :: t.body.toList := by simp [Token.render, hnegated]
      rw [hrender, lexToken_negative (atom_of_lexUnsigned hbody).head, hbody]
    | false =>
      have hbody : lexUnsigned t.negated t.body.toList t.body.toList = _ := h.lexUnsigned_body
      rw [hnegated] at hbody
      have hrender : t.render.toList = t.body.toList := by simp [Token.render, hnegated]
      rw [hrender, lexToken_positive (h.head_body hnegated), hbody]
  simp only [wordToken, hread]

theorem Token.Canonical.isWord_render (h : t.Canonical) : IsWord t.render.toList :=
  (wordToken_eq_ok.mp h.wordToken_render).1.isWord

theorem toList_render (lines : List Line) : (Blacklist.render ⟨lines⟩).toList =
    ['\n'].intercalate ((lines.map fun l => l.map fun t => t.render.toList).map
      [' '].intercalate) := by
  simp only [Blacklist.render, String.toList_intercalate, List.map_map]
  congr 1
  refine List.map_congr_left fun l hl => ?_
  simp [Line.render, String.toList_intercalate, Function.comp_def]

theorem Gives.unique {t' : Token} (h : Gives w t) (h' : Gives w t') : t = t' := by
  have heq := h.2.symm.trans h'.2
  simpa using heq

variable {lines : List Line}

theorem wordLines_render (h : Canonical lines) :
    (wordLines (Blacklist.render ⟨lines⟩).toList).filter (!·.isEmpty) =
      lines.map fun l => l.map fun t => t.render.toList := by
  rw [toList_render]
  refine wordLines_intercalate _ fun ws hws => ?_
  obtain ⟨l, hl, rfl⟩ := List.mem_map.mp hws
  obtain ⟨hne, hterms⟩ := h l hl
  refine ⟨by simpa using hne, fun v hv => ?_⟩
  obtain ⟨t, ht, rfl⟩ := List.mem_map.mp hv
  exact (hterms t ht).isWord_render

theorem trim_render (h : Canonical lines) :
    trim (Blacklist.render ⟨lines⟩).toList = (Blacklist.render ⟨lines⟩).toList := by
  by_cases hne : lines = []
  · subst hne
    rfl
  rw [toList_render]
  refine (trimmed_intercalate _ (by simpa using hne) fun cs hcs => ?_).trim_eq
  simp only [List.map_map, List.mem_map] at hcs
  obtain ⟨l, hl, rfl⟩ := hcs
  obtain ⟨hfull, hterms⟩ := h l hl
  refine trimmed_intercalate _ (by simpa using hfull) fun v hv => ?_
  obtain ⟨t, ht, rfl⟩ := List.mem_map.mp hv
  exact (hterms t ht).isWord_render.trimmed

theorem reads_render (h : Canonical lines) :
    ∀ v ∈ wordsOf (Blacklist.render ⟨lines⟩).toList, Reads v := by
  intro v hv
  rw [← flatten_wordLines] at hv
  obtain ⟨ws, hws, hmem⟩ := List.mem_flatten.mp hv
  have hfull : ws ∈ (wordLines (Blacklist.render ⟨lines⟩).toList).filter (!·.isEmpty) :=
    List.mem_filter.mpr ⟨hws, by simpa using List.ne_nil_of_mem hmem⟩
  rw [wordLines_render h] at hfull
  obtain ⟨l, hl, rfl⟩ := List.mem_map.mp hfull
  obtain ⟨t, ht, rfl⟩ := List.mem_map.mp hmem
  exact reads_iff.mpr ⟨t, ((h l hl).2 t ht).wordToken_render⟩

theorem Token.Canonical.gives (h : t.Canonical) : Gives t.render.toList t :=
  gives_of_wordToken h.isWord_render h.wordToken_render

theorem gives_render (h : Canonical lines) :
    List.Forall₂ (List.Forall₂ Gives)
      (lines.map fun l => l.map fun t => t.render.toList) lines := by
  refine List.forall₂_map_left_iff.mpr (List.forall₂_same.mpr fun l hl => ?_)
  exact List.forall₂_map_left_iff.mpr (List.forall₂_same.mpr fun t ht => ((h l hl).2 t ht).gives)

theorem gives_rightUnique : Relator.RightUnique Gives := fun _ _ _ h h' => h.unique h'

theorem lex_render (h : Canonical lines) : lex (Blacklist.render ⟨lines⟩) = .ok lines := by
  -- what is read is what the words give, and each gives one term only
  have hgood := reads_render h
  rw [← trim_render h] at hgood
  obtain ⟨lines', hlex, htokens⟩ := lex_good hgood
  rw [trim_render h, wordLines_render h] at htokens
  rw [hlex, gives_rightUnique.forall₂.forall₂ htokens (gives_render h)]

theorem exists_of_forall₂ {α β : Type} {R : α → β → Prop} {xs : List α} {ys : List β}
    (h : List.Forall₂ R xs ys) : ∀ y ∈ ys, ∃ x ∈ xs, R x y := by
  induction h with
  | nil => simp
  | cons hhead htail ih =>
    intro y hy
    rcases List.mem_cons.mp hy with rfl | hmem
    · exact ⟨_, by simp, hhead⟩
    · obtain ⟨x, hx, hR⟩ := ih y hmem
      exact ⟨x, List.mem_cons_of_mem _ hx, hR⟩

theorem canonical_of_lex {source : String} (h : lex source = .ok lines) : Canonical lines := by
  obtain ⟨lines', hlex, htokens⟩ := lex_good (lex_eq_ok_iff.mp ⟨lines, h⟩)
  rw [h, Except.ok.injEq] at hlex
  subst hlex
  intro l hl
  obtain ⟨ws, hws, hline⟩ := exists_of_forall₂ htokens l hl
  have hfull : ws ≠ [] := by simpa using (List.mem_filter.mp hws).2
  refine ⟨fun hnil => hfull ?_, fun t ht => ?_⟩
  · rw [hnil] at hline
    exact List.forall₂_nil_right_iff.mp hline
  · obtain ⟨w, -, hgives⟩ := exists_of_forall₂ hline t ht
    exact hgives.1.canonical

/-- The canonical blacklists are the ones that texts read as, and each is read back from its written
form. So no two of them are written alike, and writing down what was read and reading it again
changes nothing. -/
theorem lex_render_inverse :
    (∀ lines, Canonical lines → lex (Blacklist.render ⟨lines⟩) = .ok lines) ∧
    (∀ source lines, lex source = .ok lines → Canonical lines) ∧
    (∀ lines lines', Canonical lines → Canonical lines' →
      Blacklist.render ⟨lines⟩ = Blacklist.render ⟨lines'⟩ → lines = lines') ∧
    ∀ source lines, lex source = .ok lines → lex (Blacklist.render ⟨lines⟩) = .ok lines := by
  refine ⟨fun _ => lex_render, fun _ _ => canonical_of_lex, fun lines lines' h h' hrender => ?_,
    fun _ _ h => lex_render (canonical_of_lex h)⟩
  have hlex := lex_render h
  rw [hrender, lex_render h', Except.ok.injEq] at hlex
  exact hlex.symm

end Booru.Blacklist
