import Booru.Proofs.Decimal.Pointed
import Booru.Proofs.Run
import Booru.Proofs.Text.Casing
import Booru.Proofs.Text.Trimming
import Booru.Yaml.Scalar

/-! Plain texts and what they are taken for. A text that looks like a truth value or a decimal
number is one. What is selected and still cannot be built is an integer that cannot be read, a date
that does not exist, or a number to the base of sixty that has too many parts. -/

namespace Booru.Yaml

open Text

variable {cs xs ys : List Char} {s : String} {o : Obstacle}

/-! ### What is left of a text -/

def spelled (cs : List Char) : List Char := (cs.filter (· != '_')).map Char.toLower

theorem spelled_append (xs ys : List Char) : spelled (xs ++ ys) = spelled xs ++ spelled ys := by
  simp [spelled]

theorem spelled_digit {c : Char} (hc : c.isDigit = true) (cs : List Char) :
    spelled (c :: cs) = c :: spelled cs := by
  have hmark : c ≠ '_' := by
    rintro rfl
    cases hc
  have hlow : c.toLower = c := by
    have := toNat_of_isDigit hc
    exact forall_ascii (motive := fun c => c.isDigit = true → c.toLower = c)
      (by decide) (by omega) hc
  simp [spelled, hmark, hlow]

theorem spelled_point (cs : List Char) : spelled ('.' :: cs) = '.' :: spelled cs := rfl

theorem spelled_colon (cs : List Char) : spelled (':' :: cs) = ':' :: spelled cs := rfl

theorem mem_spelled {c : Char} (hc : c.isDigit = true) (h : c ∈ cs) : c ∈ spelled cs := by
  obtain ⟨front, back, rfl⟩ := List.append_of_mem h
  rw [spelled_append, spelled_digit hc]
  exact List.mem_append_right _ List.mem_cons_self

theorem colon_notMem_digits (h : ∀ c ∈ cs, c.isDigit = true) : ':' ∉ cs :=
  fun hmem => absurd (h _ hmem) (by decide)

theorem isDigit_spelled (h : cs.all Tag.isDigitOrMark = true) : ∀ c ∈ spelled cs,
    c.isDigit = true := by
  intro c hc
  obtain ⟨d, hd, rfl⟩ := List.mem_map.mp hc
  obtain ⟨hmem, hmark⟩ := List.mem_filter.mp hd
  have hdigit : d.isDigit = true := by
    have := List.all_eq_true.mp h d hmem
    simp only [Tag.isDigitOrMark, Bool.or_eq_true, beq_iff_eq] at this
    exact this.resolve_right (by simpa using hmark)
  have := toNat_of_isDigit hdigit
  exact forall_ascii (motive := fun c => c.isDigit = true → c.toLower.isDigit = true)
    (by decide) (by omega) hdigit

theorem spelled_digits (h : ∀ c ∈ cs, c.isDigit = true) : spelled cs = cs := by
  induction cs with
  | nil => rfl
  | cons c cs ih =>
    obtain ⟨hc, hcs⟩ := List.forall_mem_cons.mp h
    rw [spelled_digit hc, ih hcs]

theorem isPower_spelled (h : Tag.isExponent cs = true) : Decimal.IsPower (spelled cs) := by
  unfold Tag.isExponent at h
  split at h
  · exact .inl rfl
  · rename_i e sign rest
    simp only [Bool.and_eq_true, Bool.or_eq_true, beq_iff_eq, Bool.not_eq_true',
      List.isEmpty_eq_false_iff, List.all_eq_true] at h
    obtain ⟨⟨⟨he, hsign⟩, hne⟩, hdigits⟩ := h
    refine .inr ⟨sign, rest, ?_, hsign, hne, hdigits⟩
    have hrest := spelled_digits hdigits
    rcases he with rfl | rfl <;> rcases hsign with rfl | rfl <;> exact congrArg (_ :: _ :: ·) hrest
  · cases h

def Numbers (cs : List Char) : Prop :=
  ∀ part ∈ splitWhen (· == ':') cs, (Decimal.read? (String.ofList part)).isSome = true

theorem sexagesimal_parts (h : Tag.isSexagesimal cs = true) : ∃ front last,
    splitWhen (· == ':') cs = [] :: (front ++ [last]) ∧
      ∀ part ∈ front ++ [last], part ≠ [] ∧ ∀ c ∈ part, c.isDigit = true := by
  unfold Tag.isSexagesimal at h
  split at h
  · rename_i part parts hsplit
    obtain ⟨front, last, hparts⟩ :=
      (List.eq_nil_or_concat' (part :: parts)).resolve_left (List.cons_ne_nil _ _)
    refine ⟨front, last, hparts ▸ hsplit, fun q hq => ?_⟩
    have hdigits := List.all_eq_true.mp h q (hparts ▸ hq)
    split at hdigits
    · exact ⟨List.cons_ne_nil _ _, by simpa using hdigits⟩
    · rename_i d e
      simp only [Bool.and_eq_true, decide_eq_true_eq] at hdigits
      obtain ⟨⟨hlow, hhigh⟩, he⟩ := hdigits
      have hd : d.isDigit = true := by
        have hfive : d ≤ '9' := Char.le_trans hhigh (show '5' ≤ '9' by decide)
        exact (Bool.and_eq_true _ _).mpr ⟨decide_eq_true hlow, decide_eq_true hfive⟩
      exact ⟨List.cons_ne_nil _ _, by simp [hd, he]⟩
    · cases hdigits
  · cases h

def numberWords : List String := Tag.infinityWords ++ Tag.noNumberWords

theorem numberWords_pointed :
    (numberWords.all fun w => w.toList == '.' :: w.toList.tail) = true := by decide

theorem numberWords_ascii : (numberWords.all fun w => w.toList.all (·.toNat < 128)) = true := by
  decide

theorem numberWords_spelled : (numberWords.all fun w =>
    spelled w.toList == ".inf".toList || spelled w.toList == ".nan".toList) = true := by decide

theorem noNumberWords_unsigned :
    (Tag.noNumberWords.all fun w => Tag.withoutSign w.toList == w.toList) = true := by decide

/-- Decimal numbers without their sign, as they are taken for one. -/
inductive FloatShape : List Char → Prop
  | point {whole fraction power : List Char} (hwhole : whole.all Tag.isDigitOrMark = true)
      (hfraction : fraction.all Tag.isDigitOrMark = true) (hpower : Tag.isExponent power = true)
      (hstart : ∀ c ∈ whole.head?, c.isDigit = true) (hdigit : ∃ c ∈ whole ++ fraction,
        c.isDigit = true) :
      FloatShape (whole ++ '.' :: (fraction ++ power))
  | sexagesimal {whole parts fraction : List Char} {d : Char} (hd : d.isDigit = true)
      (hwhole : whole.all Tag.isDigitOrMark = true) (hparts : Tag.isSexagesimal parts = true)
      (hfraction : fraction.all Tag.isDigitOrMark = true) :
      FloatShape (d :: whole ++ (parts ++ '.' :: fraction))
  | word {w : String} (h : w ∈ numberWords) : FloatShape w.toList

theorem all_takeWhile (p : Char → Bool) (cs : List Char) : (cs.takeWhile p).all p = true :=
  List.all_eq_true.mpr fun _ hc => List.mem_takeWhile_imp hc

theorem floatShape_of_isPositional (h : Tag.isPositional cs = true) : FloatShape cs := by
  unfold Tag.isPositional at h
  split at h
  · rename_i d rest
    simp only [Bool.and_eq_true] at h
    have hmark : Tag.isDigitOrMark d = true := by simp [Tag.isDigitOrMark, h.1]
    have hpoint := @FloatShape.point [] (d :: rest.takeWhile Tag.isDigitOrMark) _ rfl
      (by rw [List.all_cons, hmark, all_takeWhile]; rfl) h.2 (by simp) ⟨d, by simp, h.1⟩
    rwa [List.cons_append, List.takeWhile_append_dropWhile] at hpoint
  · cases h

theorem floatShape_of_whole {d : Char} {whole behind : List Char} (hd : d.isDigit = true)
    (hwhole : whole.all Tag.isDigitOrMark = true)
    (h : (∃ rest, behind = '.' :: rest ∧ Tag.isExponent (rest.dropWhile Tag.isDigitOrMark) = true) ∨
      ∃ parts fraction, behind = parts ++ '.' :: fraction ∧ Tag.isSexagesimal parts = true ∧
        fraction.all Tag.isDigitOrMark = true) : FloatShape (d :: whole ++ behind) := by
  obtain ⟨rest, rfl, hpower⟩ | ⟨parts, fraction, rfl, hparts, hfraction⟩ := h
  · have hmark : Tag.isDigitOrMark d = true := by simp [Tag.isDigitOrMark, hd]
    have hpoint := @FloatShape.point (d :: whole) (rest.takeWhile Tag.isDigitOrMark) _
      (by rw [List.all_cons, hmark, hwhole]; rfl) (all_takeWhile _ _) hpower (by simpa using hd)
      ⟨d, List.mem_cons_self, hd⟩
    rwa [List.takeWhile_append_dropWhile] at hpoint
  · exact .sexagesimal hd hwhole hparts hfraction

theorem floatShape_of_isFloat (h : Tag.isFloat cs = true) : FloatShape (Tag.withoutSign cs) := by
  simp only [Tag.isFloat, Bool.or_eq_true, Bool.and_eq_true] at h
  obtain ((⟨hwhole, hrest⟩ | hpositional) | hinf) | hnan := h
  · generalize Tag.withoutSign cs = body at hwhole hrest ⊢
    obtain ⟨d, rest, rfl, hd⟩ : ∃ d rest, body = d :: rest ∧ d.isDigit = true := by
      cases body with
      | nil => cases hwhole
      | cons d rest => exact ⟨d, rest, rfl, by simpa using hwhole⟩
    have hmark : Tag.isDigitOrMark d = true := by simp [Tag.isDigitOrMark, hd]
    rw [List.dropWhile_cons_of_pos hmark] at hrest
    have hshape := @floatShape_of_whole d _ (rest.dropWhile Tag.isDigitOrMark) hd
      (all_takeWhile _ rest) ?_
    · rwa [List.cons_append, List.takeWhile_append_dropWhile] at hshape
    refine hrest.imp (fun hfraction => ?_) fun ⟨hparts, hfraction⟩ => ?_
    · split at hfraction
      · exact ⟨_, ‹_›, hfraction⟩
      · cases hfraction
    · split at hfraction
      · rename_i fraction hdrop
        exact ⟨_, fraction, by rw [← hdrop, List.takeWhile_append_dropWhile], hparts, hfraction⟩
      · cases hfraction
  · have hshape := floatShape_of_isPositional hpositional
    unfold Tag.isPositional at hpositional
    split at hpositional
    · exact hshape
    · cases hpositional
  · have hword := FloatShape.word
      (List.mem_append_left Tag.noNumberWords (List.contains_iff_mem.mp hinf))
    rwa [String.toList_ofList] at hword
  · have hmem : String.ofList cs ∈ Tag.noNumberWords := List.contains_iff_mem.mp hnan
    have hword := FloatShape.word (List.mem_append_right Tag.infinityWords hmem)
    have hunsigned := eq_of_beq (List.all_eq_true.mp noNumberWords_unsigned _ hmem)
    rw [← hunsigned, String.toList_ofList] at hword
    exact hword

theorem ascii_of_isDigit {c : Char} (h : c.isDigit = true) : c.toNat < 128 := by
  have := toNat_of_isDigit h
  omega

theorem ascii_of_marks (h : cs.all Tag.isDigitOrMark = true) : ∀ c ∈ cs, c.toNat < 128 := by
  intro c hc
  have hmark := List.all_eq_true.mp h c hc
  simp only [Tag.isDigitOrMark, Bool.or_eq_true, beq_iff_eq] at hmark
  rcases hmark with hdigit | rfl
  · exact ascii_of_isDigit hdigit
  · decide

theorem ascii_of_exponent (h : Tag.isExponent cs = true) : ∀ c ∈ cs, c.toNat < 128 := by
  unfold Tag.isExponent at h
  split at h
  · exact List.forall_mem_nil _
  · simp only [Bool.and_eq_true, Bool.or_eq_true, beq_iff_eq, List.all_eq_true] at h
    obtain ⟨⟨⟨he, hsign⟩, -⟩, hdigits⟩ := h
    refine List.forall_mem_cons.mpr
      ⟨?_, List.forall_mem_cons.mpr ⟨?_, fun c hc => ascii_of_isDigit (hdigits c hc)⟩⟩
    · rcases he with rfl | rfl <;> decide
    · rcases hsign with rfl | rfl <;> decide
  · cases h

theorem colon_or_isDigit (h : Tag.isSexagesimal cs = true) : ∀ c ∈ cs, c = ':' ∨
    c.isDigit = true := by
  intro c hc
  obtain ⟨front, last, hsplit, hparts⟩ := sexagesimal_parts h
  refine or_iff_not_imp_left.mpr fun hcolon => ?_
  obtain ⟨w, hw, hcw⟩ := exists_mem_splitWhen hc (p := (· == ':')) (by simpa using hcolon)
  rw [hsplit] at hw
  rcases List.mem_cons.mp hw with rfl | hw
  · cases hcw
  · exact (hparts w hw).2 c hcw

theorem spelled_parts (h : Tag.isSexagesimal cs = true) : spelled cs = cs := by
  have hall := colon_or_isDigit h
  clear h
  induction cs with
  | nil => rfl
  | cons c cs ih =>
    obtain ⟨hc, hcs⟩ := List.forall_mem_cons.mp hall
    rcases hc with rfl | hc
    · rw [spelled_colon, ih hcs]
    · rw [spelled_digit hc, ih hcs]

theorem ascii_of_parts (h : Tag.isSexagesimal cs = true) : ∀ c ∈ cs, c.toNat < 128 := by
  intro c hc
  rcases colon_or_isDigit h c hc with rfl | hdigit
  · decide
  · exact ascii_of_isDigit hdigit

/-! ### Numbers between colons -/

theorem numbers_point {whole fraction power : List Char}
    (hwhole : whole.all Tag.isDigitOrMark = true)
    (hfraction : fraction.all Tag.isDigitOrMark = true) (hpower : Tag.isExponent power = true)
    (hdigit : ∃ c ∈ whole ++ fraction, c.isDigit = true) :
    Numbers (spelled (whole ++ '.' :: (fraction ++ power))) := by
  have hwhole' := isDigit_spelled hwhole
  have hfraction' := isDigit_spelled hfraction
  have hpower' := isPower_spelled hpower
  have hspelled : spelled (whole ++ '.' :: (fraction ++ power)) =
      spelled whole ++ '.' :: (spelled fraction ++ spelled power) := by
    rw [spelled_append, spelled_point, spelled_append]
  have hcolon : ':' ∉ spelled whole ++ '.' :: (spelled fraction ++ spelled power) := by
    simp only [List.mem_append, List.mem_cons, not_or]
    exact ⟨colon_notMem_digits hwhole', by decide, colon_notMem_digits hfraction',
      hpower'.colon_notMem⟩
  rw [hspelled, Numbers, splitWhen_of_notMem hcolon, List.forall_mem_singleton]
  refine Decimal.read?_point hwhole' hfraction' hpower' ?_
  obtain ⟨d, hd, hdigit⟩ := hdigit
  refine (List.mem_append.mp hd).imp (fun hd => ?_) fun hd => ?_
  · exact List.ne_nil_of_mem (mem_spelled hdigit hd)
  · exact List.ne_nil_of_mem (mem_spelled hdigit hd)

theorem numbers_sexagesimal {whole parts fraction : List Char} {d : Char} (hd : d.isDigit = true)
    (hwhole : whole.all Tag.isDigitOrMark = true) (hparts : Tag.isSexagesimal parts = true)
    (hfraction : fraction.all Tag.isDigitOrMark = true) :
    Numbers (spelled (d :: whole ++ (parts ++ '.' :: fraction))) := by
  have hwhole' : ∀ c ∈ d :: spelled whole, c.isDigit = true :=
    List.forall_mem_cons.mpr ⟨hd, isDigit_spelled hwhole⟩
  have hfraction' := isDigit_spelled hfraction
  have hspelled : spelled (d :: whole ++ (parts ++ '.' :: fraction)) =
      d :: spelled whole ++ (parts ++ '.' :: spelled fraction) := by
    rw [spelled_append, spelled_digit hd, spelled_append, spelled_parts hparts, spelled_point]
  obtain ⟨front, last, hsplit, hdigits⟩ := sexagesimal_parts hparts
  obtain ⟨hfront, hlast⟩ := List.forall_mem_append.mp hdigits
  obtain ⟨hne, hlast⟩ := hlast last (List.mem_singleton.mpr rfl)
  have htail : ':' ∉ '.' :: spelled fraction := by
    simp only [List.mem_cons, not_or]
    exact ⟨by decide, colon_notMem_digits hfraction'⟩
  have hcolon : ∀ c ∈ d :: spelled whole, (c == ':') = false := fun c hc => by
    simpa using ne_of_mem_of_not_mem hc (colon_notMem_digits hwhole')
  -- the point joins the fraction to the last part
  have hbehind := splitWhen_append_concat (show splitWhen _ parts = ([] :: front) ++
    [last] from hsplit)
    (splitWhen_of_notMem htail)
  rw [hspelled, Numbers, splitWhen_append _ hcolon hbehind]
  refine List.forall_mem_cons.mpr ⟨?_, List.forall_mem_append.mpr ⟨fun w hw => ?_, ?_⟩⟩
  · rw [List.append_nil]
    exact Decimal.read?_digits (List.cons_ne_nil _ _) hwhole'
  · exact Decimal.read?_digits (hfront w hw).1 (hfront w hw).2
  · refine List.forall_mem_singleton.mpr ?_
    have hlast := Decimal.read?_point hlast hfraction' (.inl rfl) (.inl hne)
    rwa [List.append_nil] at hlast

namespace FloatShape

theorem head (h : FloatShape cs) : ∃ c rest, cs = c :: rest ∧ (c.isDigit = true ∨ c = '.') := by
  cases h with
  | @point whole fraction power _ _ _ hstart _ =>
    cases whole with
    | nil => exact ⟨'.', _, rfl, .inr rfl⟩
    | cons c whole => exact ⟨c, _, rfl, .inl (hstart c rfl)⟩
  | sexagesimal hd _ _ _ => exact ⟨_, _, rfl, .inl hd⟩
  | word h => exact ⟨'.', _, eq_of_beq (List.all_eq_true.mp numberWords_pointed _ h), .inr rfl⟩

theorem ascii (h : FloatShape cs) : ∀ c ∈ cs, c.toNat < 128 := by
  cases h with
  | point hwhole hfraction hpower _ _ =>
    refine List.forall_mem_append.mpr ⟨ascii_of_marks hwhole,
      List.forall_mem_cons.mpr ⟨by decide, ?_⟩⟩
    exact List.forall_mem_append.mpr ⟨ascii_of_marks hfraction, ascii_of_exponent hpower⟩
  | sexagesimal hd hwhole hparts hfraction =>
    refine List.forall_mem_append.mpr
      ⟨List.forall_mem_cons.mpr ⟨ascii_of_isDigit hd, ascii_of_marks hwhole⟩, ?_⟩
    exact List.forall_mem_append.mpr ⟨ascii_of_parts hparts,
      List.forall_mem_cons.mpr ⟨by decide, ascii_of_marks hfraction⟩⟩
  | word h =>
    intro c hc
    exact of_decide_eq_true (List.all_eq_true.mp (List.all_eq_true.mp numberWords_ascii _ h) c hc)

theorem numbers (h : FloatShape cs) :
    spelled cs = ".inf".toList ∨ spelled cs = ".nan".toList ∨ Numbers (spelled cs) := by
  cases h with
  | point hwhole hfraction hpower _ hdigit =>
    exact .inr (.inr (numbers_point hwhole hfraction hpower hdigit))
  | sexagesimal hd hwhole hparts hfraction =>
    exact .inr (.inr (numbers_sexagesimal hd hwhole hparts hfraction))
  | word h =>
    have hword := List.all_eq_true.mp numberWords_spelled _ h
    rw [Bool.or_eq_true, beq_iff_eq, beq_iff_eq] at hword
    exact hword.imp_right .inl

end FloatShape

/-! ### Values of plain texts -/

def IsNumberStart (c : Char) : Prop := c = '+' ∨ c = '-' ∨ c = '.' ∨ c.isDigit = true

theorem signed_of_kept {clean : List Char → List Char}
    (hclean : ∀ c rest, IsNumberStart c → clean (c :: rest) = c :: clean rest)
    (h : ∃ c rest, Tag.withoutSign cs = c :: rest ∧ (c.isDigit = true ∨ c = '.')) :
    ∃ negative, signed (clean cs) = .ok (negative, clean (Tag.withoutSign cs)) := by
  obtain ⟨c, rest, hbody, hc⟩ := h
  unfold Tag.withoutSign at hbody ⊢
  split at hbody
  · exact ⟨false, by rw [hclean '+' _ (.inl rfl)]; rfl⟩
  · exact ⟨true, by rw [hclean '-' _ (.inr (.inl rfl))]; rfl⟩
  · rename_i hplus hminus
    subst hbody
    refine ⟨false, ?_⟩
    rw [hclean c rest (.inr (.inr hc.symm))]
    unfold signed
    split
    · cases ‹_›
    · rename_i heq
      exact absurd (congrArg (· :: rest) (List.cons.inj heq).1) (hminus rest)
    · rename_i heq
      exact absurd (congrArg (· :: rest) (List.cons.inj heq).1) (hplus rest)
    · rfl

theorem spelled_kept (c : Char) (rest : List Char) (h : IsNumberStart c) :
    spelled (c :: rest) = c :: spelled rest := by
  obtain rfl | rfl | rfl | hc := h
  · rfl
  · rfl
  · rfl
  · exact spelled_digit hc rest

theorem filter_kept (c : Char) (rest : List Char) (h : IsNumberStart c) :
    (c :: rest).filter (· != '_') = c :: rest.filter (· != '_') := by
  refine List.filter_cons_of_pos ?_
  obtain rfl | rfl | rfl | hc := h
  · rfl
  · rfl
  · rfl
  · rw [bne_iff_ne]
    rintro rfl
    cases hc

theorem toList_lower_withoutMarks (h : ∀ c ∈ s.toList, c.toNat < 128) :
    (lower (String.ofList (withoutMarks s))).toList = spelled s.toList := by
  rw [toList_lower_ascii, String.toList_ofList]
  · rfl
  · intro c hc
    rw [String.toList_ofList] at hc
    exact h c (List.mem_of_mem_filter hc)

theorem sumOfSixties_error {sum : Float} {power : Nat} {ds : List Float} {f : Fault}
    (h : sumOfSixties sum power ds = .error f) : f = .unbuildable .sixties := by
  induction ds generalizing sum power with
  | nil => cases h
  | cons d ds ih =>
    rw [sumOfSixties] at h
    split at h
    · exact (Except.error.inj h).symm
    · exact ih h

theorem readDecimal_ok (h : (Decimal.read? s).isSome = true) : ∃ x, readDecimal s = .ok x := by
  obtain ⟨x, hx⟩ := Option.isSome_iff_exists.mp h
  exact ⟨x, by rw [readDecimal, hx]⟩

theorem ascii_of_withoutSign (h : ∀ c ∈ Tag.withoutSign cs, c.toNat < 128) :
    ∀ c ∈ cs, c.toNat < 128 := by
  unfold Tag.withoutSign at h
  split at h
  · exact List.forall_mem_cons.mpr ⟨by decide, h⟩
  · exact List.forall_mem_cons.mpr ⟨by decide, h⟩
  · exact h

theorem Numbers.exists_parts (h : Numbers cs) :
    ∃ xs, (colonParts cs).mapM readDecimal = .ok xs := by
  cases hparts : (colonParts cs).mapM readDecimal with
  | ok xs => exact ⟨xs, rfl⟩
  | error f =>
    obtain ⟨part, hpart, hf⟩ := Run.exists_of_mapM_error hparts
    obtain ⟨cs, hcs, rfl⟩ := List.mem_map.mp hpart
    obtain ⟨x, hx⟩ := readDecimal_ok (h cs hcs)
    rw [hx] at hf
    cases hf

theorem Numbers.readDecimal_ok (h : Numbers cs) (hcolon : cs.contains ':' = false) :
    ∃ x, readDecimal (String.ofList cs) = .ok x := by
  have hwhole : ':' ∉ cs := by simpa using hcolon
  rw [Numbers, splitWhen_of_notMem hwhole, List.forall_mem_singleton] at h
  exact Yaml.readDecimal_ok h

theorem readFloat_error (h : Tag.isFloat s.toList = true) {f : Fault}
    (hf : readFloat s = .error f) :
    f = .unbuildable .sixties := by
  have hshape := floatShape_of_isFloat h
  obtain ⟨negative, hsigned⟩ := signed_of_kept spelled_kept hshape.head
  have hlower := toList_lower_withoutMarks (ascii_of_withoutSign hshape.ascii)
  rw [readFloat, hlower, hsigned] at hf
  have hnumbers := hshape.numbers
  generalize spelled (Tag.withoutSign s.toList) = body at hf hnumbers
  obtain rfl | rfl | hnumbers := hnumbers
  · cases hf
  · cases hf
  obtain ⟨xs, hxs⟩ := hnumbers.exists_parts
  simp only [bind, Except.bind, hxs] at hf
  split at hf
  · cases hf
  split at hf
  · cases hf
  split at hf
  · cases hsum : sumOfSixties 0 1 xs.reverse with
    | ok x =>
      rw [hsum] at hf
      cases hf
    | error g =>
      rw [hsum] at hf
      cases hf
      exact sumOfSixties_error hsum
  · rename_i hcolon
    obtain ⟨x, hx⟩ := hnumbers.readDecimal_ok (by simpa using hcolon)
    rw [hx] at hf
    cases hf

theorem truthWords_lower : (Tag.truthWords.all fun w =>
    ["yes", "true", "on"].contains (lower w) || ["no", "false", "off"].contains (lower w)) =
      true := by decide

theorem readBool_ok (h : Tag.isBool s = true) : ∃ b, readBool s = .ok (.bool b) := by
  have hmem : s ∈ Tag.truthWords := List.contains_iff_mem.mp h
  have hword := List.all_eq_true.mp truthWords_lower s hmem
  rw [Bool.or_eq_true] at hword
  simp only [readBool]
  split
  · exact ⟨true, rfl⟩
  · rename_i hyes
    rw [if_pos (hword.resolve_left hyes)]
    exact ⟨false, rfl⟩

theorem readStamp_error (h : Tag.isTimestamp (Tag.withoutLineFeed s.toList) = true) {f : Fault}
    (hf : readStamp s = .error f) : ∃ e, f = .unbuildable (.stamp e) := by
  unfold readStamp at hf
  unfold Tag.isTimestamp at h
  cases hread : Time.Stamp.read? (Tag.withoutLineFeed s.toList) with
  | none =>
    rw [hread] at h
    cases h
  | some t =>
    rw [hread] at hf
    cases hcheck : t.check with
    | ok => simp [hcheck] at hf
    | error e =>
      simp only [hcheck] at hf
      exact ⟨e, (Except.error.inj hf).symm⟩

theorem head_of_isInt (h : Tag.isInt cs = true) :
    ∃ c rest, Tag.withoutSign cs = c :: rest ∧ c.isDigit = true := by
  unfold Tag.isInt at h
  split at h
  · exact ⟨'0', _, ‹_›, rfl⟩
  · exact ⟨'0', _, ‹_›, rfl⟩
  · exact ⟨'0', _, ‹_›, rfl⟩
  · rename_i c rest _ _ _ hbody
    simp only [Bool.and_eq_true] at h
    exact ⟨c, rest, hbody, h.1⟩
  · cases h

theorem readInt_error (h : Tag.isInt s.toList = true) {f : Fault} (hf : readInt s = .error f) :
    ∃ e, f = .unbuildable (.integer e) := by
  obtain ⟨c, rest, hbody, hc⟩ := head_of_isInt h
  obtain ⟨negative, hsigned⟩ := signed_of_kept filter_kept ⟨c, rest, hbody, .inl hc⟩
  rw [hbody, filter_kept c rest (.inr (.inr (.inr hc)))] at hsigned
  rw [readInt, withoutMarks, hsigned] at hf
  cases hread : readMagnitude (c :: rest.filter (· != '_')) with
  | ok n => simp [bind, Except.bind, hread, pure, Except.pure] at hf
  | error e =>
    simp only [bind, Except.bind, hread] at hf
    exact ⟨e, (Except.error.inj hf).symm⟩

/-- What is selected for a plain text and still cannot be built. -/
inductive Obstacle.Implicit : Obstacle → Prop
  | integer (e : IntegerError) : Implicit (.integer e)
  | sixties : Implicit .sixties
  | stamp (e : Time.StampError) : Implicit (.stamp e)

theorem implicit_of_unbuildable (hend : s.toList.getLast? ≠ some '\n')
    (h : readScalar (.ofPlain s) s = .error (.unbuildable o)) : o.Implicit := by
  have hwhole : Tag.withoutLineFeed s.toList = s.toList := if_neg (by simpa using hend)
  have hstamp := @readStamp_error s
  rw [hwhole] at hstamp
  simp only [Tag.ofPlain, hwhole, String.ofList_toList] at h
  split at h
  · rename_i hbool
    obtain ⟨b, hb⟩ := readBool_ok hbool
    rw [readScalar, hb] at h
    cases h
  split at h
  · rename_i hfloat
    rw [readScalar] at h
    cases readFloat_error hfloat h
    exact .sixties
  split at h
  · rename_i hint
    rw [readScalar] at h
    obtain ⟨e, he⟩ := readInt_error hint h
    cases he
    exact .integer e
  split at h
  · cases h
  split at h
  · cases h
  split at h
  · rename_i hlooks
    rw [readScalar] at h
    obtain ⟨e, he⟩ := hstamp hlooks h
    cases he
    exact .stamp e
  split at h
  · cases h
  split at h
  · cases h
  · cases h

end Booru.Yaml
