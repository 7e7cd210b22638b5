import Booru.Proofs.Blacklist.WordByWord

/-! The case of ASCII letters. A text is read as the same text in small letters is, and a text
that is no blacklist goes wrong with it in the same place. So texts that differ in the case of
letters only are read alike. -/

namespace Booru

namespace Text

theorem toLower_of_not_ascii {c : Char} (h : ¬ c.toNat < 128) : c.toLower = c := by
  have hcapital : ¬ (c.val ≥ 'A'.val ∧ c.val ≤ 'Z'.val) := by
    rintro ⟨-, hle⟩
    have : c.toNat ≤ 90 := hle
    omega
  exact dif_neg hcapital

theorem toLower_cases {motive : Char → Char → Prop} (same : ∀ c, motive c c)
    (ascii : ∀ n < 128, motive (Char.ofNat n) (Char.ofNat n).toLower) (c : Char) :
    motive c c.toLower := by
  by_cases h : c.toNat < 128
  · exact forall_ascii (motive := fun c => motive c c.toLower) ascii h
  · rw [toLower_of_not_ascii h]
    exact same c

theorem isDigit_toLower (c : Char) : c.toLower.isDigit = c.isDigit :=
  toLower_cases (motive := fun c low => low.isDigit = c.isDigit) (fun _ => rfl) (by decide) c

theorem isAlpha_toLower (c : Char) : c.toLower.isAlpha = c.isAlpha :=
  toLower_cases (motive := fun c low => low.isAlpha = c.isAlpha) (fun _ => rfl) (by decide) c

theorem isBlank_toLower (c : Char) : isBlank c.toLower = isBlank c :=
  toLower_cases (motive := fun c low => isBlank low = isBlank c) (fun _ => rfl) (by decide) c

theorem toLower_eq_self_or_isAlpha (c : Char) : c.toLower = c ∨ c.isAlpha = true :=
  toLower_cases (motive := fun c low => low = c ∨ c.isAlpha = true)
    (fun _ => .inl rfl) (by decide) c

theorem toLower_of_not_isAlpha {c : Char} (h : c.isAlpha = false) : c.toLower = c :=
  (toLower_eq_self_or_isAlpha c).resolve_right (by simp [h])

theorem toLower_eq_iff {c d : Char} (hd : d.isAlpha = false) : c.toLower = d ↔ c = d := by
  constructor
  · intro h
    rw [← h, isAlpha_toLower] at hd
    rw [← h, toLower_of_not_isAlpha hd]
  · rintro rfl
    exact toLower_of_not_isAlpha hd

end Text

namespace Blacklist

open Text

variable {cs start w : List Char} {negated : Bool} {comparator : String}

def small (cs : List Char) : List Char := cs.map Char.toLower

/-- The same letter of ASCII, in either case, or the same character. -/
def SameLetter (c d : Char) : Prop :=
  c = d ∨ c.isAlpha = true ∧ d.isAlpha = true ∧ c.toLower = d.toLower

def Problem.small : Problem → Problem
  | .unexpectedAfter c => .unexpectedAfter c.toLower
  | .unexpected text => .unexpected (String.ofList (Blacklist.small text.toList))
  | p => p

def Stop.small : Stop → Stop
  | .problem p left => .problem p.small left
  | .integer e => .integer e

def LexFailure.small : LexFailure → LexFailure
  | .malformed e => .malformed ⟨e.problem.small, e.offset, e.line⟩
  | .integer e => .integer e

def smallReading : Except Stop (Token × List Char) → Except Stop (Token × List Char)
  | .ok (t, rest) => .ok (t, small rest)
  | .error e => .error e.small

/-- What two texts read alike come to: the same lines, or a failure of the same
kind in the same place. -/
inductive ReadAlike : Except LexFailure (List Line) → Except LexFailure (List Line) → Prop
  | lines (lines : List Line) : ReadAlike (.ok lines) (.ok lines)
  | malformed {e f : LexError} : e.problem.kind = f.problem.kind →
    e.offset = f.offset → e.line = f.line →
      ReadAlike (.error (.malformed e)) (.error (.malformed f))
  | integer (e : IntegerError) : ReadAlike (.error (.integer e)) (.error (.integer e))

/-! ### Characters -/

theorem isTagChar_toLower (c : Char) : isTagChar c.toLower = isTagChar c :=
  toLower_cases (motive := fun c low => isTagChar low = isTagChar c) (fun _ => rfl) (by decide) c

theorem isComparatorChar_toLower (c : Char) : isComparatorChar c.toLower = isComparatorChar c :=
  toLower_cases (motive := fun c low => isComparatorChar low = isComparatorChar c)
    (fun _ => rfl) (by decide) c

theorem foldChar_toLower (c : Char) : foldChar c.toLower = foldChar c :=
  toLower_cases (motive := fun c low => foldChar low = foldChar c) (fun _ => rfl) (by decide) c

/-! ### Runs of characters -/

theorem takeWhile_small {p : Char → Bool} (hp : ∀ c, p c.toLower = p c) (cs : List Char) :
    (small cs).takeWhile p = small (cs.takeWhile p) := by
  rw [small, List.takeWhile_map, small]
  exact congrArg (fun q => (cs.takeWhile q).map Char.toLower) (funext hp)

theorem dropWhile_small {p : Char → Bool} (hp : ∀ c, p c.toLower = p c) (cs : List Char) :
    (small cs).dropWhile p = small (cs.dropWhile p) := by
  rw [small, List.dropWhile_map, small]
  exact congrArg (fun q => (cs.dropWhile q).map Char.toLower) (funext hp)

theorem small_of_not_isAlpha (h : ∀ c ∈ cs, c.isAlpha = false) : small cs = cs :=
  (List.map_congr_left fun c hc => toLower_of_not_isAlpha (h c hc)).trans (List.map_id cs)

theorem takeWhile_small_eq {p : Char → Bool} (hp : ∀ c, p c.toLower = p c)
    (hletter : ∀ c, p c = true → c.isAlpha = false) (cs : List Char) :
    (small cs).takeWhile p = cs.takeWhile p := by
  rw [takeWhile_small hp]
  exact small_of_not_isAlpha fun c hc => hletter c (List.mem_takeWhile_imp hc)

theorem isAlpha_of_isDigit (c : Char) (h : c.isDigit = true) : c.isAlpha = false := by
  have hc := toNat_of_isDigit h
  exact forall_ascii (motive := fun c => c.isDigit = true → c.isAlpha = false)
    (by decide) (by omega) h

theorem isAlpha_of_isComparatorChar (c : Char) (h : isComparatorChar c = true) :
    c.isAlpha = false := by
  simp only [isComparatorChar, Bool.or_eq_true, decide_eq_true_eq] at h
  rcases h with (rfl | rfl) | rfl <;> decide

theorem foldName_small (cs : List Char) : foldName (String.ofList (small cs)) =
    foldName (String.ofList cs) := by
  simp only [foldName, String.toList_ofList, small, List.map_map]
  exact congrArg String.ofList (List.map_congr_left fun c _ => foldChar_toLower c)

theorem ofRating_small (h : ∀ c ∈ cs, c.isAlpha = true) :
    Token.ofRating (String.ofList (small cs)) negated =
      Token.ofRating (String.ofList cs) negated := by
  have hlower : lower (String.ofList (small cs)) = lower (String.ofList cs) := by
    rw [← String.toList_inj, toList_lower (by simpa [small, isAlpha_toLower] using h),
      toList_lower (by simpa using h), String.toList_ofList, String.toList_ofList,
      small, List.map_map]
    exact List.map_congr_left fun c hc => toLower_of_isLower (isLower_toLower (h c hc))
  rw [Token.ofRating, hlower, Token.ofRating]

theorem small_stop (p : Problem) (cs : List Char) :
    stop p.small (small cs) = smallReading (stop p cs) := by
  simp [stop, smallReading, Stop.small, small]

theorem number_bind_small (digits : List Char) {f g : Int → Except Stop (Token × List Char)}
    (h : ∀ n, f n = smallReading (g n)) :
    (number digits >>= f) = smallReading (number digits >>= g) := by
  -- the digits are those of both texts, so both come to one number
  rw [number]
  cases readInteger (String.ofList digits) with
  | error e => rfl
  | ok n => exact h n

/-! ### Terms -/

theorem lexId_small (cs : List Char) :
    lexId negated (small cs) = smallReading (lexId negated cs) := by
  simp only [lexId, takeWhile_small_eq isDigit_toLower isAlpha_of_isDigit,
    dropWhile_small isDigit_toLower]
  split
  · exact small_stop .missingId cs
  refine number_bind_small _ fun n => ?_
  split
  · rfl
  · exact small_stop (.idOutOfRange _) cs

theorem lexUser_small (cs : List Char) :
    lexUser negated (small cs) = smallReading (lexUser negated cs) := by
  simp only [lexUser, takeWhile_small isTagChar_toLower,
    dropWhile_small isTagChar_toLower, foldName_small]
  have hempty : (small (cs.takeWhile isTagChar)).isEmpty = (cs.takeWhile isTagChar).isEmpty :=
    List.isEmpty_map
  rw [hempty]
  split
  · exact small_stop .missingUser cs
  · rfl

theorem signOf_small (cs : List Char) :
    signOf (small cs) = ((signOf cs).1, small (signOf cs).2) := by
  cases cs with
  | nil => rfl
  | cons c cs =>
    by_cases hc : c = '-'
    · subst hc
      rfl
    · have hlow : c.toLower ≠ '-' := fun h => hc ((toLower_eq_iff (by decide)).mp h)
      simp [signOf, small, hc, hlow]

theorem lexThreshold_small (cs : List Char) :
    lexThreshold negated comparator (small cs) =
      smallReading (lexThreshold negated comparator cs) := by
  simp only [lexThreshold, signOf_small, takeWhile_small_eq isDigit_toLower isAlpha_of_isDigit,
    dropWhile_small isDigit_toLower]
  split
  · exact small_stop .missingScore cs
  refine number_bind_small _ fun n => ?_
  split
  · rfl
  · exact small_stop (.scoreOutOfRange _) cs

theorem lexScore_small (cs : List Char) :
    lexScore negated (small cs) = smallReading (lexScore negated cs) := by
  have hcomparator : comparatorOf (small cs) = comparatorOf cs := by
    simp only [comparatorOf, takeWhile_small_eq isComparatorChar_toLower
      isAlpha_of_isComparatorChar]
  simp only [lexScore, hcomparator, dropWhile_small isComparatorChar_toLower]
  split
  · exact lexThreshold_small _
  · exact small_stop (.unknownComparator _) cs

theorem lexSpecial_small (name : String) (start cs : List Char) :
    lexSpecial name negated (small start)
      (small cs) = smallReading (lexSpecial name negated start cs) := by
  unfold lexSpecial
  split
  · rw [takeWhile_small isAlpha_toLower, dropWhile_small isAlpha_toLower,
      ofRating_small fun _ => List.mem_takeWhile_imp]
    rfl
  · exact lexId_small cs
  · exact lexUser_small cs
  · exact lexScore_small cs
  · exact small_stop (.unknownSpecial _) start

theorem lexUnsigned_small (start cs : List Char) :
    lexUnsigned negated (small start) (small cs) = smallReading (lexUnsigned negated start cs) := by
  simp only [lexUnsigned, takeWhile_small isTagChar_toLower,
    dropWhile_small isTagChar_toLower, foldName_small]
  have hempty : (small (cs.takeWhile isTagChar)).isEmpty = (cs.takeWhile isTagChar).isEmpty :=
    List.isEmpty_map
  have hshown : String.ofList ((small cs).take 1) =
      String.ofList (small (String.ofList (cs.take 1)).toList) := by
    rw [String.toList_ofList, small, ← List.map_take, small]
  rw [hempty, hshown]
  split
  · exact small_stop (.unexpected _) cs
  cases cs.dropWhile isTagChar with
  | nil => rfl
  | cons c value =>
    by_cases hc : c = ':'
    · subst hc
      exact lexSpecial_small _ start value
    · have hlow : c.toLower ≠ ':' := fun h => hc ((toLower_eq_iff (by decide)).mp h)
      simp [small, smallReading, hc, hlow]

theorem lexToken_small (cs : List Char) : lexToken (small cs) = smallReading (lexToken cs) := by
  cases cs with
  | nil => exact @lexUnsigned_small false [] []
  | cons c cs =>
    by_cases hc : c = '-'
    · subst hc
      have hhead : (small cs).head?.any isTagChar = cs.head?.any isTagChar := by
        cases cs with
        | nil => rfl
        | cons c cs => exact isTagChar_toLower c
      have hsmall : small ('-' :: cs) = '-' :: small cs := rfl
      simp only [hsmall, lexToken, hhead]
      split
      · exact lexUnsigned_small ('-' :: cs) cs
      · exact small_stop .bareNegation ('-' :: cs)
    · have hlow : c.toLower ≠ '-' := fun h => hc ((toLower_eq_iff (by decide)).mp h)
      have hread := @lexUnsigned_small false (c :: cs) (c :: cs)
      simp only [small, List.map_cons] at hread
      simpa [small, lexToken, hc, hlow] using hread

/-! ### Texts -/

theorem wordToken_small (w : List Char) :
    wordToken (small w) = (wordToken w).mapError Stop.small := by
  simp only [wordToken, lexToken_small]
  cases lexToken w with
  | error e => rfl
  | ok r =>
    obtain ⟨t, rest⟩ := r
    cases rest with
    | nil => rfl
    | cons c rest => simp [smallReading, small, stop, Except.mapError, Stop.small, Problem.small]

theorem Stop.small_behind (e : Stop) (more : Nat) :
    (e.behind more).small = e.small.behind more := by
  cases e <;> rfl

theorem scan_small (line : Line) (cs : List Char) :
    scan line (small cs) = (scan line cs).mapError Stop.small := by
  induction cs using wordInduction generalizing line with
  | nil =>
    rw [show small [] = [] from rfl, scan_nil]
    rfl
  | blank c rest hc ih =>
    have hletter : c.isAlpha = false := isAlpha_of_blank c hc
    have hsmall : small (c :: rest) = c :: small rest := by
      rw [small, List.map_cons, toLower_of_not_isAlpha hletter, small]
    rw [hsmall]
    by_cases hne : c = '\n'
    · subst hne
      rw [scan_lineFeed, scan_lineFeed, ih]
      cases scan [] rest <;> rfl
    · rw [scan_blank line hc hne, scan_blank line hc hne, ih]
  | word w rest hw hrest ih =>
    have hword : IsWord (small w) :=
      ⟨by simpa [small] using hw.nonempty, by simpa [small, isBlank_toLower] using hw.unbroken⟩
    have hends : EndsHere (small rest) := by
      intro c hc
      rw [small, List.head?_map, Option.mem_def, Option.map_eq_some_iff] at hc
      obtain ⟨a, ha, rfl⟩ := hc
      rw [isBlank_toLower]
      exact hrest a ha
    -- small letters end where the word does, and the rest is as long as it was
    have hsmall : small (w ++ rest) = small w ++ small rest := List.map_append
    have hlength : (small rest).length = rest.length := List.length_map _
    rw [hsmall, scan_word line hword hends, scan_word line hw hrest, wordToken_small]
    cases wordToken w with
    | error e =>
      simp only [Except.mapError, hlength]
      rw [Stop.small_behind]
    | ok t => exact ih _

theorem trim_small (cs : List Char) : trim (small cs) = small (trim cs) := by
  have hreverse (cs : List Char) : (small cs).reverse = small cs.reverse := List.map_reverse.symm
  simp only [trim, dropEndWhile, dropWhile_small isBlank_toLower, hreverse]

theorem Stop.located_small (e : Stop) (text : List Char) :
    e.small.located (Blacklist.small text) = (e.located text).small := by
  cases e with
  | integer e => rfl
  | problem p left =>
    have hcount (cs : List Char) : (Blacklist.small cs).count '\n' = cs.count '\n' := by
      simp only [List.count_eq_countP, Blacklist.small, List.countP_map]
      refine List.countP_congr fun c _ => ?_
      simp [toLower_eq_iff (c := c) (d := '\n') (by decide)]
    have hlength : (Blacklist.small text).length = text.length := List.length_map _
    have htake (n : Nat) : (Blacklist.small text).take n = Blacklist.small (text.take n) :=
      List.map_take.symm
    simp only [Stop.small, Stop.located, LexFailure.small, hlength, htake, hcount]
    simp [Blacklist.small]

theorem lex_small (s : String) :
    lex (String.ofList (small s.toList)) = (lex s).mapError LexFailure.small := by
  simp only [lex, String.toList_ofList, trim_small, scan_small]
  cases scan [] (trim s.toList) with
  | error e => exact congrArg Except.error (e.located_small _)
  | ok lines => rfl

theorem SameLetter.toLower_eq {c d : Char} (h : SameLetter c d) : c.toLower = d.toLower := by
  obtain rfl | ⟨-, -, h⟩ := h
  · rfl
  · exact h

theorem Problem.kind_small (p : Problem) : p.small.kind = p.kind := by
  cases p <;> rfl

theorem readAlike_of_small {a b : Except LexFailure (List Line)}
    (h : a.mapError LexFailure.small = b.mapError LexFailure.small) : ReadAlike a b := by
  cases a with
  | ok lines =>
    cases b with
    | ok lines' =>
      obtain rfl : lines = lines' := Except.ok.inj h
      exact .lines lines
    | error f => cases h
  | error e =>
    cases b with
    | ok lines => cases h
    | error f =>
      have hsame : e.small = f.small := Except.error.inj h
      cases e with
      | integer e =>
        cases f with
        | integer f =>
          cases hsame
          exact .integer e
        | malformed f => cases hsame
      | malformed e =>
        cases f with
        | integer f => cases hsame
        | malformed f =>
          simp only [LexFailure.small, LexFailure.malformed.injEq, LexError.mk.injEq] at hsame
          obtain ⟨hproblem, hoffset, hline⟩ := hsame
          refine .malformed ?_ hoffset hline
          rw [← Problem.kind_small, hproblem, Problem.kind_small]

/-- The case of ASCII letters does not matter, wherever they stand. Two texts that differ in
nothing else are both read as the same blacklist, or both fail, in the same place and with
the same kind of error. -/
theorem lex_ignores_case {s t : String} (h : List.Forall₂ SameLetter s.toList t.toList) :
    ReadAlike (lex s) (lex t) := by
  have hsmall : small s.toList = small t.toList := by
    rw [small, small, ← List.forall₂_eq_eq_eq, List.forall₂_map_left_iff,
      List.forall₂_map_right_iff]
    exact h.imp fun _ _ hc => hc.toLower_eq
  have hboth : (lex s).mapError LexFailure.small = (lex t).mapError LexFailure.small := by
    rw [← lex_small, hsmall, lex_small]
  exact readAlike_of_small hboth

/-- Both fail right behind the prefix, which is written in two ways. -/
theorem id_letter_ignores_case :
    List.Forall₂ SameLetter "Gore rating:S\nID:x".toList "gORE Rating:s\nid:X".toList ∧
      lex "Gore rating:S\nID:x" = .error (.malformed ⟨.missingId, 17, 1⟩) ∧
      ReadAlike (lex "Gore rating:S\nID:x") (lex "gORE Rating:s\nid:X") := by
  have h : List.Forall₂ SameLetter "Gore rating:S\nID:x".toList "gORE Rating:s\nid:X".toList := by
    simp [SameLetter]
  exact ⟨h, by decide +kernel, lex_ignores_case h⟩

end Blacklist
end Booru
