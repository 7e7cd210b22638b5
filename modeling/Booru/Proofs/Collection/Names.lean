import Booru.Collection
import Booru.Proofs.Blacklist.RoundTrip
import Booru.Proofs.Text.Trimming

/-! Names of files after cleaning: what stands in front of the dot of an extension stays,
but for white space at its start. So a stem can be read off a cleaned name, and the
number off that of a page. -/

namespace Booru

open Text

variable {cs xs ys : List Char}

def cleanChar (c : Char) : Char := if reservedChars.contains c || c.toNat < 32 then '_' else c

def cleanCore (cs : List Char) : List Char := dropEndWhile (· == '.') (trim (cs.map cleanChar))

/-- A text that cleaning keeps and that has no dot: a checksum or a number. -/
structure Stem (cs : List Char) : Prop where
  nonempty : cs ≠ []
  plain : ∀ c ∈ cs, c.isAlphanum = true ∨ c = '-'

def Dotted (rest : List Char) : Prop := ∀ c ∈ rest.head?, c = '.'

/-- White space and dots, which a name loses at its end. -/
def isFiller (c : Char) : Bool := isBlank c || c == '.'

/-! ### What cleaning does to characters -/

theorem toNat_of_isAlphanum {c : Char} (h : c.isAlphanum = true) :
    ((65 ≤ c.toNat ∧ c.toNat ≤ 90) ∨ (97 ≤ c.toNat ∧ c.toNat ≤ 122)) ∨
    (48 ≤ c.toNat ∧ c.toNat ≤ 57) := by
  have hranges : c.isAlphanum =
      ((decide (65 ≤ c.val ∧ c.val ≤ 90) || (decide (97 ≤ c.val) && decide (c.val ≤ 122))) ||
        (decide (48 ≤ c.val) && decide (c.val ≤ 57))) := rfl
  simpa [hranges, UInt32.le_iff_toNat_le] using h

theorem cleanChar_eq_self {c : Char} (h : c.isAlphanum = true ∨ c = '-') :
    cleanChar c = c ∧ isBlank c = false ∧ c ≠ '.' := by
  rcases h with h | rfl
  · have hrange : 48 ≤ c.toNat ∧ c.toNat ≤ 122 ∧ c.toNat ≠ 58 ∧ c.toNat ≠ 60 ∧ c.toNat ≠ 62 ∧
        c.toNat ≠ 63 ∧ c.toNat ≠ 92 := by
      have hcode := toNat_of_isAlphanum h
      omega
    have hne (d : Char) (hd : c.toNat ≠ d.toNat) : c ≠ d := fun heq => hd (congrArg Char.toNat heq)
    have hreserved : reservedChars.contains c = false := by
      rw [Bool.eq_false_iff]
      intro hmem
      simp only [reservedChars, List.contains_eq_mem, List.mem_cons, List.not_mem_nil, or_false,
        decide_eq_true_eq] at hmem
      rcases hmem with rfl | rfl | rfl | rfl | rfl | rfl | rfl | rfl | rfl <;> simp at hrange
    refine ⟨?_, ?_, hne '.' (by simp; omega)⟩
    · rw [cleanChar, hreserved, Bool.false_or, if_neg (by simp; omega)]
    · simp [isBlank]
      omega
  · decide

theorem cleanChar_dot : cleanChar '.' = '.' := by decide

theorem Stem.map_cleanChar (h : Stem cs) : cs.map cleanChar = cs :=
  (List.map_congr_left fun c hc => (cleanChar_eq_self (h.plain c hc)).1).trans (List.map_id cs)

theorem Stem.dot_notMem (h : Stem cs) : '.' ∉ cs :=
  fun hc => (cleanChar_eq_self (h.plain _ hc)).2.2 rfl

theorem Stem.behind (h : Stem ys) (hx : ∀ c ∈ xs, c.isAlphanum = true ∨ c = '-') :
    Stem (xs ++ ys) :=
  ⟨by simp [h.nonempty], fun c hc => (List.mem_append.mp hc).elim (hx c) (h.plain c)⟩

theorem stem_toDigits (n : Nat) : Stem (Nat.toDigits 10 n) := by
  refine ⟨Nat.toDigits_ne_nil, fun c hc => .inl ?_⟩
  have hdigit := Nat.isDigit_of_mem_toDigits (by decide) (by decide) hc
  simp [Char.isAlphanum, hdigit]

theorem stem_toString (n : Int) : Stem (toString n).toList := by
  rw [Blacklist.toList_toString]
  refine (stem_toDigits n.natAbs).behind fun c hc => .inr ?_
  unfold Blacklist.signMark at hc
  split at hc
  · exact List.mem_singleton.mp hc
  · simp at hc

/-! ### Where a text is cut -/

theorem exists_dropWhile_append_cons {p : Char → Bool} {c : Char}
    (h : p c = false) (xs : List Char) :
    ∃ kept, ∀ ys, (xs ++ c :: ys).dropWhile p = kept ++ c :: ys := by
  by_cases hall : (xs.dropWhile p).isEmpty = true
  · refine ⟨[], fun ys => ?_⟩
    rw [List.dropWhile_append, if_pos hall, dropWhile_eq_self (by simp [h]), List.nil_append]
  · exact ⟨xs.dropWhile p, fun ys => by rw [List.dropWhile_append, if_neg hall]⟩

theorem Dotted.dropEndWhile (h : Dotted xs) (p : Char → Bool) : Dotted (dropEndWhile p xs) := by
  obtain ⟨trail, hsplit, -⟩ := exists_dropped p xs
  intro c hc
  refine h c ?_
  rw [hsplit, List.head?_append, Option.mem_def.mp hc]
  rfl

theorem eq_of_append_dotted {as bs : List Char} (ha : '.' ∉ as) (hb : '.' ∉ bs) (hx : Dotted xs)
    (hy : Dotted ys) (h : as ++ xs = bs ++ ys) : as = bs := by
  have hfront {as xs : List Char} (ha : '.' ∉ as) (hx : Dotted xs) :
      (as ++ xs).takeWhile (· != '.') = as := by
    have hrest : xs.takeWhile (· != '.') = [] := by
      cases xs with
      | nil => rfl
      | cons c rest => simp [hx c rfl]
    rw [List.takeWhile_append_of_pos fun c hc => ?_, hrest, List.append_nil]
    exact bne_iff_ne.mpr fun heq => ha (heq ▸ hc)
  rw [← hfront ha hx, h, hfront hb hy]

theorem toList_cleanComponent (name : String) :
    (cleanComponent name).toList =
      if cleanCore name.toList = [] then ['_'] else cleanCore name.toList := by
  have hdot : cleanCore name.toList ≠ ['.'] := by
    intro h
    have hlast := @getLast_dropEndWhile (· == '.') (trim (name.toList.map cleanChar)) '.'
      (by rw [← cleanCore, h]; rfl)
    simp at hlast
  have hcore : cleanComponent name =
      if (cleanCore name.toList).isEmpty || cleanCore name.toList == ['.'] then "_"
      else String.ofList (cleanCore name.toList) := rfl
  rw [hcore]
  by_cases hnil : cleanCore name.toList = []
  · simp [hnil]
  · simp [hnil, hdot]

theorem cleanComponent_cons {name : String} {c : Char} (hc : c.isAlphanum = true ∨ c = '-')
    (h : name.toList = c :: cs) : ∃ rest, (cleanComponent name).toList = c :: rest := by
  obtain ⟨hself, hblank, hdot⟩ := cleanChar_eq_self hc
  have htrim : trim (name.toList.map cleanChar) = c :: dropEndWhile isBlank (cs.map cleanChar) := by
    rw [h, List.map_cons, hself, trim, dropWhile_eq_self (by simp [hblank])]
    exact dropEndWhile_append_cons hblank [] _
  have hcore : cleanCore name.toList =
      c :: dropEndWhile (· == '.') (dropEndWhile isBlank (cs.map cleanChar)) := by
    rw [cleanCore, htrim]
    exact dropEndWhile_append_cons (by simpa using hdot) [] _
  exact ⟨_, by rw [toList_cleanComponent, hcore, if_neg (List.cons_ne_nil _ _)]⟩

theorem cleanCore_dotted {front stem ext : List Char} (hstem : Stem stem)
    (h : cs.map cleanChar = front ++ (stem ++ '.' :: ext)) :
    ∃ rest, Dotted rest ∧ cleanCore cs = (front ++ stem).dropWhile isBlank ++ rest := by
  obtain ⟨init, c, rfl⟩ : ∃ init c, stem = init ++ [c] :=
    ⟨_, _, (List.dropLast_append_getLast hstem.nonempty).symm⟩
  obtain ⟨-, hblank, hdot⟩ := cleanChar_eq_self (hstem.plain c (by simp))
  rw [List.append_assoc, ← List.append_assoc, List.singleton_append] at h
  obtain ⟨kept, hkept⟩ := exists_dropWhile_append_cons hblank (front ++ init)
  refine ⟨dropEndWhile (· == '.') ('.' :: dropEndWhile isBlank ext), ?_, ?_⟩
  · exact Dotted.dropEndWhile (fun a ha => by simpa [eq_comm] using ha) _
  · have htrim : trim (cs.map cleanChar) = kept ++ c :: '.' :: dropEndWhile isBlank ext := by
      have hsplit := dropEndWhile_append_cons (p := isBlank) (c := '.') rfl (kept ++ [c]) ext
      rw [trim, h, hkept]
      simpa using hsplit
    rw [cleanCore, htrim, dropEndWhile_append_cons (by simpa using hdot),
      ← List.append_assoc, hkept, List.append_assoc]
    rfl

/-! ### Names with a stem -/

theorem cleanComponent_stem {stem : String} (h : Stem stem.toList) (ext : String) :
    ∃ rest, Dotted rest ∧ (cleanComponent (stem ++ "." ++ ext)).toList = stem.toList ++ rest := by
  have hclean : (stem ++ "." ++ ext).toList.map cleanChar =
      [] ++ (stem.toList ++ '.' :: ext.toList.map cleanChar) := by
    simp [String.toList_append, h.map_cleanChar, cleanChar_dot]
  obtain ⟨rest, hrest, hcore⟩ := cleanCore_dotted h hclean
  have hstart : stem.toList.dropWhile isBlank = stem.toList :=
    dropWhile_eq_self fun a ha => (cleanChar_eq_self (h.plain a (List.mem_of_mem_head? ha))).2.1
  rw [List.nil_append, hstart] at hcore
  refine ⟨rest, hrest, ?_⟩
  rw [toList_cleanComponent, hcore, if_neg (by simp [h.nonempty])]

theorem stem_eq_of_cleanComponent_eq {stem stem' ext ext' : String} (h : Stem stem.toList)
    (h' : Stem stem'.toList)
    (heq : cleanComponent (stem ++ "." ++ ext) = cleanComponent (stem' ++ "." ++ ext')) :
    stem = stem' := by
  obtain ⟨rest, hrest, hname⟩ := cleanComponent_stem h ext
  obtain ⟨rest', hrest', hname'⟩ := cleanComponent_stem h' ext'
  rw [heq, hname'] at hname
  exact String.toList_inj.mp
    (eq_of_append_dotted h'.dot_notMem h.dot_notMem hrest' hrest hname).symm

/-! ### Names of pages -/

theorem toList_pageNumber (n : Nat) :
    (pageNumber n).toList =
      List.replicate (5 - (toString n).length) '0' ++ Nat.toDigits 10 n := by
  rw [pageNumber, String.toList_append, String.toList_ofList]
  exact congrArg _ Nat.toList_repr

theorem stem_pageNumber (n : Nat) : Stem (pageNumber n).toList := by
  rw [toList_pageNumber]
  refine (stem_toDigits n).behind fun c hc => .inl ?_
  rw [List.eq_of_mem_replicate hc]
  decide

theorem ofDigitChars_pageNumber (n : Nat) : Nat.ofDigitChars 10 (pageNumber n).toList 0 = n := by
  rw [toList_pageNumber, Nat.ofDigitChars_append, Nat.ofDigitChars_replicate_zero, Nat.mul_zero,
    Nat.ofDigitChars_ten_toDigits]

theorem pageNumber_injective : Function.Injective pageNumber := by
  intro m n h
  rw [← ofDigitChars_pageNumber m, h, ofDigitChars_pageNumber n]

theorem map_cleanChar_pageName (pool : String) (n : Nat) (p : Post) :
    (pageName pool n p).toList.map cleanChar = (pool.toList.map cleanChar ++ " Page_".toList) ++
      ((pageNumber n).toList ++ '.' :: p.extension.toList.map cleanChar) := by
  have hwords : " Page_".toList.map cleanChar = " Page_".toList := by decide
  simp only [pageName, String.toList_append, List.map_append, hwords,
    (stem_pageNumber n).map_cleanChar]
  simp [cleanChar_dot]

theorem exists_filler (cs : List Char) : ∃ filler, (∀ c ∈ filler, isFiller c = true) ∧
    (cs.map cleanChar).dropWhile isBlank = cleanCore cs ++ filler := by
  obtain ⟨blanks, hblanks, hallBlank⟩ :=
    exists_dropped isBlank ((cs.map cleanChar).dropWhile isBlank)
  obtain ⟨dots, hdots, hallDots⟩ := exists_dropped (· == '.') (trim (cs.map cleanChar))
  refine ⟨dots ++ blanks, fun c hc => ?_, ?_⟩
  · rw [isFiller, Bool.or_eq_true]
    exact (List.mem_append.mp hc).symm.imp (hallBlank c) (hallDots c)
  · rw [hblanks, ← trim, hdots, ← cleanCore, List.append_assoc]

theorem cleanComponent_pageName (pool : String) (n : Nat) (p : Post) :
    ∃ filler rest, (∀ c ∈ filler, isFiller c = true) ∧ Dotted rest ∧
      (cleanComponent (pageName pool n p)).toList =
        cleanCore pool.toList ++ (filler ++
          ("Page_".toList ++ ((pageNumber n).toList ++ rest))) := by
  obtain ⟨filler, hfiller, hpool⟩ := exists_filler pool.toList
  obtain ⟨rest, hrest, hcore⟩ :=
    cleanCore_dotted (stem_pageNumber n) (map_cleanChar_pageName pool n p)
  rw [List.append_assoc, List.dropWhile_append, hpool] at hcore
  obtain ⟨between, hbetween, hname⟩ : ∃ between, (∀ c ∈ between, isFiller c = true) ∧
      cleanCore (pageName pool n p).toList =
        cleanCore pool.toList ++ (between ++
          ("Page_".toList ++ ((pageNumber n).toList ++ rest))) := by
    split at hcore
    · -- nothing of the pool's name is left, and the space behind it is dropped
      rename_i hnone
      have hnil := List.append_eq_nil_iff.mp (List.isEmpty_iff.mp hnone)
      refine ⟨[], by simp, ?_⟩
      rw [hcore, hnil.1]
      simp [isBlank]
    · refine ⟨filler ++ [' '], fun a ha => ?_, by rw [hcore]; simp⟩
      rcases List.mem_append.mp ha with hold | hspace
      · exact hfiller a hold
      · rw [List.mem_singleton.mp hspace]
        decide
  refine ⟨between, rest, hbetween, hrest, ?_⟩
  rw [toList_cleanComponent, if_neg (by simp [hname]), hname]

theorem cleanCore_eq_of_page {pool pool' : String} {filler filler' : List Char}
    (hpool : cleanComponent pool = cleanComponent pool') (hfiller : ∀ c ∈ filler, isFiller c = true)
    (hfiller' : ∀ c ∈ filler', isFiller c = true)
    (h : cleanCore pool.toList ++ (filler ++ ("Page_".toList ++ xs)) =
      cleanCore pool'.toList ++ (filler' ++ ("Page_".toList ++ ys))) :
    cleanCore pool.toList = cleanCore pool'.toList := by
  have hhead {filler xs ys : List Char} (hfiller : ∀ c ∈ filler, isFiller c = true) :
      filler ++ ("Page_".toList ++ xs) ≠ ['_'] ++ ys := by
    intro heq
    have hfirst := congrArg List.head? heq
    cases filler with
    | nil => simp at hfirst
    | cons c filler =>
      obtain rfl : c = '_' := by simpa using hfirst
      exact absurd (hfiller '_' (by simp)) (by decide)
  have hname := congrArg String.toList hpool
  rw [toList_cleanComponent, toList_cleanComponent] at hname
  by_cases hleft : cleanCore pool.toList = [] <;> by_cases hright : cleanCore pool'.toList = []
  · rw [hleft, hright]
  · rw [if_pos hleft, if_neg hright] at hname
    rw [hleft, ← hname] at h
    exact absurd h (hhead hfiller)
  · rw [if_neg hleft, if_pos hright] at hname
    rw [hright, hname] at h
    exact absurd h.symm (hhead hfiller')
  · rwa [if_neg hleft, if_neg hright] at hname

theorem page_eq_of_cleanComponent_eq {pool pool' : String} {m n : Nat} {p q : Post}
    (hpool : cleanComponent pool = cleanComponent pool')
    (h : cleanComponent (pageName pool m p) = cleanComponent (pageName pool' n q)) : m = n := by
  obtain ⟨filler, rest, hfiller, hrest, hname⟩ := cleanComponent_pageName pool m p
  obtain ⟨filler', rest', hfiller', hrest', hname'⟩ := cleanComponent_pageName pool' n q
  rw [h, hname'] at hname
  have hcore : cleanCore pool.toList = cleanCore pool'.toList :=
    cleanCore_eq_of_page hpool hfiller hfiller' hname.symm
  rw [hcore, List.append_cancel_left_eq] at hname
  have hafter {filler rest : List Char} {k : Nat} (h : ∀ c ∈ filler, isFiller c = true) :
      (filler ++ ("Page_".toList ++ ((pageNumber k).toList ++ rest))).dropWhile isFiller =
        "Page_".toList ++ ((pageNumber k).toList ++ rest) := by
    rw [List.dropWhile_append_of_pos h]
    refine dropWhile_eq_self fun c hc => ?_
    obtain rfl : 'P' = c := by simpa using hc
    decide
  have hpages := congrArg (List.dropWhile isFiller) hname
  rw [hafter hfiller', hafter hfiller, List.append_cancel_left_eq] at hpages
  have hnumbers := eq_of_append_dotted (stem_pageNumber n).dot_notMem (stem_pageNumber m).dot_notMem
    hrest' hrest hpages
  exact (pageNumber_injective (String.toList_inj.mp hnumbers)).symm

/-! ### Names as steps of a path -/

def pathChars : List Char := ['/', '\\', '?', ':', '*', '<', '>', '"', '|']

/-- A name that is one step of a path, and leads one step down. -/
structure SafeName (name : String) : Prop where
  full : name ≠ ""
  away : name ≠ "."
  down : name ≠ ".."
  chars : ∀ c ∈ name.toList, c ∉ pathChars ∧ 32 ≤ c.toNat

theorem cleanChar_safe (c : Char) : cleanChar c ∉ pathChars ∧ 32 ≤ (cleanChar c).toNat := by
  unfold cleanChar
  split
  · decide
  · rename_i hkept
    obtain ⟨hreserved, hlow⟩ : c ∉ reservedChars ∧ 32 ≤ c.toNat := by simpa using hkept
    refine ⟨fun hmem => hreserved ?_, hlow⟩
    simp only [pathChars, reservedChars, List.mem_cons, List.not_mem_nil, or_false] at hmem ⊢
    tauto

theorem mem_cleanComponent {name : String} {c : Char} (h : c ∈ (cleanComponent name).toList) :
    ∃ a, c = cleanChar a := by
  rw [toList_cleanComponent] at h
  split at h
  · exact ⟨'_', List.mem_singleton.mp h⟩
  · have hdropped (p : Char → Bool) (cs : List Char) : dropEndWhile p cs ⊆ cs := by
      obtain ⟨trail, hsplit, -⟩ := exists_dropped p cs
      exact fun c hc => hsplit ▸ List.mem_append_left trail hc
    have hcleaned := List.dropWhile_subset _ (hdropped _ _ (hdropped _ _ h))
    obtain ⟨a, -, ha⟩ := List.mem_map.mp hcleaned
    exact ⟨a, ha.symm⟩

theorem getLast_cleanComponent (name : String) :
    (cleanComponent name).toList.getLast? ≠ some '.' := by
  rw [toList_cleanComponent]
  split
  · decide
  · intro hlast
    have hdot := @getLast_dropEndWhile (· == '.') _ '.' hlast
    simp at hdot

theorem safeName_cleanComponent (name : String) : SafeName (cleanComponent name) where
  full heq := by
    have htext := toList_cleanComponent name
    rw [heq] at htext
    split at htext
    · cases htext
    · rename_i hfull
      exact hfull htext.symm
  away heq := getLast_cleanComponent name (by rw [heq]; rfl)
  down heq := getLast_cleanComponent name (by rw [heq]; rfl)
  chars c hc := by
    obtain ⟨a, rfl⟩ := mem_cleanComponent hc
    exact cleanChar_safe a

structure PlainName (name : String) : Prop where
  full : name ≠ ""
  down : name ≠ ".."
  nonNull : '\x00' ∉ name.toList

theorem plainName_cleanComponent (name : String) : PlainName (cleanComponent name) :=
  have hsafe := safeName_cleanComponent name
  ⟨hsafe.full, hsafe.down, fun hnull => absurd (hsafe.chars _ hnull).2 (by decide)⟩

end Booru
