import Booru.Proofs.Collection.Targets
import Mathlib.Data.List.Lex

/-! The files of one directory. Whatever the board says of extensions and addresses, cleaning lets
no two pages of a pool and no two posts named by number meet in one name, and as long as the numbers
of the pages have five digits a listing of the directory shows them in their order. -/

namespace Booru

open Text

variable {xs ys : List Char} {m n : Nat}

def ListedBefore (s t : String) : Prop :=
  List.Lex (fun c d : Char => c.toNat < d.toNat) s.toList t.toList

def Post.HasUrl (p : Post) : Prop := ∃ url, p.fileUrl = some url ∧ url ≠ ""

/-! ### Numbers with equally many digits -/

theorem lex_of_ofDigitChars_lt (hx : ∀ c ∈ xs, c.isDigit = true) (hy : ∀ c ∈ ys, c.isDigit = true)
    (hlength : xs.length = ys.length) (h : Nat.ofDigitChars 10 xs m < Nat.ofDigitChars 10 ys n) :
    m < n ∨ m = n ∧ List.Lex (fun c d : Char => c.toNat < d.toNat) xs ys := by
  -- `m` and `n` are the numbers read so far: the same ones in front of the first digits that differ
  induction xs generalizing ys m n with
  | nil =>
    obtain rfl := List.length_eq_zero_iff.mp hlength.symm
    exact .inl h
  | cons c xs ih =>
    obtain ⟨d, ys, rfl⟩ := List.exists_cons_of_length_eq_add_one hlength.symm
    have hc := toNat_of_isDigit (hx c List.mem_cons_self)
    have hd := toNat_of_isDigit (hy d List.mem_cons_self)
    rw [Nat.ofDigitChars_cons, Nat.ofDigitChars_cons, show '0'.toNat = 48 from rfl] at h
    have hrest := ih (fun a ha => hx a (List.mem_cons_of_mem c ha))
      (fun a ha => hy a (List.mem_cons_of_mem d ha)) (Nat.succ.inj hlength) h
    rcases hrest with hlt | ⟨heq, hlex⟩
    · by_cases hmn : m < n
      · exact .inl hmn
      · exact .inr ⟨by omega, .rel (by omega)⟩
    · obtain rfl : c = d := Char.toNat_inj.mp (by omega)
      exact .inr ⟨by omega, .cons hlex⟩

theorem lex_append {r : Char → Char → Prop} (hlength : xs.length = ys.length) (h : List.Lex r xs ys)
    (as bs : List Char) : List.Lex r (xs ++ as) (ys ++ bs) := by
  induction h with
  | nil => simp at hlength
  | rel h => exact .rel h
  | cons _ ih => exact .cons (ih (Nat.succ.inj hlength))

theorem length_pageNumber (h : n ≤ 99999) : (pageNumber n).toList.length = 5 := by
  have hshort : (Nat.toDigits 10 n).length ≤ 5 :=
    (Nat.length_toDigits_le_iff (by decide) (by decide)).mpr (by omega)
  have hdigits : (toString n).length = (Nat.toDigits 10 n).length := by
    rw [← String.length_toList]
    exact congrArg List.length Nat.toList_repr
  rw [toList_pageNumber, List.length_append, List.length_replicate, hdigits]
  omega

theorem isDigit_pageNumber (n : Nat) : ∀ c ∈ (pageNumber n).toList, c.isDigit = true := by
  intro c hc
  rw [toList_pageNumber] at hc
  rcases List.mem_append.mp hc with hzero | hdigit
  · rw [List.eq_of_mem_replicate hzero]
    decide
  · exact Nat.isDigit_of_mem_toDigits (by decide) (by decide) hdigit

theorem lex_pageNumber (h : m < n) (hn : n ≤ 99999) (as bs : List Char) :
    List.Lex (fun c d : Char => c.toNat < d.toNat) ((pageNumber m).toList ++ as)
      ((pageNumber n).toList ++ bs) := by
  have hlength : (pageNumber m).toList.length = (pageNumber n).toList.length := by
    rw [length_pageNumber hn, length_pageNumber (by omega)]
  have hvalue : Nat.ofDigitChars 10 (pageNumber m).toList 0 <
      Nat.ofDigitChars 10 (pageNumber n).toList 0 := by
    rwa [ofDigitChars_pageNumber, ofDigitChars_pageNumber]
  have hlex := lex_of_ofDigitChars_lt (isDigit_pageNumber m) (isDigit_pageNumber n) hlength hvalue
  exact lex_append hlength (hlex.resolve_left (Nat.lt_irrefl 0)).2 as bs

/-! ### Names of pages -/

/-- The pages of one pool have a text in common that their numbers stand behind. -/
theorem exists_pageFront (pool : String) : ∃ front, ∀ (n : Nat) (p : Post), ∃ rest,
    (cleanComponent (pageName pool n p)).toList = front ++ ((pageNumber n).toList ++ rest) := by
  obtain ⟨front, hfront⟩ := exists_dropWhile_append_cons (p := isBlank) (c := 'P') (by decide)
    (pool.toList.map cleanChar ++ [' '])
  refine ⟨front ++ "Page_".toList, fun n p => ?_⟩
  obtain ⟨rest, -, hcore⟩ := cleanCore_dotted (stem_pageNumber n) (map_cleanChar_pageName pool n p)
  have hdropped := hfront ("age_".toList ++ (pageNumber n).toList)
  refine ⟨rest, ?_⟩
  have hname : cleanCore (pageName pool n p).toList =
      front ++ "Page_".toList ++ ((pageNumber n).toList ++ rest) := by
    rw [hcore]
    simp only [List.append_assoc] at hdropped ⊢
    exact congrArg (· ++ rest) hdropped |>.trans (by simp)
  rw [toList_cleanComponent, if_neg (by simp [hname]), hname]

theorem listedBefore_page (pool : String) (h : m < n) (hn : n ≤ 99999) (p q : Post) :
    ListedBefore (cleanComponent (pageName pool m p)) (cleanComponent (pageName pool n q)) := by
  obtain ⟨front, hfront⟩ := exists_pageFront pool
  obtain ⟨rest, hp⟩ := hfront m p
  obtain ⟨rest', hq⟩ := hfront n q
  rw [ListedBefore, hp, hq]
  exact (lex_pageNumber h hn rest rest').append_left _ front

/-! ### Posts that are grabbed -/

variable {p : Post} {posts : List Post} {qs : List GrabbedPost} {naming : Naming}

theorem Post.hasUrl_iff : p.HasUrl ↔ ∃ url, p.url = .ok url := by
  unfold url
  cases hurl : nonEmpty? p.fileUrl with
  | none =>
    have hnone : ¬ p.HasUrl := by
      rintro ⟨url, hu, hne⟩
      simp [hu, nonEmpty?, Option.filter, hne] at hurl
    simp [hnone]
  | some url =>
    obtain ⟨hu, hfull⟩ := Option.filter_eq_some_iff.mp hurl
    have hne : url ≠ "" := by simpa [String.isEmpty_iff] using hfull
    exact ⟨fun _ => ⟨url, rfl⟩, fun _ => ⟨url, hu, hne⟩⟩

theorem Post.hasUrl_iff_grabbed : p.HasUrl ↔ ∃ q, p.grabbed naming = .ok q := by
  rw [hasUrl_iff, grabbed]
  cases p.url <;> simp [Except.map]

theorem grabbedPages_of_hasUrl (h : ∀ p ∈ posts, p.HasUrl) (pool : String) (page : Nat) :
    ∃ qs, grabbedPages pool page posts = .ok qs ∧ qs.map (·.postId) = posts.map (·.id) := by
  induction posts generalizing page with
  | nil => exact ⟨[], rfl, rfl⟩
  | cons p rest ih =>
    obtain ⟨url, hurl⟩ := Post.hasUrl_iff.mp (h p List.mem_cons_self)
    obtain ⟨qs, hqs, hids⟩ := ih (fun q hq => h q (List.mem_cons_of_mem p hq)) (page + 1)
    exact ⟨_, by simp only [grabbedPages, hurl, hqs]; rfl, by
      rw [List.map_cons, hids, List.map_cons]⟩

theorem mapM_grabbed_ok_iff :
    (∃ qs, posts.mapM (fun p => p.grabbed naming) = .ok qs) ↔ ∀ p ∈ posts, p.HasUrl := by
  constructor
  · rintro ⟨qs, hqs⟩
    have hall := (Run.mapM_eq_ok_iff.mp hqs).imp fun _ q hq =>
      And.intro (Post.hasUrl_iff_grabbed.mpr ⟨q, hq⟩) hq
    exact ((List.forall₂_and_left ..).mp hall).1
  · intro h
    induction posts with
    | nil => exact ⟨[], rfl⟩
    | cons p rest ih =>
      obtain ⟨q, hq⟩ := Post.hasUrl_iff_grabbed.mp (h p List.mem_cons_self)
      obtain ⟨qs, hqs⟩ := ih fun a ha => h a (List.mem_cons_of_mem p ha)
      exact ⟨q :: qs, by rw [List.mapM_cons, hq, hqs]; rfl⟩

theorem ids_of_mapM_grabbed (h : posts.mapM (fun p => p.grabbed naming) = .ok qs) :
    qs.map (·.postId) = posts.map (·.id) := by
  rw [← List.forall₂_eq_eq_eq, List.forall₂_map_left_iff, List.forall₂_map_right_iff]
  exact (Run.mapM_eq_ok_iff.mp h).flip.imp fun _ _ hq => (Post.grabbed_eq_ok hq).1

theorem pairwise_of_grabbedPages {R : String → String → Prop} {pool : String} {page : Nat}
    (hqs : grabbedPages pool page posts = .ok qs)
    (h : ∀ m n p q, m < n → n < page + qs.length →
      R (cleanComponent (pageName pool m p)) (cleanComponent (pageName pool n q))) :
    (qs.map fun q => cleanComponent q.name).Pairwise R := by
  have hname (i : Nat) (hi : i < qs.length) : ∃ p, qs[i].name = pageName pool (page + i) p :=
    name_of_grabbedPages hqs i (List.getElem?_eq_getElem hi)
  rw [List.pairwise_map, List.pairwise_iff_getElem]
  intro i j hi hj hij
  obtain ⟨p, hp⟩ := hname i hi
  obtain ⟨q, hq⟩ := hname j hj
  rw [hp, hq]
  exact h (page + i) (page + j) p q (by omega) (by omega)

theorem pairwise_of_ids (hqs : posts.mapM (fun p => p.grabbed .id) = .ok qs)
    (hapart : (posts.map (·.id)).Pairwise (· ≠ ·)) :
    (qs.map fun q => cleanComponent q.name).Pairwise (· ≠ ·) := by
  have hname : ∀ q ∈ qs, ∃ extension, q.name = toString q.postId ++ "." ++ extension := by
    intro q hq
    obtain ⟨p, -, hp⟩ := Run.exists_of_mapM hqs q hq
    obtain ⟨hid, hstem⟩ := Post.grabbed_eq_ok hp
    exact ⟨p.extension, by rw [hstem, hid]; rfl⟩
  rw [← ids_of_mapM_grabbed hqs, List.pairwise_map] at hapart
  rw [List.pairwise_map]
  refine hapart.imp_of_mem fun {p q} hp hq hne heq => hne ?_
  obtain ⟨ext, hext⟩ := hname p hp
  obtain ⟨ext', hext'⟩ := hname q hq
  rw [hext, hext'] at heq
  exact toString_injective
    (stem_eq_of_cleanComponent_eq (stem_toString p.postId) (stem_toString q.postId) heq)

/-- The files of one directory do not meet in one name. Posts with an address, whatever else
they say, all become pages of a pool, whose cleaned names are different and, up to page
99999, listed in the order of the pages. Named by number, posts with different numbers keep
different names as well. -/
theorem cleaned_names_apart (posts : List Post) :
    (∀ pool, (∀ p ∈ posts, p.HasUrl) → ∃ qs, grabbedPool posts pool = .ok qs ∧
      qs.map (·.postId) = posts.map (·.id) ∧
      (qs.map fun q => cleanComponent q.name).Pairwise (· ≠ ·) ∧
      (posts.length ≤ 99999 → (qs.map fun q => cleanComponent q.name).Pairwise ListedBefore)) ∧
    ((∃ qs, posts.mapM (fun p => p.grabbed .id) = .ok qs) ↔ ∀ p ∈ posts, p.HasUrl) ∧
    ∀ qs, posts.mapM (fun p => p.grabbed .id) = .ok qs → qs.map (·.postId) = posts.map (·.id) ∧
      ((posts.map (·.id)).Pairwise (· ≠ ·) →
        (qs.map fun q => cleanComponent q.name).Pairwise (· ≠ ·)) := by
  refine ⟨fun pool h => ?_, mapM_grabbed_ok_iff, fun qs hqs =>
    ⟨ids_of_mapM_grabbed hqs, pairwise_of_ids hqs⟩⟩
  obtain ⟨qs, hqs, hids⟩ := grabbedPages_of_hasUrl h pool 1
  have hlength : qs.length = posts.length := by simpa using congrArg List.length hids
  refine ⟨qs, hqs, hids, pairwise_of_grabbedPages hqs fun m n p q hmn _ heq => ?_,
    fun hshort => pairwise_of_grabbedPages hqs fun m n p q hmn hn => ?_⟩
  · have hpage := page_eq_of_cleanComponent_eq rfl heq
    omega
  · exact listedBefore_page pool hmn (by omega) p q

def awkwardPosts : List Post :=
  [⟨-1, 0, "s", [], false, some "h/1", 0, none, some "..", 0⟩,
    ⟨1, 0, "s", [], false, some "h/1", 0, none, some " ", 0⟩,
    ⟨11, 0, "s", [], false, some "h/1", 0, none, some "a/b.", 0⟩]

theorem awkward_names_apart :
    (∃ qs, grabbedPool awkwardPosts " ." = .ok qs ∧
      (qs.map fun q => cleanComponent q.name) =
        [". Page_00001", ". Page_00002", ". Page_00003.a_b"] ∧
      (qs.map fun q => cleanComponent q.name).Pairwise ListedBefore) ∧
    ∃ qs, awkwardPosts.mapM (fun p => p.grabbed .id) = .ok qs ∧
      (qs.map fun q => cleanComponent q.name) = ["-1", "1", "11.a_b"] ∧
      (qs.map fun q => cleanComponent q.name).Pairwise (· ≠ ·) := by
  obtain ⟨hpool, -, hids⟩ := cleaned_names_apart awkwardPosts
  have hurls : ∀ p ∈ awkwardPosts, p.HasUrl := by
    simp [awkwardPosts, Post.HasUrl]
  obtain ⟨qs, hqs, -, -, hlisted⟩ := hpool " ." hurls
  refine ⟨⟨qs, hqs, ?_, hlisted (by decide)⟩, _, rfl, by decide, (hids _ rfl).2 (by decide)⟩
  cases hqs
  decide

end Booru
