import Mathlib.Data.List.Induction
import Mathlib.Data.List.Nodup
import Booru.Proofs.Settings.Checking

/-! Settings written down and read again. What is read is put into a normal form, and the normal
form of it is itself for all fields but the two addresses: white space in front of the last slashes
of an address is left over, and is taken away when the address is read again. -/

namespace Booru

open Text

/-! ### Lists without repetitions -/

section Lists

variable {α : Type} [BEq α] {xs ys : List α}

/-- The same items, each once, and in the order of their first occurrences. -/
structure FirstOccurrences (xs ys : List α) : Prop where
  mem_iff : ∀ a, a ∈ ys ↔ a ∈ xs
  inOrder : ys.Pairwise fun a b => xs.idxOf a < xs.idxOf b

theorem FirstOccurrences.nodup (h : FirstOccurrences xs ys) : ys.Nodup :=
  h.inOrder.imp fun hlt heq => absurd hlt (by simp [heq])

variable [LawfulBEq α]

theorem firstOccurrences_eraseDups (xs : List α) : FirstOccurrences xs xs.eraseDups := by
  refine ⟨fun a => List.mem_eraseDups, ?_⟩
  induction xs using List.reverseRecOn with
  | nil => exact .nil
  | append_singleton xs x ih =>
    have hold : xs.eraseDups.Pairwise fun a b => (xs ++ [x]).idxOf a < (xs ++ [x]).idxOf b := by
      refine ih.imp_of_mem fun ha hb hlt => ?_
      rwa [List.idxOf_append, List.idxOf_append, if_pos (List.mem_eraseDups.mp ha),
        if_pos (List.mem_eraseDups.mp hb)]
    rw [List.eraseDups_append]
    by_cases hx : x ∈ xs
    · simpa [hx, List.removeAll] using hold
    · have hlast : ([x].removeAll xs).eraseDups = [x] := by
        simp [hx, List.removeAll, List.eraseDups_cons]
      rw [hlast, List.pairwise_append]
      refine ⟨hold, List.pairwise_singleton _ _, fun a ha b hb => ?_⟩
      obtain rfl := List.mem_singleton.mp hb
      have hin := List.mem_eraseDups.mp ha
      rw [List.idxOf_append, List.idxOf_append, if_pos hin, if_neg hx]
      exact Nat.lt_add_left _ (List.idxOf_lt_length_of_mem hin)

theorem eraseDups_of_nodup (h : xs.Nodup) : xs.eraseDups = xs := by
  induction xs using List.reverseRecOn with
  | nil => rfl
  | append_singleton xs x ih =>
    rw [← List.concat_eq_append, List.nodup_concat] at h
    rw [List.eraseDups_append, ih h.2]
    simp [h.1, List.removeAll, List.eraseDups_cons]

end Lists

namespace Settings

variable {s url name search : String}

/-! ### Texts in normal form -/

theorem cleanUrl_shape (h : cleanUrl s = .ok url) :
    url.toList = dropEndWhile (· == '/') (trim s.toList) ∧
    ("http://".toList <+: url.toList ∨ "https://".toList <+: url.toList) := by
  simp only [cleanUrl] at h
  split at h
  · rename_i hprefix
    obtain rfl := Except.ok.inj h
    rw [Bool.or_eq_true, List.isPrefixOf_iff_prefix, List.isPrefixOf_iff_prefix] at hprefix
    rw [String.toList_ofList]
    exact ⟨rfl, hprefix⟩
  · cases h

theorem head_cleanUrl (h : cleanUrl s = .ok url) : url.toList.head? = some 'h' := by
  obtain ⟨rest, hrest⟩ | ⟨rest, hrest⟩ := (cleanUrl_shape h).2
  · rw [← hrest]
    rfl
  · rw [← hrest]
    rfl

theorem getLast_cleanUrl (h : cleanUrl s = .ok url) : ∀ c ∈ url.toList.getLast?, c ≠ '/' := by
  rw [(cleanUrl_shape h).1]
  rintro c hc rfl
  simpa using getLast_dropEndWhile hc

theorem trimmed_cleanUrl_iff (h : cleanUrl s = .ok url) : Trimmed url.toList ↔
    ¬ BlankBefore '/' s.toList := by
  have hhead := head_cleanUrl h
  rw [blankBefore_iff rfl, ← (cleanUrl_shape h).1]
  constructor
  · rintro htrimmed ⟨kept, c, hend, hblank⟩
    simp [htrimmed.ends c (by simp [hend])] at hblank
  · intro hends
    refine ⟨fun hnil => by simp [hnil] at hhead, fun c hc => ?_, fun c hc => ?_⟩
    · rw [hhead, Option.mem_some_iff] at hc
      exact hc ▸ rfl
    · obtain ⟨kept, hkept⟩ := List.getLast?_eq_some_iff.mp hc
      by_contra hblank
      exact hends ⟨kept, c, hkept, by simpa using hblank⟩

theorem cleanUrl_self_iff (h : cleanUrl s = .ok url) : cleanUrl url = .ok url ↔
    Trimmed url.toList := by
  have hhead := head_cleanUrl h
  obtain ⟨-, hprefix⟩ := cleanUrl_shape h
  constructor
  · intro hagain
    have hkept := (cleanUrl_shape hagain).1
    have hwhole : trim url.toList = url.toList :=
      (dropEndWhile_trim_of_length (by rw [← hkept])).symm.trans hkept.symm
    rw [← hwhole]
    exact trimmed_trim fun hblanks => absurd (hblanks 'h' (List.mem_of_mem_head? hhead)) (by decide)
  · intro htrimmed
    have hkept : dropEndWhile (· == '/') (trim url.toList) = url.toList := by
      rw [htrimmed.trim_eq]
      exact dropEndWhile_eq_self fun c hc => by simpa using getLast_cleanUrl h c hc
    rw [cleanUrl]
    simp only [hkept]
    rw [if_pos, String.ofList_toList]
    rwa [Bool.or_eq_true, List.isPrefixOf_iff_prefix, List.isPrefixOf_iff_prefix]

theorem nonBlank_self {rule : Rule} (h : nonBlank rule s = .ok name) :
    nonBlank rule name = .ok name := by
  simp only [nonBlank] at h
  split at h
  · cases h
  · rename_i hfull
    obtain rfl := Except.ok.inj h
    simp [nonBlank, strip_strip, hfull]

theorem environmentName_self (h : environmentName s = .ok name) :
    environmentName name = .ok name := by
  simp only [environmentName] at h
  split at h
  · rename_i hname
    obtain rfl := Except.ok.inj h
    simp [environmentName, trim_trim, hname]
  · cases h

theorem singleLines_self {lines : List String} (h : ∀ line ∈ lines, SingleLine line) :
    singleLines lines = .ok lines := by
  have hstripped : lines.map strip = lines := by
    refine (List.map_congr_left fun line hline => ?_).trans (List.map_id lines)
    rw [strip, (h line hline).trimmed.trim_eq, String.ofList_toList, id]
  have hfull : lines.filter (!·.isEmpty) = lines := by
    refine List.filter_eq_self.mpr fun line hline => ?_
    simpa using (h line hline).trimmed.nonempty
  have hsingle : lines.any (·.toList.contains '\n') = false := by
    refine List.any_eq_false.mpr fun line hline => ?_
    simpa using (h line hline).single
  simp only [singleLines, hstripped, hfull, hsingle, Bool.false_eq_true, if_false]

theorem words_cleanSearch (s : String) : words (cleanSearch s) = words s := by
  have hchars : (cleanSearch s).toList = [' '].intercalate (wordsOf s.toList) := by
    rw [cleanSearch, String.toList_intercalate, words, List.map_map]
    simp [Function.comp_def]
  rw [words, hchars, wordsOf_intercalate fun w hw => isWord_of_mem_wordsOf hw, words]

theorem cleanSearch_cleanSearch (s : String) : cleanSearch (cleanSearch s) = cleanSearch s := by
  rw [cleanSearch, words_cleanSearch, cleanSearch]

theorem cleanSearches_self (searches : List String) :
    cleanSearches (cleanSearches searches) = cleanSearches searches := by
  have hnodup := (firstOccurrences_eraseDups ((searches.map cleanSearch).filter (!·.isEmpty))).nodup
  have hmem (search : String) (h : search ∈ cleanSearches searches) : cleanSearch search =
      search ∧ search ≠ "" := by
    obtain ⟨hin, hfull⟩ := List.mem_filter.mp (List.mem_eraseDups.mp h)
    obtain ⟨text, -, rfl⟩ := List.mem_map.mp hin
    exact ⟨cleanSearch_cleanSearch text, by simpa using hfull⟩
  have hmap : (cleanSearches searches).map cleanSearch = cleanSearches searches :=
    (List.map_congr_left fun search h => (hmem search h).1).trans (List.map_id _)
  have hfilter : (cleanSearches searches).filter (!·.isEmpty) = cleanSearches searches :=
    List.filter_eq_self.mpr fun search h => by simpa using (hmem search h).2
  rw [cleanSearches, hmap, hfilter]
  exact eraseDups_of_nodup hnodup

/-! ### Values read from what was written -/

theorem items_eq_valid {α β : Type} {f : α → Checked β} {n : Nat} {xs : List α} {ys : List β} :
    Checked.items f n xs = .valid ys ↔ List.Forall₂ (fun x y => f x = .valid y) xs ys := by
  induction xs generalizing n ys with
  | nil => cases ys <;> simp [Checked.items]
  | cons x xs ih =>
    cases ys with
    | nil => simp [Checked.items, Checked.both_eq_valid, Checked.map_eq_valid]
    | cons y ys => simp [Checked.items, Checked.both_eq_valid, Checked.map_eq_valid,
      Checked.within_eq_valid, ih]

theorem readText_eq_valid {v : Yaml} : readText v = .valid s ↔ spelled? v = some s := by
  unfold readText spelling
  cases hspelled : spelled? v with
  | none => cases v <;> simp [Checked.andThen, Checked.refuse]
  | some t => simp [Checked.andThen]

theorem ofItems_strings (texts : List String) : Yaml.ofItems (texts.map .string) =
    texts.map .text := by
  induction texts with
  | nil => rfl
  | cons text texts ih => rw [List.map_cons, Yaml.ofItems, ih, Yaml.ofJson, List.map_cons]

theorem ofItems_ints (numbers : List Int) : Yaml.ofItems (numbers.map .int) = numbers.map .int := by
  induction numbers with
  | nil => rfl
  | cons n numbers ih => rw [List.map_cons, Yaml.ofItems, ih, Yaml.ofJson, List.map_cons]

theorem readList_written {α : Type} {item : Yaml → Checked α} {write : α → Yaml} {xs : List α}
    (h : ∀ x ∈ xs, item (write x) = .valid x) :
    readList item (.list (xs.map write)) = .valid xs := by
  rw [readList, items_eq_valid, List.forall₂_map_left_iff]
  exact List.forall₂_same.mpr h

section Fields

variable {given : Option Yaml}

theorem obeying_written {f : String → Except Rule String} {standard t : String}
    (hf : ∀ s t, f s = .ok t → f t = .ok t) (hstandard : f standard = .ok standard)
    (h : Taken given standard (obeying f ∘ readText) t) :
    obeying f (readText (.text t)) = .valid t := by
  refine obeying_eq_valid.mpr ⟨t, rfl, ?_⟩
  refine h.holds (P := fun t => f t = .ok t) hstandard fun v t hv => ?_
  obtain ⟨s, -, hs⟩ := obeying_eq_valid.mp hv
  exact hf s t hs

theorem readBounded_written {least : Nat} {most : Option Nat} {standard n : Int}
    (hstandard : (least : Int) ≤ standard ∧ ∀ k ∈ most, standard ≤ (k : Nat))
    (h : Taken given standard (readBounded least most) n) :
    readBounded least most (.int n) = .valid n :=
  readBounded_eq_valid.mpr ⟨rfl, bounded_of_taken h hstandard⟩

theorem readPositiveNumber_written {standard x : Float} (hstandard : ¬ standard ≤ 0)
    (h : Taken given standard readPositiveNumber x) : readPositiveNumber (.float x) = .valid x := by
  have hpositive : ¬ x ≤ 0 := by
    refine h.holds (P := fun x => ¬ x ≤ 0) hstandard fun v x hv => ?_
    obtain ⟨y, -, hy⟩ := Checked.andThen_eq_valid.mp hv
    split at hy
    · cases hy
    · rename_i hlow
      cases hy
      exact hlow
  exact if_neg hpositive

theorem readNaming_written (naming : Naming) : readNaming (.text naming.code) = .valid naming := by
  cases naming <;> rfl

def listed : Option Yaml → List Yaml
  | some (.list items) => items
  | _ => []

theorem exists_listed {α β : Type} {item : Yaml → Checked α} {g : List α → List β}
    {kept : List β} (hg : g [] = []) (h : Taken given [] (Checked.map g ∘ readList item) kept) :
    ∃ xs, List.Forall₂ (fun v x => item v = .valid x) (listed given) xs ∧ kept = g xs := by
  cases given with
  | none => exact ⟨[], .nil, (show kept = [] from h).trans hg.symm⟩
  | some v =>
    obtain ⟨xs, hxs, rfl⟩ := Checked.map_eq_valid.mp h
    cases v with
    | list items => exact ⟨xs, items_eq_valid.mp hxs, rfl⟩
    | _ => cases hxs

def SearchesOf (given : Option Yaml) (kept : List String) : Prop :=
  ∃ texts, List.Forall₂ (fun v text => spelled? v = some text) (listed given) texts ∧
    FirstOccurrences ((texts.map cleanSearch).filter (!·.isEmpty)) kept

def NumbersOf (given : Option Yaml) (kept : List Int) : Prop :=
  ∃ numbers, List.Forall₂ (fun v n => readInteger v = .valid n) (listed given) numbers ∧
    (∀ n ∈ numbers, 1 ≤ n) ∧ FirstOccurrences numbers kept

theorem searchesOf_of_taken {kept : List String}
    (h : Taken given [] (Checked.map cleanSearches ∘ readList readText) kept) :
    SearchesOf given kept := by
  obtain ⟨texts, htexts, rfl⟩ := exists_listed rfl h
  exact ⟨texts, htexts.imp fun _ _ hread => readText_eq_valid.mp hread,
    firstOccurrences_eraseDups _⟩

theorem numbersOf_of_taken {kept : List Int}
    (h : Taken given [] (Checked.map List.eraseDups ∘ readList (readBounded 1 none)) kept) :
    NumbersOf given kept := by
  obtain ⟨numbers, hnumbers, rfl⟩ := exists_listed rfl h
  have hboth : List.Forall₂ (fun n v => 1 ≤ n ∧ readInteger v = .valid n) numbers
      (listed given) := by
    refine List.Forall₂.flip (hnumbers.imp fun v n hread => ?_)
    obtain ⟨hinteger, hpositive, -⟩ := readBounded_eq_valid.mp hread
    exact ⟨hpositive, hinteger⟩
  obtain ⟨hpositive, hread⟩ := (List.forall₂_and_left _ _).mp hboth
  exact ⟨numbers, hread.flip, hpositive, firstOccurrences_eraseDups _⟩

theorem cleanSearches_written {kept : List String}
    (h : Taken given [] (Checked.map cleanSearches ∘ readList readText) kept) :
    Checked.map cleanSearches (readList readText (.list (kept.map .text))) = .valid kept := by
  obtain ⟨searches, -, rfl⟩ := exists_listed rfl h
  exact Checked.map_eq_valid.mpr ⟨_, readList_written fun _ _ => rfl, cleanSearches_self searches⟩

theorem eraseDups_written {kept : List Int} (h : NumbersOf given kept) :
    Checked.map List.eraseDups (readList (readBounded 1 none) (.list (kept.map .int))) =
      .valid kept := by
  obtain ⟨numbers, -, hpositive, hfirst⟩ := h
  refine Checked.map_eq_valid.mpr ⟨kept, readList_written fun n hn => ?_,
    eraseDups_of_nodup hfirst.nodup⟩
  exact readBounded_eq_valid.mpr ⟨rfl, hpositive n ((hfirst.mem_iff n).mp hn), nofun⟩

/-- An address was cleaned. Where white space stood in front of its last slashes, it
ends in white space now. -/
structure AddressOf (given : Option Yaml) (url : String) : Prop where
  starts : ∀ c ∈ url.toList.head?, isBlank c = false
  ends : ∀ c ∈ url.toList.getLast?, c ≠ '/'
  trimmed_iff : Trimmed url.toList ↔ ∀ text ∈ given.bind spelled?, ¬ BlankBefore '/' text.toList

theorem exists_cleaned {standard url : String} (hstandard : cleanUrl standard = .ok standard)
    (h : Taken given standard (obeying cleanUrl ∘ readText) url) : ∃ s, cleanUrl s = .ok url := by
  refine h.holds (P := fun url => ∃ s, cleanUrl s = .ok url) ⟨standard, hstandard⟩ fun v url hv =>
    ?_
  obtain ⟨s, -, hs⟩ := obeying_eq_valid.mp hv
  exact ⟨s, hs⟩

theorem addressOf_of_taken {standard url : String} (hstandard : cleanUrl standard = .ok standard)
    (h : Taken given standard (obeying cleanUrl ∘ readText) url) : AddressOf given url := by
  obtain ⟨s, hclean⟩ := exists_cleaned hstandard h
  refine ⟨fun c hc => ?_, getLast_cleanUrl hclean, ?_⟩
  · rw [head_cleanUrl hclean, Option.mem_some_iff] at hc
    exact hc ▸ rfl
  · cases given with
    | none =>
      obtain rfl : url = standard := h
      simpa using (cleanUrl_self_iff hstandard).mp hstandard
    | some v =>
      obtain ⟨text, hread, htext⟩ := obeying_eq_valid.mp h
      rw [trimmed_cleanUrl_iff htext, Option.bind_some, readText_eq_valid.mp hread]
      simp

theorem address_written_iff {standard url : String} (hstandard : cleanUrl standard = .ok standard)
    (h : Taken given standard (obeying cleanUrl ∘ readText) url) :
    obeying cleanUrl (readText (.text url)) = .valid url ↔ Trimmed url.toList := by
  obtain ⟨s, hclean⟩ := exists_cleaned hstandard h
  rw [← cleanUrl_self_iff hclean, obeying_eq_valid]
  simp [readText_eq_valid, spelled?]

end Fields

/-! ### Sections read from what was written -/

section Sections

variable {es : Yaml.Entries}

theorem Site.read_written_iff {site : Site} (h : Site.read (.mapping es) = .valid site) :
    Site.read (.ofJson site.record) = .valid site ↔ Trimmed site.baseUrl.toList ∧
    Trimmed site.safeBaseUrl.toList := by
  obtain ⟨⟨hurl, hsafe, -, hagent, htimeout, hperPage, hpages, hattempts⟩, -⟩ :=
    Site.read_eq_valid.mp h
  have hagent' := obeying_written (fun _ _ => nonBlank_self) (by rfl) hagent
  have htimeout' := readPositiveNumber_written (by decide) htimeout
  have hperPage' := readBounded_written (by simp) hperPage
  have hpages' := readBounded_written (by simp) hpages
  have hattempts' := readBounded_written (by simp) hattempts
  have htruth : readTruth (.bool site.safeMode) = .valid site.safeMode := rfl
  rw [Site.record, Yaml.ofJson, Site.read_eq_valid]
  simp [Yaml.ofMembers, Yaml.Entries.get?, Yaml.ofJson, Taken, strayIssue, hagent', htimeout',
    hperPage', hpages', hattempts', htruth, address_written_iff (by rfl) hurl,
    address_written_iff (by rfl) hsafe]

theorem Login.read_written {login : Login} (h : Login.read (.mapping es) = .valid login) :
    Login.read (.ofJson login.record) = .valid login := by
  obtain ⟨⟨husername, hkey⟩, -⟩ := Login.read_eq_valid.mp h
  have husername' : Checked.map strip (readText (.text login.username)) =
      .valid login.username := by
    refine Checked.map_eq_valid.mpr ⟨_, rfl, ?_⟩
    refine husername.holds (P := fun name => strip name = name) rfl fun v name hv => ?_
    obtain ⟨text, -, rfl⟩ := Checked.map_eq_valid.mp hv
    exact strip_strip text
  have hkey' := obeying_written (fun _ _ => environmentName_self) (by rfl) hkey
  rw [Login.record, Yaml.ofJson, Login.read_eq_valid]
  simp [Yaml.ofMembers, Yaml.Entries.get?, Yaml.ofJson, Taken, strayIssue, husername', hkey']

theorem Hiding.read_written {wanted : Hiding} (h : wanted.Lined) :
    Hiding.read (.ofJson wanted.record) = .valid wanted := by
  have hlines : obeying singleLines (readList readText (.list (wanted.extraLines.map .text))) =
      .valid wanted.extraLines :=
    obeying_eq_valid.mpr ⟨_, readList_written fun _ _ => rfl, singleLines_self h⟩
  have htruth (b : Bool) : readTruth (.bool b) = .valid b := rfl
  rw [Hiding.record, Yaml.ofJson, Hiding.read_eq_valid]
  simp [Yaml.ofMembers, Yaml.Entries.get?, Yaml.ofJson, Json.ofStrings, ofItems_strings,
    Taken, strayIssue, htruth, hlines]

theorem Download.read_written {wanted : Download}
    (h : Download.read (.mapping es) = .valid wanted) :
    Download.read (.ofJson wanted.record) = .valid wanted := by
  obtain ⟨⟨hdirectory, -, -, hartists, hgeneral, hpools, hsets, hposts⟩, -⟩ :=
    Download.read_eq_valid.mp h
  have hdirectory' := obeying_written (fun _ _ => nonBlank_self) (by rfl) hdirectory
  have hartists' := cleanSearches_written hartists
  have hgeneral' := cleanSearches_written hgeneral
  have hpools' := eraseDups_written (numbersOf_of_taken hpools)
  have hsets' := eraseDups_written (numbersOf_of_taken hsets)
  have hposts' := eraseDups_written (numbersOf_of_taken hposts)
  have htruth : readTruth (.bool wanted.favorites) = .valid wanted.favorites := rfl
  rw [Download.record, Yaml.ofJson, Download.read_eq_valid]
  simp [Yaml.ofMembers, Yaml.Entries.get?, Yaml.ofJson, Json.ofStrings, ofItems_strings,
    ofItems_ints, Taken, strayIssue, hdirectory', readNaming_written, hartists', hgeneral',
    hpools', hsets', hposts', htruth]

end Sections

theorem ofYaml_written_iff {path : String} {s : Settings} : ofYaml path (.ofJson s.record) = .ok s ↔
    Site.read (.ofJson s.site.record) = .valid s.site ∧
    Login.read (.ofJson s.login.record) = .valid s.login ∧
      Hiding.read (.ofJson s.blacklist.record) = .valid s.blacklist ∧
      Download.read (.ofJson s.download.record) = .valid s.download := by
  have hentries : ofYaml path (.ofJson s.record) = .ok s ↔
      ofEntries (Yaml.ofMembers [("site", s.site.record),
      ("login", s.login.record), ("blacklist", s.blacklist.record),
        ("download", s.download.record)]) = .valid s := by
    rw [Settings.record, Yaml.ofJson, ofYaml]
    split <;> simp [*]
  rw [hentries, ofEntries_eq_valid]
  simp [Yaml.ofMembers, Yaml.Entries.get?, Taken, strayIssue]

/-- Settings that were read from a document, written down and read again, are the same exactly when
their addresses do not end in white space, which they do where white space stood in front of their
last slashes in the document. In no case does an address start with white space or end in a slash.
The lines for the blacklist are single ones. The searches and the numbers are those of the document
in their normal form, each where it is given first. -/
theorem read_again_unless_blank_before_slashes (path : String) (document : Yaml) (s : Settings)
    (h : ofYaml path document = .ok s) :
    (ofYaml path (.ofJson s.record) = .ok s ↔
      Trimmed s.site.baseUrl.toList ∧ Trimmed s.site.safeBaseUrl.toList) ∧
    AddressOf ((sectionOf document "site").get? "base_url") s.site.baseUrl ∧
    AddressOf ((sectionOf document "site").get? "safe_base_url") s.site.safeBaseUrl ∧
    s.blacklist.Lined ∧
    SearchesOf ((sectionOf document "download").get? "artists") s.download.artists ∧
    SearchesOf ((sectionOf document "download").get? "general") s.download.general ∧
    NumbersOf ((sectionOf document "download").get? "pools") s.download.pools ∧
    NumbersOf ((sectionOf document "download").get? "sets") s.download.sets ∧
    NumbersOf ((sectionOf document "download").get? "posts") s.download.posts := by
  obtain ⟨hsite, hlogin, -, hdownload⟩ := sections_ofYaml h
  obtain ⟨⟨hurl, hsafe, -⟩, -⟩ := Site.read_eq_valid.mp hsite
  obtain ⟨⟨-, -, -, hartists, hgeneral, hpools, hsets, hposts⟩, -⟩ :=
    Download.read_eq_valid.mp hdownload
  have hlined := lined_ofYaml h
  refine ⟨?_, addressOf_of_taken (by rfl) hurl, addressOf_of_taken (by rfl) hsafe, hlined,
    searchesOf_of_taken hartists, searchesOf_of_taken hgeneral, numbersOf_of_taken hpools,
    numbersOf_of_taken hsets, numbersOf_of_taken hposts⟩
  rw [ofYaml_written_iff, Site.read_written_iff hsite]
  simp [Login.read_written hlogin, Hiding.read_written hlined, Download.read_written hdownload]

def spacedAddress : Yaml :=
  .mapping [(.text "site", .mapping [(.text "base_url", .text "http://a /")])]

theorem read_again_spacedAddress :
    ofYaml "config.yaml" spacedAddress = .ok { site := { baseUrl := "http://a " } } ∧
    ofYaml "config.yaml" (.ofJson (record { site := { baseUrl := "http://a " } })) ≠
      .ok { site := { baseUrl := "http://a " } } := by
  have h : ofYaml "config.yaml" spacedAddress = .ok { site := { baseUrl := "http://a " } } := by rfl
  refine ⟨h, fun hagain => ?_⟩
  obtain ⟨htrimmed, -⟩ := (read_again_unless_blank_before_slashes _ _ _ h).1.mp hagain
  exact absurd (htrimmed.ends ' ' (by decide)) (by decide)

end Settings
end Booru
