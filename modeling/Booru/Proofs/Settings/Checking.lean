import Mathlib.Tactic.Simproc.ExistsAndEq
import Booru.Proofs.Text.Trimming
import Booru.Settings.Validation

/-! Valid settings. A value that is valid is put together of valid parts, and a part is either the
standard one or was read from what its section has for it; so what holds of the standard and of all
that can be read holds of every valid value. -/

namespace Booru

namespace Checked

variable {α β : Type} {x : Checked α} {a : α} {b : β}

theorem map_eq_valid {g : α → β} : x.map g = .valid b ↔ ∃ a, x = .valid a ∧ g a = b := by
  cases x <;> simp [map]

theorem both_eq_valid {f : Checked (α → β)} :
    f.both x = .valid b ↔ ∃ g, f = .valid g ∧ ∃ a, x = .valid a ∧ g a = b := by
  cases f <;> cases x <;> simp [both]

theorem andThen_eq_valid {f : α → Checked β} : x.andThen f = .valid b ↔ ∃ a, x = .valid a ∧
    f a = .valid b := by
  cases x <;> simp [andThen]

theorem within_eq_valid {name : String} : x.within name = .valid a ↔ x = .valid a := by
  cases x <;> simp [within]

theorem besides_eq_valid {issues : List Issue} : x.besides issues = .valid a ↔
    x = .valid a ∧ issues = [] := by
  cases x with
  | valid b => by_cases h : issues = [] <;> simp [besides, h]
  | invalid first => simp [besides]

end Checked

namespace Settings

variable {α β : Type} {given : Option Yaml} {standard a : α} {read : Yaml → Checked α}
  {es : Yaml.Entries}

/-- The field was read from this value, or is the standard one where none is given. -/
def Taken (given : Option Yaml) (standard : α) (read : Yaml → Checked α) (a : α) : Prop :=
  match given with
  | none => a = standard
  | some v => read v = .valid a

theorem field_eq_valid {name : String} :
    field es name standard read = .valid a ↔ Taken (es.get? name) standard read a := by
  unfold field Taken
  cases es.get? name with
  | none => simp [eq_comm]
  | some v => exact Checked.within_eq_valid

theorem Taken.holds {P : α → Prop} (h : Taken given standard read a) (hstandard : P standard)
    (hread : ∀ v b, read v = .valid b → P b) : P a := by
  cases given with
  | none => exact h ▸ hstandard
  | some v => exact hread v a h

/-! A record is read field by field. Its constructor is injective, so what each of the fields was
taken for can be told from the record. -/

theorem firstField_eq_valid {name : String} {make : α → β} {b : β} :
    make <$> field es name standard read = .valid b ↔ ∃ a,
    Taken (es.get? name) standard read a ∧ make a = b := by
  simp only [← field_eq_valid]
  exact Checked.map_eq_valid

theorem nextField_eq_valid {name : String} {before : Checked (α → β)} {b : β} :
    before <*> field es name standard read = .valid b ↔
      ∃ make, before = .valid make ∧ ∃ a, Taken (es.get? name) standard read a ∧ make a = b := by
  simp only [← field_eq_valid]
  exact Checked.both_eq_valid

theorem fieldsOnly_eq_valid {known : List String} {fields : Checked α} :
    fieldsOnly known es fields = .valid a ↔
      fields = .valid a ∧ ∀ e ∈ es, strayIssue known e.1 = none := by
  rw [fieldsOnly, Checked.besides_eq_valid, List.filterMap_eq_nil_iff]

theorem readSection_eq_valid {name : String} {known : List String}
    {fields : Yaml.Entries → Checked α} :
    readSection name known fields (.mapping es) = .valid a ↔
      fields es = .valid a ∧ ∀ e ∈ es, strayIssue known e.1 = none := fieldsOnly_eq_valid

theorem exists_of_readSection {name : String} {known : List String}
    {fields : Yaml.Entries → Checked α} {v : Yaml}
    (h : readSection name known fields v = .valid a) : ∃ es, v = .mapping es := by
  cases v with
  | mapping es => exact ⟨es, rfl⟩
  | _ => cases h

theorem obeying_eq_valid {f : α → Except Rule β} {x : Checked α} {b : β} :
    obeying f x = .valid b ↔ ∃ a, x = .valid a ∧ f a = .ok b := by
  rw [obeying, Checked.andThen_eq_valid]
  refine exists_congr fun a => and_congr_right fun _ => ?_
  cases f a <;> simp [Checked.refuse]

/-! ### Sections and their fields -/

theorem Site.read_eq_valid {site : Site} : Site.read (.mapping es) = .valid site ↔
    (Taken (es.get? "base_url") "https://e621.net" (obeying cleanUrl ∘ readText) site.baseUrl ∧
      Taken (es.get? "safe_base_url") "https://e926.net"
        (obeying cleanUrl ∘ readText) site.safeBaseUrl ∧
      Taken (es.get? "safe_mode") false readTruth site.safeMode ∧
      Taken (es.get? "user_agent") "e6dl/0.1.0 (blacklist-aware downloader)"
        (obeying (nonBlank .nonEmptyText) ∘ readText) site.userAgent ∧
      Taken (es.get? "timeout_seconds") 60 readPositiveNumber site.timeoutSeconds ∧
      Taken (es.get? "posts_per_page") 320 (readBounded 1 (some 320)) site.postsPerPage ∧
      Taken (es.get? "max_pages") 5 (readBounded 0 none) site.maxPages ∧
      Taken (es.get? "max_attempts") 4 (readBounded 1 none) site.maxAttempts) ∧
    ∀ e ∈ es, strayIssue ["base_url", "safe_base_url", "safe_mode", "user_agent", "timeout_seconds",
      "posts_per_page", "max_pages", "max_attempts"] e.1 = none := by
  cases site
  simp only [Site.read, readSection_eq_valid, nextField_eq_valid,
    firstField_eq_valid, Site.mk.injEq, existsAndEq, and_true, and_assoc]

theorem Login.read_eq_valid {login : Login} : Login.read (.mapping es) = .valid login ↔
    (Taken (es.get? "username") "" (Checked.map Text.strip ∘ readText) login.username ∧
      Taken (es.get? "api_key_env") "E621_API_KEY" (obeying environmentName ∘ readText)
        login.apiKeyEnv) ∧
    ∀ e ∈ es, strayIssue ["username", "api_key_env"] e.1 = none := by
  cases login
  simp only [Login.read, readSection_eq_valid, nextField_eq_valid,
    firstField_eq_valid, Login.mk.injEq, existsAndEq, and_true, and_assoc]

theorem Hiding.read_eq_valid {wanted : Hiding} : Hiding.read (.mapping es) = .valid wanted ↔
    (Taken (es.get? "enabled") true readTruth wanted.enabled ∧
      Taken (es.get? "skip_when_unauthenticated") true readTruth wanted.skipWhenAnonymous ∧
      Taken (es.get? "extra_lines") []
        (obeying singleLines ∘ readList readText) wanted.extraLines) ∧
    ∀ e ∈ es, strayIssue ["enabled", "skip_when_unauthenticated", "extra_lines"] e.1 = none := by
  cases wanted
  simp only [Hiding.read, readSection_eq_valid, nextField_eq_valid,
    firstField_eq_valid, Hiding.mk.injEq, existsAndEq, and_true, and_assoc]

theorem Download.read_eq_valid {wanted : Download} : Download.read (.mapping es) = .valid wanted ↔
    (Taken (es.get? "directory") "downloads" (obeying (nonBlank .nonEmptyPath) ∘ readText)
      wanted.directory ∧ Taken (es.get? "naming_convention") .md5 readNaming wanted.naming ∧
      Taken (es.get? "favorites") true readTruth wanted.favorites ∧
      Taken (es.get? "artists") [] (Checked.map cleanSearches ∘ readList readText) wanted.artists ∧
      Taken (es.get? "general") [] (Checked.map cleanSearches ∘ readList readText) wanted.general ∧
      Taken (es.get? "pools") []
        (Checked.map List.eraseDups ∘ readList (readBounded 1 none)) wanted.pools ∧
      Taken (es.get? "sets") []
        (Checked.map List.eraseDups ∘ readList (readBounded 1 none)) wanted.sets ∧
      Taken (es.get? "posts") []
        (Checked.map List.eraseDups ∘ readList (readBounded 1 none)) wanted.posts) ∧
    ∀ e ∈ es, strayIssue ["directory", "naming_convention", "favorites", "artists",
      "general", "pools", "sets", "posts"] e.1 = none := by
  cases wanted
  simp only [Download.read, readSection_eq_valid, nextField_eq_valid,
    firstField_eq_valid, Download.mk.injEq, existsAndEq, and_true, and_assoc]

theorem ofEntries_eq_valid {s : Settings} : ofEntries es = .valid s ↔
    (Taken (es.get? "site") {} Site.read s.site ∧ Taken (es.get? "login") {} Login.read s.login ∧
      Taken (es.get? "blacklist") {} Hiding.read s.blacklist ∧
      Taken (es.get? "download") {} Download.read s.download) ∧
    ∀ e ∈ es, strayIssue ["site", "login", "blacklist", "download"] e.1 = none := by
  cases s
  simp only [ofEntries, fieldsOnly_eq_valid, nextField_eq_valid,
    firstField_eq_valid, Settings.mk.injEq, existsAndEq, and_true, and_assoc]

def sectionOf (document : Yaml) (name : String) : Yaml.Entries :=
  match document with
  | .mapping es => match Yaml.Entries.get? es name with
    | some (.mapping fields) => fields
    | _ => []
  | _ => []

theorem read_sectionOf {name part : String} {known : List String}
    {fields : Yaml.Entries → Checked α}
    (hempty : readSection part known fields (.mapping []) = .valid standard)
    (h : Taken (es.get? name) standard (readSection part known fields) a) :
    readSection part known fields (.mapping (sectionOf (.mapping es) name)) = .valid a := by
  unfold sectionOf
  dsimp only
  cases hgiven : es.get? name with
  | none =>
    rw [hgiven] at h
    rw [show a = standard from h]
    exact hempty
  | some v =>
    rw [hgiven] at h
    obtain ⟨fields, rfl⟩ := exists_of_readSection h
    exact h

theorem sections_ofYaml {path : String} {document : Yaml} {s : Settings}
    (h : ofYaml path document = .ok s) :
    Site.read (.mapping (sectionOf document "site")) = .valid s.site ∧
      Login.read (.mapping (sectionOf document "login")) = .valid s.login ∧
      Hiding.read (.mapping (sectionOf document "blacklist")) = .valid s.blacklist ∧
      Download.read (.mapping (sectionOf document "download")) = .valid s.download := by
  cases document with
  | null =>
    cases h
    exact ⟨rfl, rfl, rfl, rfl⟩
  | mapping es =>
    simp only [ofYaml] at h
    split at h
    · rename_i s' hvalid
      cases h
      obtain ⟨⟨hsite, hlogin, hwanted, hdownload⟩, -⟩ := ofEntries_eq_valid.mp hvalid
      exact ⟨read_sectionOf rfl hsite, read_sectionOf rfl hlogin, read_sectionOf rfl hwanted,
        read_sectionOf rfl hdownload⟩
    · cases h
  | _ => cases h

/-! ### Lines of a blacklist -/

structure SingleLine (line : String) : Prop where
  trimmed : Text.Trimmed line.toList
  single : '\n' ∉ line.toList

theorem singleLine_of_singleLines {lines checked : List String}
    (h : singleLines lines = .ok checked) :
    ∀ line ∈ checked, SingleLine line := by
  simp only [singleLines] at h
  split at h
  · cases h
  · rename_i hsingle
    cases h
    intro line hline
    obtain ⟨hin, hfull⟩ := List.mem_filter.mp hline
    obtain ⟨text, -, rfl⟩ := List.mem_map.mp hin
    refine ⟨?_, fun hbreak => hsingle (List.any_eq_true.mpr ⟨_, hline, by simpa using hbreak⟩)⟩
    have hblank : ¬ Text.Blanks text.toList := by
      intro hblank
      simp [Text.strip, Text.trim_blanks hblank] at hfull
    simpa [Text.strip] using Text.trimmed_trim hblank

def Hiding.Lined (wanted : Hiding) : Prop := ∀ line ∈ wanted.extraLines, SingleLine line

theorem lined_ofYaml {path : String} {document : Yaml} {s : Settings}
    (h : ofYaml path document = .ok s) :
    s.blacklist.Lined := by
  obtain ⟨-, -, hwanted, -⟩ := sections_ofYaml h
  obtain ⟨-, -, hlines⟩ := (Hiding.read_eq_valid.mp hwanted).1
  refine hlines.holds (P := fun lines => ∀ line ∈ lines, SingleLine line) (List.forall_mem_nil _)
    fun v checked hv => ?_
  obtain ⟨texts, -, hchecked⟩ := obeying_eq_valid.mp hv
  exact singleLine_of_singleLines hchecked

/-! ### Numbers of a site -/

structure Site.Bounded (site : Site) : Prop where
  pages : 0 ≤ site.maxPages
  nonempty : 1 ≤ site.postsPerPage
  full : site.postsPerPage ≤ 320
  attempts : 1 ≤ site.maxAttempts

theorem inRange_eq_valid {least : Nat} {most : Option Nat} {n m : Int} :
    inRange least most n = .valid m ↔
    n = m ∧ (least : Int) ≤ n ∧ ∀ k ∈ most, n ≤ (k : Nat) := by
  cases most with
  | none =>
    by_cases hlow : n < least
    · simp [inRange, hlow, Checked.refuse]
    · simpa [inRange, hlow] using fun _ => Int.not_lt.mp hlow
  | some most =>
    by_cases hhigh : (most : Int) < n
    · simp [inRange, hhigh, Checked.refuse]
    · by_cases hlow : n < least
      · simp [inRange, hhigh, hlow, Checked.refuse]
      · simpa [inRange, hhigh, hlow] using fun _ => ⟨Int.not_lt.mp hlow, Int.not_lt.mp hhigh⟩

theorem readBounded_eq_valid {least : Nat} {most : Option Nat} {v : Yaml} {n : Int} :
    readBounded least most v = .valid n ↔ readInteger v = .valid n ∧ (least : Int) ≤ n ∧
    ∀ k ∈ most, n ≤ (k : Nat) := by
  simp only [readBounded, Checked.andThen_eq_valid, inRange_eq_valid]
  constructor
  · rintro ⟨_, hread, rfl, hrange⟩
    exact ⟨hread, hrange⟩
  · rintro ⟨hread, hrange⟩
    exact ⟨n, hread, rfl, hrange⟩

theorem bounded_of_taken {least : Nat} {most : Option Nat} {standard n : Int}
    (h : Taken given standard (readBounded least most) n)
    (hstandard : (least : Int) ≤ standard ∧ ∀ k ∈ most, standard ≤ (k : Nat)) :
    (least : Int) ≤ n ∧ ∀ k ∈ most, n ≤ (k : Nat) :=
  h.holds (P := fun n => (least : Int) ≤ n ∧ ∀ k ∈ most, n ≤ (k : Nat)) hstandard fun _ _ hv =>
    (readBounded_eq_valid.mp hv).2

theorem bounded_ofYaml {path : String} {document : Yaml} {s : Settings}
    (h : ofYaml path document = .ok s) :
    s.site.Bounded := by
  obtain ⟨hsite, -⟩ := sections_ofYaml h
  obtain ⟨-, -, -, -, -, hperPage, hpages, hattempts⟩ := (Site.read_eq_valid.mp hsite).1
  have hfull := bounded_of_taken hperPage (by simp)
  exact ⟨(bounded_of_taken hpages (by simp)).1, hfull.1, hfull.2 320 rfl,
    (bounded_of_taken hattempts (by simp)).1⟩

/-! ### Names of users -/

def Login.Stripped (login : Login) : Prop := Text.strip login.username = login.username

theorem stripped_ofYaml {path : String} {document : Yaml} {s : Settings}
    (h : ofYaml path document = .ok s) :
    s.login.Stripped := by
  obtain ⟨-, hlogin, -⟩ := sections_ofYaml h
  obtain ⟨husername, -⟩ := (Login.read_eq_valid.mp hlogin).1
  refine husername.holds (P := fun name => Text.strip name = name) rfl fun v name hv => ?_
  obtain ⟨text, -, rfl⟩ := Checked.map_eq_valid.mp hv
  exact Text.strip_strip text

end Settings
end Booru
