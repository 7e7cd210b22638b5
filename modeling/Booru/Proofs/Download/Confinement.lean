import Booru.Proofs.Collection.Targets
import Booru.Proofs.Download.Ownership
import Booru.Proofs.Download.Recording
import Booru.Proofs.Files.Spelling

/-! Downloads stay below their directory, whatever names the board gives to
posts and to collections. -/

namespace Booru

variable {σ : Type}

theorem SafeName.slash_notMem {name : String} (h : SafeName name) : '/' ∉ name.toList :=
  fun hmem => absurd (h.chars _ hmem).1 (by decide)

namespace Collection

def steps (c : Collection) (q : GrabbedPost) : List String := c.place ++ [cleanComponent q.name]

theorem target_eq_descend (root : Path) (c : Collection) (q : GrabbedPost) :
    c.target root q = root.descend (c.steps q) :=
  c.target_eq root q

theorem length_steps (c : Collection) (q : GrabbedPost) :
    (c.steps q).length = if c.category = "" then 2 else 3 := by
  unfold steps place
  by_cases hcategory : c.category = "" <;> simp [hcategory]

theorem safeName_of_mem_steps {c : Collection} {q : GrabbedPost} : ∀ name ∈ c.steps q,
    SafeName name := by
  have hplace : ∀ name ∈ c.place, SafeName name := by
    unfold place
    split <;> simp [safeName_cleanComponent]
  exact List.forall_mem_append.mpr
    ⟨hplace, List.forall_mem_singleton.mpr (safeName_cleanComponent q.name)⟩

end Collection

/-- Every path a download asks for is the target of a post, and leads from the download
directory down by two or three safe names. Its text is read back as the same path, and it leads
to a place below the directory. -/
theorem download_stays_below_root (root : Path) :
    (∀ (fetcher : FileFetcher σ) (journal : Journal σ) (cs : List Collection) (s : σ),
      ∀ r ∈ fetcher.requests journal root cs s, ∃ c ∈ cs, ∃ q ∈ c.posts, r.path = c.target root q) ∧
    ∀ (c : Collection) (q : GrabbedPost), ∃ names : List String,
      c.target root q = root.descend names ∧
      names.length = (if c.category = "" then 2 else 3) ∧ (∀ name ∈ names, SafeName name) ∧
      (root.Normal → Path.ofString (c.target root q).text = c.target root q) ∧
      ∀ (t : FileTree) (l : Location), t.locate? (c.target root q) = .ok l →
        ∃ top, t.locate? root = .ok top ∧ l = top ++ names := by
  refine ⟨fun fetcher journal cs s r hr => ?_, fun c q => ?_⟩
  · obtain ⟨job, hjob, hpath⟩ :=
      List.mem_map.mp (FileFetcher.path_mem_targets fetcher journal root cs s r hr)
    obtain ⟨c, hc, q, hq, rfl⟩ := FileFetcher.mem_jobs.mp hjob
    exact ⟨c, hc, q, hq, hpath.symm⟩
  · have hsafe : ∀ name ∈ c.steps q, SafeName name := Collection.safeName_of_mem_steps
    refine ⟨c.steps q, c.target_eq_descend root q, c.length_steps q, hsafe, fun hroot => ?_,
      fun t l hplace => ?_⟩
    · have hnormal : (root.descend (c.steps q)).Normal :=
        hroot.descend fun name h =>
          ⟨(hsafe name h).full, (hsafe name h).away, (hsafe name h).slash_notMem⟩
      rw [c.target_eq_descend]
      exact hnormal.ofString_text
    · rw [c.target_eq_descend] at hplace
      have hdown : ".." ∉ c.steps q := fun h => (hsafe _ h).down rfl
      exact Path.locate?_descend (fun name h => (hsafe name h).full) hdown hplace

/-! ### Names that lead astray -/

def emptyFetcher : FileFetcher Unit where
  exists? := fun _ => pure false
  fetch := fun _ _ => pure 0

def hostileCollection : Collection := ⟨" .. ", "../../etc", [⟨1, "u/1", "/etc/passwd", 0⟩]⟩

def hostileTree : FileTree where
  entries := [["srv"], ["srv", "out"], ["srv", "out", ".._.._etc"],
    ["srv", "out", ".._.._etc", "_"]].map
    fun l => (l, .directory)

theorem hostile_names_stay_below_root :
    (∃ c ∈ [hostileCollection], ∃ q ∈ c.posts,
      (⟨"/", ["srv", "out", ".._.._etc", "_", "_etc_passwd"]⟩ : Path) =
        c.target ⟨"/", ["srv", "out"]⟩ q) ∧
    ∃ (q : GrabbedPost) (names : List String), q.name = "/etc/passwd" ∧
      hostileCollection.target ⟨"/", ["srv", "out"]⟩ q = Path.descend ⟨"/", ["srv", "out"]⟩ names ∧
      names.length = 3 ∧ (∀ name ∈ names, SafeName name) ∧
      Path.ofString "/srv/out/.._.._etc/_/_etc_passwd" =
        hostileCollection.target ⟨"/", ["srv", "out"]⟩ q ∧
      ∃ top, hostileTree.locate? ⟨"/", ["srv", "out"]⟩ = .ok top ∧
        ["srv", "out", ".._.._etc", "_", "_etc_passwd"] = top ++ names := by
  obtain ⟨hrequests, htargets⟩ := @download_stays_below_root Unit ⟨"/", ["srv", "out"]⟩
  have hlook : FileFetcher.Request.look ⟨"/", ["srv", "out", ".._.._etc", "_", "_etc_passwd"]⟩ ∈
      emptyFetcher.requests none ⟨"/", ["srv", "out"]⟩ [hostileCollection] () := List.mem_cons_self
  obtain ⟨names, htarget, hlength, hsafe, htext, hplace⟩ :=
    htargets hostileCollection ⟨1, "u/1", "/etc/passwd", 0⟩
  exact ⟨hrequests emptyFetcher none [hostileCollection] () _ hlook,
    ⟨1, "u/1", "/etc/passwd", 0⟩, names, rfl, htarget, hlength, hsafe,
    htext (Path.normal_ofString "/srv/out"), hplace hostileTree _ rfl⟩

end Booru
