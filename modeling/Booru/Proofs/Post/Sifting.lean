import Booru.Blacklist.Basic
import Booru.Post
import Booru.Proofs.Post.Totality

/-! What the filters make of a list of entries. Some give no post at all; of the posts a blacklist
hides some, and some of those that it shows cannot be downloaded. The others are kept. -/

namespace Booru

theorem length_sub_kept {α : Type} (p : α → Bool) (xs : List α) :
    xs.length - (xs.filter (!p ·)).length = xs.countP p := by
  have hlength := xs.length_eq_countP_add_countP p
  have hkept : xs.countP (fun x => ¬ p x = true) = (xs.filter (!p ·)).length := by
    simp [List.countP_eq_length_filter]
  omega

namespace Post

def Readable (entry : Json) : Prop := ∃ post?, ofEntry? entry = .ok post?

def hiddenBy (blacklist : Option Blacklist) (p : Post) : Bool := blacklist.any (·.hides p)

theorem Readable.ofEntry {entry : Json} (h : Readable entry) :
    ofEntry? entry = .ok (normal? entry) := by
  obtain ⟨post?, hpost⟩ := h
  rw [ofEntry_eq] at hpost ⊢
  obtain ⟨hhonest, -⟩ := afterReading_eq_ok.mp hpost
  exact afterReading_eq_ok.mpr ⟨hhonest, rfl⟩

theorem Readable.ofEntries {entries : List Json} (h : ∀ entry ∈ entries, Readable entry) :
    ofEntries entries =
      .ok (entries.filterMap normal?, entries.countP fun entry => (normal? entry).isNone) := by
  induction entries with
  | nil => rfl
  | cons entry rest ih =>
    have hrest := ih fun e he => h e (List.mem_cons_of_mem _ he)
    have hentry := (h entry List.mem_cons_self).ofEntry
    simp only [Post.ofEntries, hentry, hrest, bind, Except.bind, pure, Except.pure]
    cases hnormal : normal? entry with
    | none => simp [hnormal]
    | some p => simp [hnormal]

theorem removeInvalid_eq (posts : List Post) :
    removeInvalid posts = (posts.filter (!·.isInvalid), posts.countP (·.isInvalid)) := by
  simp only [removeInvalid, length_sub_kept]

end Post

theorem Blacklist.filter_resolved {b : Blacklist} (h : b.isResolved = true) (posts : List Post) :
    b.filter posts = .ok (posts.filter (!b.hides ·), posts.countP b.hides) := by
  have hknown : b.hasUnresolvedUsers = false := by simpa [isResolved] using h
  simp only [Blacklist.filter, hknown, Bool.false_eq_true, if_false, length_sub_kept]

structure Sifting where
  kept : List Post
  skipped : Nat
  blacklisted : Nat
  invalid : Nat
  deriving DecidableEq, Repr

/-- A post that is hidden does not count as invalid, whether it can be downloaded or not. -/
def sift (blacklist : Option Blacklist) (entries : List Json) : Sifting :=
  let posts := entries.filterMap Post.normal?
  { kept := posts.filter fun p => !p.hiddenBy blacklist && !p.isInvalid
    skipped := entries.countP fun entry => (Post.normal? entry).isNone
    blacklisted := posts.countP (·.hiddenBy blacklist)
    invalid := posts.countP fun p => !p.hiddenBy blacklist && p.isInvalid }

namespace Sifting

variable {b : Option Blacklist} {entries : List Json}

theorem total (b : Option Blacklist) (entries : List Json) :
    (sift b entries).kept.length + (sift b entries).blacklisted + (sift b entries).invalid +
      (sift b entries).skipped = entries.length := by
  induction entries with
  | nil => rfl
  | cons entry rest ih =>
    simp only [sift, List.length_cons] at ih ⊢
    cases hnormal : Post.normal? entry with
    | none => simp [hnormal]; omega
    | some p =>
      cases hhidden : p.hiddenBy b <;> cases hinvalid : p.isInvalid <;>
        simp [hnormal, hhidden, hinvalid] <;> omega

def append (r r' : Sifting) : Sifting :=
  ⟨r.kept ++ r'.kept, r.skipped + r'.skipped, r.blacklisted + r'.blacklisted,
    r.invalid + r'.invalid⟩

theorem sift_append (b : Option Blacklist) (xs ys : List Json) :
    sift b (xs ++ ys) = (sift b xs).append (sift b ys) := by
  simp [sift, append]

theorem sift_normal (b : Option Blacklist) (entries : List Json) :
    sift b (entries.filter fun entry => (Post.normal? entry).isSome) =
      { sift b entries with skipped := 0 } := by
  have hposts : (entries.filter fun entry => (Post.normal? entry).isSome).filterMap Post.normal? =
      entries.filterMap Post.normal? := by
    rw [List.filterMap_filter]
    congr 1
    funext entry
    cases Post.normal? entry <;> rfl
  simp [sift, hposts, List.countP_filter, List.countP_eq_zero]

theorem filter_kept (b : Blacklist) (entries : List Json) :
    (sift none entries).kept.filter (!b.hides ·) = (sift (some b) entries).kept := by
  simp [sift, List.filter_filter, Post.hiddenBy]

end Sifting
end Booru
