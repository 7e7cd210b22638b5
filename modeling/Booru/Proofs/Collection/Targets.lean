import Booru.Proofs.Collection.Names
import Booru.Proofs.Grabber.Keeping

/-! The paths under which the posts of a haul are saved. No such path is a directory on the way to
another, and posts that share one have the same file stem or stand on the same page of pools whose
names clean to the same text. -/

namespace Booru

variable {σ : Type} {c d : Collection} {p q : GrabbedPost}

def Path.Above (a b : Path) : Prop := a.root = b.root ∧ a.parts <+: b.parts ∧ a.parts ≠ b.parts

namespace Collection

def place (c : Collection) : List String :=
  if c.category.isEmpty then [cleanComponent c.name]
    else [cleanComponent c.category, cleanComponent c.name]

def target (root : Path) (c : Collection) (q : GrabbedPost) : Path :=
  (c.directory root).child (cleanComponent q.name)

def folders : List String := [general, sets, pools]

inductive Placed (c : Collection) : Prop
  | inFolder (h : c.category ∈ folders)
  | beside (category : c.category = atRoot) (name : c.name = singlePosts ∨ ∃ user,
    c.name = "fav:" ++ user)

theorem target_eq (root : Path) (c : Collection) (q : GrabbedPost) :
    c.target root q = ⟨root.root, root.parts ++ (c.place ++ [cleanComponent q.name])⟩ := by
  unfold target directory place
  split <;> simp [Path.child]

theorem target_inj {root : Path} (h : c.target root p = d.target root q) :
    c.place = d.place ∧ cleanComponent p.name = cleanComponent q.name := by
  rw [target_eq, target_eq, Path.mk.injEq, List.append_cancel_left_eq] at h
  have hboth := List.append_inj' h.2 (by simp only [List.length_singleton])
  exact ⟨hboth.1, List.cons.inj hboth.2 |>.1⟩

theorem above_target (root : Path) (c : Collection) (q : GrabbedPost) :
    root.Above (c.target root q) := by
  have hlonger : root.parts ≠ root.parts ++ (c.place ++ [cleanComponent q.name]) := by simp
  rw [target_eq]
  exact ⟨rfl, List.prefix_append root.parts (c.place ++ [cleanComponent q.name]), hlonger⟩

theorem cleanComponent_folder {name : String} (h : name ∈ folders) :
    cleanComponent name = name := by
  simp only [folders, List.mem_cons, List.not_mem_nil, or_false] at h
  rcases h with rfl | rfl | rfl <;> decide

theorem cleanComponent_beside {name : String}
    (h : name = singlePosts ∨ ∃ user, name = "fav:" ++ user) :
    cleanComponent name ∉ folders := by
  rcases h with rfl | ⟨user, rfl⟩
  · decide
  · intro hmem
    obtain ⟨rest, hrest⟩ := @cleanComponent_cons ("av:".toList ++ user.toList) ("fav:" ++ user) 'f'
      (.inl rfl) (by simp)
    simp only [folders, List.mem_cons, List.not_mem_nil, or_false] at hmem
    rcases hmem with h | h | h <;> rw [h] at hrest <;> cases hrest

theorem Placed.place_cases (h : c.Placed) :
    (c.category = atRoot ∧ c.place = [cleanComponent c.name] ∧ cleanComponent c.name ∉ folders) ∨
      (c.category ∈ folders ∧ c.place = [c.category, cleanComponent c.name]) := by
  cases h with
  | inFolder hfolder =>
    have hfull : c.category.isEmpty = false := by
      simp only [folders, List.mem_cons, List.not_mem_nil, or_false] at hfolder
      rcases hfolder with h | h | h <;> rw [h] <;> decide
    exact .inr ⟨hfolder, by rw [place, hfull, cleanComponent_folder hfolder]; rfl⟩
  | beside hcategory hname =>
    exact .inl ⟨hcategory, by rw [place, hcategory]; rfl, cleanComponent_beside hname⟩

theorem Placed.place_inj (hc : c.Placed) (hd : d.Placed) (h : c.place = d.place) :
    c.category = d.category ∧ cleanComponent c.name = cleanComponent d.name := by
  rcases hc.place_cases with ⟨hroot, hplace, -⟩ | ⟨-, hplace⟩ <;>
    rcases hd.place_cases with ⟨hroot', hplace', -⟩ | ⟨-, hplace'⟩ <;> rw [hplace, hplace'] at h
  · exact ⟨hroot.trans hroot'.symm, (List.cons.inj h).1⟩
  · simp at h
  · simp at h
  · obtain ⟨hcategory, hrest⟩ := List.cons.inj h
    exact ⟨hcategory, (List.cons.inj hrest).1⟩

theorem not_above_target {root : Path} (hc : c.Placed) (hd : d.Placed) :
    ¬ (c.target root p).Above (d.target root q) := by
  rintro ⟨-, hfront, hne⟩
  rw [target_eq, target_eq] at hfront hne
  rw [List.prefix_append_right_inj] at hfront
  have hlength : (c.place ++ [cleanComponent p.name]).length ≠
      (d.place ++ [cleanComponent q.name]).length :=
    fun heq => hne (congrArg (root.parts ++ ·) (hfront.eq_of_length heq))
  have hle := hfront.length_le
  -- only a file beside the categories is shorter than another, and its directory is no category
  rcases hc.place_cases with ⟨-, hplace, hnot⟩ | ⟨-, hplace⟩ <;>
    rcases hd.place_cases with ⟨-, hplace', -⟩ | ⟨hfolder, hplace'⟩ <;>
    rw [hplace, hplace'] at hfront hlength hle
  · simp at hlength
  · obtain ⟨heq, -⟩ := List.cons_prefix_cons.mp hfront
    exact hnot (heq ▸ hfolder)
  · simp at hle
  · simp at hlength

end Collection

/-- How the haul of a run is put together. -/
structure Haul.Formed (g : Grabber σ) (replies : List Reply) (h : Haul) : Prop where
  single : ∀ q ∈ h.single, q.Chosen g replies
  others : ∀ c ∈ h.others, c.Formed g replies

theorem Collection.Formed.mono {g : Grabber σ} {before after : List Reply} (hsub : before ⊆ after)
    (h : c.Formed g before) : c.Formed g after := by
  cases h with
  | search place admitted grabbed =>
    exact .search place (fun p hp => (admitted p hp).mono hsub) grabbed
  | pool admitted grabbed => exact .pool (fun p hp => (admitted p hp).mono hsub) grabbed

theorem GrabbedPost.Chosen.mono {g : Grabber σ} {before after : List Reply} (hsub : before ⊆ after)
    (h : q.Chosen g before) : q.Chosen g after := by
  obtain ⟨p, hp, hrest⟩ := h
  exact ⟨p, hp.mono hsub, hrest⟩

theorem Grabber.keeps_formed (g : Grabber σ) : g.Keeps fun replies h => h.Formed g replies where
  replied hsub h := ⟨fun q hq => (h.single q hq).mono hsub, fun c hc => (h.others c hc).mono hsub⟩
  counted _ _ h := ⟨h.single, h.others⟩
  collected hc h := ⟨h.single, List.forall_mem_append.mpr ⟨h.others, by simpa using hc⟩⟩
  chosen hq h := ⟨List.forall_mem_append.mpr ⟨h.single, by simpa using hq⟩, h.others⟩

/-! ### What the name of a file tells -/

def Post.Told (replies : List Reply) (p : Post) : Prop :=
  ∃ item, .item item ∈ replies ∧ Post.ofItem? item = .ok (some p)

/-- Different posts have different stems, and their checksums are ASCII letters and digits. -/
structure Reply.Distinguished (naming : Naming) (replies : List Reply) : Prop where
  checksums : naming = .md5 → ∀ p : Post, p.Told replies → ∀ sum, p.md5 = some sum →
    ∀ c ∈ sum.toList, c.isAlphanum = true
  different : ∀ p q : Post, p.Told replies → q.Told replies → p.id ≠ q.id →
    p.stem naming ≠ q.stem naming

/-- Two pools whose names clean to the same text have no file name for
different posts on one page. -/
def Haul.PoolsApart (h : Haul) : Prop :=
  ∀ c ∈ h.collections, ∀ d ∈ h.collections, c.category = Collection.pools →
    d.category = Collection.pools → cleanComponent c.name = cleanComponent d.name →
      ∀ (i : Nat) (p q : GrabbedPost),
      c.posts[i]? = some p → d.posts[i]? = some q → cleanComponent p.name = cleanComponent q.name →
        p.postId = q.postId

inductive GrabbedPost.Named (naming : Naming) (replies : List Reply) (c : Collection)
    (q : GrabbedPost) : Prop
  | stem (p : Post) (extension : String) (category : c.category ≠ Collection.pools)
    (told : p.Told replies)
      (id : q.postId = p.id) (name : q.name = p.stem naming ++ "." ++ extension)
  | page (i : Nat) (p : Post) (category : c.category = Collection.pools)
    (stands : c.posts[i]? = some q)
      (name : q.name = pageName c.name (i + 1) p)

theorem Post.grabbed_eq_ok {p : Post} {naming : Naming} (h : p.grabbed naming = .ok q) :
    q.postId = p.id ∧ q.name = p.stem naming ++ "." ++ p.extension := by
  unfold grabbed at h
  cases hurl : p.url with
  | error f => simp [hurl, Except.map] at h
  | ok url =>
    simp only [hurl, Except.map, Except.ok.injEq] at h
    subst h
    exact ⟨rfl, rfl⟩

theorem name_of_grabbedPages {pool : String} {page : Nat} {posts : List Post}
    {qs : List GrabbedPost} (h : grabbedPages pool page posts = .ok qs) (i : Nat)
    (hq : qs[i]? = some q) :
    ∃ p : Post, q.name = pageName pool (page + i) p := by
  induction posts generalizing page qs i with
  | nil =>
    cases h
    simp at hq
  | cons p rest ih =>
    simp only [grabbedPages, bind, Except.bind, pure, Except.pure] at h
    cases hurl : p.url with
    | error f => simp [hurl] at h
    | ok url =>
      cases hrest : grabbedPages pool (page + 1) rest with
      | error f => simp [hurl, hrest] at h
      | ok others =>
        simp only [hurl, hrest, Except.ok.injEq] at h
        subst h
        cases i with
        | zero =>
          simp only [List.getElem?_cons_zero, Option.some.injEq] at hq
          subst hq
          exact ⟨p, rfl⟩
        | succ i =>
          rw [List.getElem?_cons_succ] at hq
          obtain ⟨p', hp'⟩ := ih hrest i hq
          exact ⟨p', by rw [hp', show page + 1 + i = page + (i + 1) by omega]⟩

/-! ### The collections of a haul -/

section Formed

variable {g : Grabber σ} {replies : List Reply} {h : Haul}

theorem Haul.Formed.placed (hformed : h.Formed g replies) : ∀ c ∈ h.collections, c.Placed := by
  refine List.forall_mem_cons.mpr ⟨.beside rfl (.inl rfl), fun c hc => ?_⟩
  cases hformed.others c hc with
  | search place _ _ =>
    cases place with
    | general name => exact .inFolder (by simp [Collection.folders])
    | set name => exact .inFolder (by simp [Collection.folders])
    | favorites username => exact .beside rfl (.inr ⟨username, rfl⟩)
  | pool _ _ => exact .inFolder (by simp [Collection.folders])

theorem Collection.Searched.ne_pools {name category : String}
    (h : Collection.Searched name category) :
    category ≠ Collection.pools := by
  cases h <;> decide

theorem Haul.Formed.named (hformed : h.Formed g replies) :
    ∀ c ∈ h.collections, ∀ q ∈ c.posts, q.Named g.naming replies c := by
  refine List.forall_mem_cons.mpr ⟨fun q hq => ?_, fun c hc q hq => ?_⟩
  · obtain ⟨p, hp, hgrabbed, -⟩ := hformed.single q hq
    obtain ⟨hid, hname⟩ := Post.grabbed_eq_ok hgrabbed
    exact .stem p _ (show Collection.atRoot ≠ Collection.pools by decide) hp.origin hid hname
  cases hformed.others c hc with
  | search place admitted grabbed =>
    obtain ⟨p, hp, hgrabbed⟩ := Run.exists_of_mapM grabbed q hq
    obtain ⟨hid, hname⟩ := Post.grabbed_eq_ok hgrabbed
    exact .stem p _ place.ne_pools (admitted p hp).origin hid hname
  | pool admitted grabbed =>
    obtain ⟨i, hi⟩ := List.mem_iff_getElem?.mp hq
    obtain ⟨p, hname⟩ := name_of_grabbedPages grabbed i hi
    exact .page i p rfl hi (by rw [hname, Nat.add_comm])

theorem Reply.Distinguished.stem {naming : Naming} (hboard : Reply.Distinguished naming replies)
    {p : Post}
    (hp : p.Told replies) : Stem (p.stem naming).toList := by
  cases naming with
  | id => exact stem_toString p.id
  | md5 =>
    cases hsum : nonEmpty? p.md5 with
    | none =>
      simp only [Post.stem, hsum]
      exact stem_toString p.id
    | some sum =>
      obtain ⟨hmd5, hfull⟩ := Option.filter_eq_some_iff.mp hsum
      simp only [Post.stem, hsum]
      refine ⟨?_, fun c hc => .inl (hboard.checksums rfl p hp sum hmd5 c hc)⟩
      simpa [String.isEmpty_iff] using hfull

/-- Different posts of a haul are saved under different paths, but for pages of pools
that are not kept apart. -/
theorem Haul.Formed.postId_eq (hformed : h.Formed g replies)
    (hboard : Reply.Distinguished g.naming replies) (hpools : h.PoolsApart) {root : Path}
    (hc : c ∈ h.collections) (hd : d ∈ h.collections) (hp : p ∈ c.posts) (hq : q ∈ d.posts)
    (heq : c.target root p = d.target root q) :
    p.postId = q.postId := by
  obtain ⟨hplace, hfile⟩ := Collection.target_inj heq
  obtain ⟨hcategory, hname⟩ := (hformed.placed c hc).place_inj (hformed.placed d hd) hplace
  cases hformed.named c hc p hp with
  | stem a ext hnot htold hid hstem =>
    cases hformed.named d hd q hq with
    | stem b ext' hnot' htold' hid' hstem' =>
      rw [hstem, hstem'] at hfile
      have hsame := stem_eq_of_cleanComponent_eq (hboard.stem htold) (hboard.stem htold') hfile
      rw [hid, hid']
      by_contra hne
      exact hboard.different a b htold htold' hne hsame
    | page j b hpool hj hpage => exact absurd (hcategory.trans hpool) hnot
  | page i a hpool hi hpage =>
    cases hformed.named d hd q hq with
    | stem b ext' hnot' htold' hid' hstem' => exact absurd (hcategory.symm.trans hpool) hnot'
    | page j b hpool' hj hpage' =>
      have hpages : i + 1 = j + 1 := page_eq_of_cleanComponent_eq hname (hpage ▸ hpage' ▸ hfile)
      obtain rfl : i = j := by omega
      exact hpools c hc d hd hpool hpool' hname i p q hi hj hfile

end Formed
end Booru
