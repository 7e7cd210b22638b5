import Booru.Proofs.Download.Storing

/-! Whether every post that a grabber found has a file of its own after a download. Pools are the
one place where a post can be lost: their pages are named by the name of the pool, which the board
gives, and a file that is there already is left alone. -/

namespace Booru

variable {σ τ : Type}

def Haul.OwnFiles (h : Haul) (root : Path) (bytes : String → ByteArray)
    (entry : Path → Option Entry) : Prop :=
  ∀ c ∈ h.collections, ∀ q ∈ c.posts, ∃ d ∈ h.collections, ∃ q' ∈ d.posts,
    q'.postId = q.postId ∧ entry (c.target root q) = some (.file (bytes q'.url))

def Haul.BytesTell (h : Haul) (bytes : String → ByteArray) : Prop :=
  ∀ c ∈ h.collections, ∀ p ∈ c.posts, ∀ d ∈ h.collections, ∀ q ∈ d.posts,
    bytes p.url = bytes q.url → p.postId = q.postId

def Grabber.gathered (g : Grabber σ) (s : σ) (calls : List Grabber.Call) : Haul :=
  (g.afterAll (s, {}) calls).2

theorem Grabber.formed_gathered (g : Grabber σ) (s : σ) (calls : List Grabber.Call) :
    (g.gathered s calls).Formed g (g.replies (s, {}) calls) := by
  have hempty : Haul.Formed g [] (s, ({} : Haul)).2 := ⟨by simp, by simp⟩
  exact kept_afterAll g.keeps_formed hempty calls

theorem FileFetcher.mem_jobs {root : Path} {cs : List Collection} {e : FileFetcher.Job} :
    e ∈ FileFetcher.jobs root cs ↔ ∃ c ∈ cs, ∃ q ∈ c.posts, e = (c.target root q, q.url) := by
  simp only [jobs, List.mem_flatMap, List.mem_map, job, eq_comm]

variable {h : Haul} {root : Path} {bytes : String → ByteArray}

theorem Haul.ownFiles_of_poolsApart {g : Grabber σ} {replies : List Reply} {fetcher : FileFetcher τ}
    {journal : Journal τ} {entry : τ → Path → Option Entry} {t t' : τ} {report : DownloadReport}
    (hformed : h.Formed g replies) (hboard : Reply.Distinguished g.naming replies)
    (hstores : fetcher.Stores bytes entry) (hjournal : journal.Apart entry)
    (hempty : ∀ p, root.Above p → entry t p = none)
    (hrun : fetcher.download journal root h.collections t = (.ok report, t'))
    (hfailed : report.failed = 0)
    (hpools : h.PoolsApart) : h.OwnFiles root bytes (entry t') := by
  have hflat : ∀ e ∈ FileFetcher.jobs root h.collections, ∀ d ∈ FileFetcher.jobs root h.collections,
      ¬ e.1.Above d.1 := by
    intro e he d hd
    obtain ⟨c, hc, q, -, rfl⟩ := FileFetcher.mem_jobs.mp he
    obtain ⟨c', hc', q', -, rfl⟩ := FileFetcher.mem_jobs.mp hd
    exact Collection.not_above_target (hformed.placed c hc) (hformed.placed c' hc')
  have hfree : ∀ e ∈ FileFetcher.jobs root h.collections, entry t e.1 = none := by
    intro e he
    obtain ⟨c, -, q, -, rfl⟩ := FileFetcher.mem_jobs.mp he
    exact hempty _ (Collection.above_target root c q)
  have hshelved := (FileFetcher.ensures_download hstores hjournal hflat).ok hfree hrun hfailed
  intro c hc q hq
  obtain ⟨e, he, htarget, hentry⟩ :=
    hshelved.filled _ (FileFetcher.mem_jobs.mpr ⟨c, hc, q, hq, rfl⟩)
  obtain ⟨d, hd, q', hq', rfl⟩ := FileFetcher.mem_jobs.mp he
  exact ⟨d, hd, q', hq', hformed.postId_eq hboard hpools hd hc hq' hq htarget, hentry⟩

theorem Haul.poolsApart_of_ownFiles {entry : Path → Option Entry} (htell : h.BytesTell bytes)
    (hown : h.OwnFiles root bytes entry) :
    h.PoolsApart := by
  intro c hc d hd hpool hpool' hname i p q hp hq hfile
  have htarget : c.target root p = d.target root q := by
    simp only [Collection.target_eq, Collection.place, hpool, hpool', hname, hfile]
  obtain ⟨c', hc', p', hp', hid, hentry⟩ := hown c hc p (List.mem_of_getElem? hp)
  obtain ⟨d', hd', q', hq', hid', hentry'⟩ := hown d hd q (List.mem_of_getElem? hq)
  rw [htarget, hentry', Option.some.injEq, Entry.file.injEq] at hentry
  rw [← hid, ← hid']
  exact (htell d' hd' q' hq' c' hc' p' hp' hentry).symm

theorem Haul.poolsApart_of_posts_eq
    (hposts : ∀ c ∈ h.collections, ∀ d ∈ h.collections, c.category = Collection.pools →
      d.category = Collection.pools → cleanComponent c.name = cleanComponent d.name →
      c.posts = d.posts) :
    h.PoolsApart := by
  intro c hc d hd hpool hpool' hname i p q hp hq _
  rw [hposts c hc d hd hpool hpool' hname, hq, Option.some.injEq] at hp
  rw [hp]

/-! ### Two pools on a board, and files in memory -/

instance (a b : Path) : Decidable (a.Above b) := inferInstanceAs (Decidable (_ ∧ _ ∧ _))

abbrev Shelf := Path → Option Entry

def shelfFetcher (bytes : String → ByteArray) : FileFetcher Shelf where
  exists? := fun p s => (.ok (s p).isSome, s)
  fetch := fun url p s => (.ok (bytes url).size, fun q =>
    if q = p then some (.file (bytes url)) else if q.Above p ∧ s q = none
      then some .directory else s q)

theorem stores_shelfFetcher (bytes : String → ByteArray) :
    (shelfFetcher bytes).Stores bytes id where
  asked p s t b hr := by
    cases hr
    exact ⟨rfl, rfl⟩
  fetched url p s t n hr := by
    cases hr
    refine ⟨if_pos rfl, fun q hne habove => ?_⟩
    simp [hne, habove]

def fileItem (id : Int) (md5 url : String) : Json :=
  .object [("id", .int id),
    ("file", .object [("md5", .string md5), ("url", .string url), ("ext", .string "jpg")])]

def twoPools (first second : String) : Grabber Unit where
  board :=
    { isAuthenticated := false
      fetchBlacklist := pure ""
      lookupUser := fun _ => pure .null
      searchPosts := fun tags page _ => pure <|
        if page = 1 then
          (if tags = "pool:2" then [] else [fileItem 1 "a1" "u/1"]) ++
            (if tags = "pool:1" then [] else [fileItem 2 "b2" "u/2"])
        else []
      fetchPost := fun _ => pure (fileItem 1 "a1" "u/1")
      fetchPool := fun pool => pure [("name", .string (if pool.id = 1 then first else second))]
      fetchSet := fun _ => pure [] }
  search := { budget := 9 }

def twoPoolsCalls : List Grabber.Call := [.pool 1, .pool 2, .favorites "me", .post 1, .pool 1]

def twoPoolsBytes (url : String) : ByteArray := ⟨#[if url = "u/1" then 1 else 2]⟩

theorem distinguished_twoPools (first second : String) :
    Reply.Distinguished .md5 ((twoPools first second).replies ((), {}) twoPoolsCalls) := by
  have hreplies : (twoPools first second).replies ((), {}) twoPoolsCalls =
      [.item (fileItem 1 "a1" "u/1"), .item (fileItem 2 "b2" "u/2"), .item (fileItem 1 "a1" "u/1"),
        .item (fileItem 2 "b2" "u/2"), .item (fileItem 1 "a1" "u/1"),
        .item (fileItem 1 "a1" "u/1")] := rfl
  have htold {p : Post} (hp : p.Told ((twoPools first second).replies ((), {}) twoPoolsCalls)) :
      p.id = 1 ∧ p.md5 = some "a1" ∨ p.id = 2 ∧ p.md5 = some "b2" := by
    obtain ⟨item, hitem, hof⟩ := hp
    simp only [hreplies, List.mem_cons, Reply.item.injEq, List.not_mem_nil, or_false] at hitem
    rcases hitem with rfl | rfl | rfl | rfl | rfl | rfl <;> cases hof <;> decide
  constructor
  · intro _ p hp sum hsum
    rcases htold hp with ⟨-, hmd5⟩ | ⟨-, hmd5⟩ <;> cases hmd5.symm.trans hsum <;> simp
  · intro p q hp hq hne
    rcases htold hp with ⟨hid, hmd5⟩ | ⟨hid, hmd5⟩ <;> rcases htold hq
      with ⟨hid', hmd5'⟩ | ⟨hid', hmd5'⟩
    · exact absurd (hid.trans hid'.symm) hne
    · simp [Post.stem, nonEmpty?, hmd5, hmd5', Option.filter]
    · simp [Post.stem, nonEmpty?, hmd5, hmd5', Option.filter]
    · exact absurd (hid.trans hid'.symm) hne

/-! ### Files of their own -/

/-- After any run of a grabber on a board whose posts can be told apart by their stems, and a
download of all that was gathered into an empty directory in which nothing failed, each
grabbed post has its own file if pools are kept apart, and only then where different posts
have different bytes. -/
theorem own_files_iff_pools_apart (g : Grabber σ) (s : σ) (calls : List Grabber.Call)
    (fetcher : FileFetcher τ) (journal : Journal τ) (bytes : String → ByteArray)
    (entry : τ → Path → Option Entry) (root : Path) (t t' : τ) (report : DownloadReport)
    (hboard : Reply.Distinguished g.naming (g.replies (s, {}) calls))
    (hstores : fetcher.Stores bytes entry) (hjournal : journal.Apart entry)
    (hempty : ∀ p, root.Above p → entry t p = none)
    (hrun : fetcher.download journal root (g.gathered s calls).collections t = (.ok report, t'))
    (hfailed : report.failed = 0) :
    ((g.gathered s calls).PoolsApart → (g.gathered s calls).OwnFiles root bytes (entry t')) ∧
    ((g.gathered s calls).BytesTell bytes → (g.gathered s calls).OwnFiles root bytes (entry t') →
      (g.gathered s calls).PoolsApart) := by
  refine ⟨fun hpools => ?_, Haul.poolsApart_of_ownFiles⟩
  exact Haul.ownFiles_of_poolsApart (g.formed_gathered s calls) hboard hstores hjournal hempty
    hrun hfailed hpools

/-- One pool is grabbed twice and a post three times more, and all have their own files. -/
theorem own_files_two_pools : ∃ (report : DownloadReport) (t : Shelf),
    (shelfFetcher twoPoolsBytes).download none ⟨"", ["out"]⟩
        ((twoPools "Left" "Right").gathered () twoPoolsCalls).collections (fun _ => none) =
          (.ok report, t) ∧
      report.failed = 0 ∧ report.existing = 1 ∧
      ((twoPools "Left" "Right").gathered () twoPoolsCalls).PoolsApart ∧
      ((twoPools "Left" "Right").gathered () twoPoolsCalls).OwnFiles ⟨"", ["out"]⟩
        twoPoolsBytes t := by
  have hpools : ((twoPools "Left" "Right").gathered () twoPoolsCalls).PoolsApart :=
    Haul.poolsApart_of_posts_eq (by decide)
  have hrun : (shelfFetcher twoPoolsBytes).download none ⟨"", ["out"]⟩
      ((twoPools "Left" "Right").gathered () twoPoolsCalls).collections (fun _ => none) =
        (.ok ⟨5, 5, 1, 0, 5, []⟩, _) := Prod.ext rfl rfl
  have hown := (own_files_iff_pools_apart (twoPools "Left" "Right") () twoPoolsCalls
    (shelfFetcher twoPoolsBytes) none twoPoolsBytes id ⟨"", ["out"]⟩ (fun _ => none) _ _
    (distinguished_twoPools "Left" "Right") (stores_shelfFetcher twoPoolsBytes)
      nofun (fun _ _ => rfl)
    hrun rfl).1 hpools
  exact ⟨_, _, hrun, rfl, rfl, hpools, hown⟩

/-- Of two pools of one name, the page of the second is not saved: nothing fails, but its path holds
the page of the first. -/
theorem twin_pools_share_file :
    Reply.Distinguished .md5 ((twoPools "Twins" "Twins").replies ((), {}) twoPoolsCalls) ∧
    (shelfFetcher twoPoolsBytes).Stores twoPoolsBytes id ∧
    ∃ (report : DownloadReport) (t : Shelf),
      (shelfFetcher twoPoolsBytes).download none ⟨"", ["out"]⟩
          ((twoPools "Twins" "Twins").gathered () twoPoolsCalls).collections (fun _ => none) =
            (.ok report, t) ∧
        report.failed = 0 ∧
        ¬ ((twoPools "Twins" "Twins").gathered () twoPoolsCalls).OwnFiles ⟨"", ["out"]⟩
          twoPoolsBytes t := by
  have htell : ((twoPools "Twins" "Twins").gathered () twoPoolsCalls).BytesTell twoPoolsBytes := by
    unfold Haul.BytesTell
    decide
  have hpools : ¬ ((twoPools "Twins" "Twins").gathered () twoPoolsCalls).PoolsApart := by
    intro hapart
    have hid := hapart ⟨"Twins", "Pools", [⟨1, "u/1", "Twins Page_00001.jpg", 0⟩]⟩ (by decide)
      ⟨"Twins", "Pools", [⟨2, "u/2", "Twins Page_00001.jpg", 0⟩]⟩ (by decide) rfl rfl
        rfl 0 _ _ rfl rfl rfl
    exact absurd hid (by decide)
  refine ⟨distinguished_twoPools "Twins" "Twins", stores_shelfFetcher twoPoolsBytes,
    ⟨5, 4, 2, 0, 4, []⟩, _, Prod.ext rfl rfl, rfl, fun hown => hpools ?_⟩
  exact Haul.poolsApart_of_ownFiles htell hown

end Booru
