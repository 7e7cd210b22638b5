import Booru.Proofs.Grabber.Adding

/-! The declarations of a download, over a board whose answers depend on nothing but the question.
They are gathered as by so many new grabbers that know of one declaration each. -/

namespace Booru.Grabber

open Run Gathering

variable {σ : Type} {g : Grabber σ}

/-- A declaration that becomes a collection of its own. -/
inductive Declaration
  | favorites (username : String)
  | artist (name : String)
  | general (tags : String)
  | pool (id : Int)
  | set (id : Int)

def Declaration.grab (g : Grabber σ) : Declaration → Gathering σ Collection
  | .favorites username => g.grabFavorites username
  | .artist name => g.grabArtist name
  | .general tags => g.grabGeneral tags
  | .pool id => g.grabPool id
  | .set id => g.grabSet id

def declarations (d : Settings.Download) (username : String) : List Declaration :=
  (if d.favorites && !username.isEmpty then [.favorites username] else []) ++
    (d.artists.map .artist ++ (d.general.map .general ++ (d.pools.map .pool ++ d.sets.map .set)))

theorem Steady.grab (h : g.Steady) [Nonempty σ] (c : Declaration) :
    Yields (fun c => { others := [c] }) (c.grab g) := by
  cases c with
  | favorites username => exact h.grabSearch _ _ _ _
  | artist name => exact h.grabSearch _ _ _ _
  | general tags => exact h.grabSearch _ _ _ _
  | pool id => exact h.grabPool id
  | set id => exact h.grabSet id

theorem grabAll_eq_declared (g : Grabber σ) (d : Settings.Download) (username : String) :
    g.grabAll d username = (do
      (declarations d username).forM fun c => discard (c.grab g)
      d.posts.forM fun id => discard (g.grabPost id)
      pure (← get).2.collections) := by
  rw [grabAll_eq, declarations]
  split
  · simp [Declaration.grab]
  · simp [Declaration.grab]

/-- The haul is what these collections and single posts, each gathered by
itself, come to together. -/
structure Joins (haul : Haul) (cs : List (Collection × Haul))
    (ps : List (Option GrabbedPost × Haul)) : Prop where
  collections : haul.collections =
    ⟨Collection.singlePosts, Collection.atRoot, ps.filterMap (·.1)⟩ :: cs.map (·.1)
  counts : haul = Haul.union (cs.map (·.2) ++ ps.map (·.2))

variable {d : Settings.Download} {username : String} {s u : σ} {cs : List (Collection × Haul)}
  {ps : List (Option GrabbedPost × Haul)} {declared : List Declaration} {ids : List Int}

def collectionsApart (g : Grabber σ) (u : σ) (declared : List Declaration) :
    Except Failure (List (Collection × Haul)) := declared.mapM fun c => (start (c.grab g) u).1

def postsApart (g : Grabber σ) (u : σ) (ids : List Int) :
    Except Failure (List (Option GrabbedPost × Haul)) :=
  ids.mapM fun id => (start (g.grabPost id) u).1

theorem Steady.joins (h : g.Steady) (hcs : g.collectionsApart u declared = .ok cs)
    (hps : g.postsApart u ids = .ok ps) :
    Joins (Haul.union (cs.map (·.2) ++ ps.map (·.2))) cs ps := by
  have : Nonempty σ := ⟨u⟩
  have hc := Yields.held_of_mapM h.grab hcs
  have hp := Yields.held_of_mapM h.grabPost hps
  refine ⟨?_, rfl⟩
  have hsingle : (Haul.union (cs.map (·.2) ++ ps.map (·.2))).single = ps.filterMap (·.1) := by
    rw [Haul.single_union, List.flatMap_append, List.flatMap_map, List.flatMap_map,
      List.flatMap_congr fun r hr => (hc r hr).1, List.flatMap_congr fun r hr => (hp r hr).1,
      List.filterMap_eq_flatMap_toList]
    simp
  have hothers : (Haul.union (cs.map (·.2) ++ ps.map (·.2))).others = cs.map (·.1) := by
    rw [Haul.others_union, List.flatMap_append, List.flatMap_map, List.flatMap_map,
      List.flatMap_congr fun r hr => (hc r hr).2, List.flatMap_congr fun r hr => (hp r hr).2,
      ← List.map_eq_flatMap]
    simp
  rw [Haul.collections, Haul.singleCollection, hsingle, hothers]

theorem Steady.adds_collections (h : g.Steady) (hcs : g.collectionsApart u declared = .ok cs) :
    Adds (declared.forM fun c => discard (c.grab g)) (.ok ()) (Haul.union (cs.map (·.2))) :=
  have : Nonempty σ := ⟨u⟩
  adds_forM h.grab hcs

theorem Steady.adds_collections_error (h : g.Steady) {c : Declaration}
    {later : List Declaration} {f : Failure} (hcs : g.collectionsApart u declared = .ok cs)
    (hc : (start (c.grab g) u).1 = .error f) :
    Adds ((declared ++ c :: later).forM fun c => discard (c.grab g)) (.error f)
      (Haul.union (cs.map (·.2))) :=
  have : Nonempty σ := ⟨u⟩
  adds_forM_error h.grab later hcs hc

theorem Steady.adds_posts (h : g.Steady) (hps : g.postsApart u ids = .ok ps) :
    Adds (ids.forM fun id => discard (g.grabPost id)) (.ok ()) (Haul.union (ps.map (·.2))) :=
  have : Nonempty σ := ⟨u⟩
  adds_forM h.grabPost hps

theorem Steady.adds_posts_error (h : g.Steady) {id : Int} {later : List Int} {f : Failure}
    (hps : g.postsApart u ids = .ok ps) (hid : (start (g.grabPost id) u).1 = .error f) :
    Adds ((ids ++ id :: later).forM fun id => discard (g.grabPost id)) (.error f)
      (Haul.union (ps.map (·.2))) :=
  have : Nonempty σ := ⟨u⟩
  adds_forM_error h.grabPost later hps hid

theorem Steady.grabAll_ok (h : g.Steady) (s : σ)
    (hcs : g.collectionsApart u (declarations d username) = .ok cs)
    (hps : g.postsApart u d.posts = .ok ps) :
    ∃ haul t, g.grabAll d username (s, {}) = (.ok haul.collections, (t, haul)) ∧
    Joins haul cs ps := by
  obtain ⟨t, ht⟩ := h.adds_collections hcs s {}
  obtain ⟨v, hv⟩ := h.adds_posts hps t (Haul.union (cs.map (·.2)))
  refine ⟨Haul.union (cs.map (·.2) ++ ps.map (·.2)), v, ?_, h.joins hcs hps⟩
  rw [Haul.empty_plus] at ht
  rw [grabAll_eq_declared, bind_apply, ht, Haul.union_append]
  dsimp only
  rw [bind_apply, hv]
  rfl

theorem Steady.grabAll_collection_error (h : g.Steady) (s : σ) {c : Declaration}
    {later : List Declaration} {f : Failure} (hd : declarations d username = declared ++ c :: later)
    (hcs : g.collectionsApart u declared = .ok cs) (hc : (start (c.grab g) u).1 = .error f) :
    ∃ haul t, g.grabAll d username (s, {}) = (.error f, (t, haul)) ∧ Joins haul cs [] := by
  obtain ⟨t, ht⟩ := h.adds_collections_error hcs hc s {}
  have hps : g.postsApart u [] = .ok [] := rfl
  refine ⟨Haul.union (cs.map (·.2) ++ []), t, ?_, h.joins hcs hps⟩
  rw [Haul.empty_plus] at ht
  rw [grabAll_eq_declared, hd, bind_apply, ht, List.append_nil]

theorem Steady.grabAll_post_error (h : g.Steady) (s : σ) {id : Int} {later : List Int} {f : Failure}
    (hcs : g.collectionsApart u (declarations d username) = .ok cs)
    (hd : d.posts = ids ++ id :: later) (hps : g.postsApart u ids = .ok ps)
    (hid : (start (g.grabPost id) u).1 = .error f) :
    ∃ haul t, g.grabAll d username (s, {}) = (.error f, (t, haul)) ∧ Joins haul cs ps := by
  obtain ⟨t, ht⟩ := h.adds_collections hcs s {}
  obtain ⟨v, hv⟩ := h.adds_posts_error hps hid t (Haul.union (cs.map (·.2)))
  refine ⟨Haul.union (cs.map (·.2) ++ ps.map (·.2)), v, ?_, h.joins hcs hps⟩
  rw [Haul.empty_plus] at ht
  rw [grabAll_eq_declared, bind_apply, ht, Haul.union_append]
  dsimp only
  rw [hd, bind_apply, hv]

structure Reordered (d d' : Settings.Download) : Prop where
  favorites : d'.favorites = d.favorites
  artists : d'.artists.Perm d.artists
  general : d'.general.Perm d.general
  pools : d'.pools.Perm d.pools
  sets : d'.sets.Perm d.sets
  posts : d'.posts.Perm d.posts

theorem Reordered.declarations {d d' : Settings.Download} (h : Reordered d d') (username : String) :
    (declarations d' username).Perm (declarations d username) := by
  unfold Grabber.declarations
  rw [h.favorites]
  exact .append (.refl _) <| .append (h.artists.map _) <| .append (h.general.map _) <|
    .append (h.pools.map _) (h.sets.map _)

theorem Steady.exists_apart (h : g.Steady) (d : Settings.Download) (username : String) (s u : σ)
    {cols : List Collection} {haul : Haul} {t : σ}
    (hrun : g.grabAll d username (s, {}) = (.ok cols, (t, haul))) :
    ∃ cs ps, g.collectionsApart u (declarations d username) = .ok cs ∧
    g.postsApart u d.posts = .ok ps ∧ Joins haul cs ps := by
  cases hcs : g.collectionsApart u (declarations d username) with
  | error f =>
    obtain ⟨front, c, back, zs, hd, hfront, hc⟩ := exists_first_error hcs
    obtain ⟨_, _, hfail, -⟩ := h.grabAll_collection_error s hd hfront hc
    rw [hrun] at hfail
    cases hfail
  | ok cs =>
    cases hps : g.postsApart u d.posts with
    | error f =>
      obtain ⟨front, id, back, zs, hd, hfront, hid⟩ := exists_first_error hps
      obtain ⟨_, _, hfail, -⟩ := h.grabAll_post_error s hcs hd hfront hid
      rw [hrun] at hfail
      cases hfail
    | ok ps =>
      obtain ⟨_, _, hok, hjoins⟩ := h.grabAll_ok s hcs hps
      rw [hrun] at hok
      cases hok
      exact ⟨cs, ps, rfl, rfl, hjoins⟩

theorem Steady.grabAll_reordered (h : g.Steady) {d d' : Settings.Download} (hd : Reordered d d')
    (username : String) (s : σ) {cols : List Collection} {haul : Haul} {t : σ}
    (hrun : g.grabAll d username (s, {}) = (.ok cols, (t, haul))) :
    ∃ haul' t', g.grabAll d' username (s, {}) = (.ok haul'.collections, (t', haul')) ∧
    haul'.Rearranged haul := by
  obtain ⟨cs, ps, hcs, hps, hjoins⟩ := h.exists_apart d username s s hrun
  obtain ⟨cs', hcs', hpermc⟩ := mapM_perm hcs (hd.declarations username)
  obtain ⟨ps', hps', hpermp⟩ := mapM_perm hps hd.posts
  obtain ⟨haul', t', hrun', hjoins'⟩ := h.grabAll_ok (d := d') s hcs' hps'
  refine ⟨haul', t', hrun', ?_⟩
  rw [hjoins.counts, hjoins'.counts]
  exact Haul.rearranged_union ((hpermc.map _).append (hpermp.map _))

/-- A download gathers what its declarations come to, each with a new grabber from any state of
the board, in the order of the declarations; it ends with the first that fails, and holds what
those before it come to. -/
theorem grabAll_declaration_by_declaration (h : g.Steady) (d : Settings.Download)
    (username : String) (s u : σ) :
    (∀ cs ps, g.collectionsApart u (declarations d username) = .ok cs →
      g.postsApart u d.posts = .ok ps →
      ∃ haul t, g.grabAll d username (s, {}) = (.ok haul.collections, (t, haul)) ∧
      Joins haul cs ps) ∧
    (∀ front c back cs f, declarations d username = front ++ c :: back →
      g.collectionsApart u front = .ok cs → (start (c.grab g) u).1 = .error f →
      ∃ haul t, g.grabAll d username (s, {}) = (.error f, (t, haul)) ∧ Joins haul cs []) ∧
    (∀ cs front id back ps f, g.collectionsApart u (declarations d username) = .ok cs →
      d.posts = front ++ id :: back → g.postsApart u front = .ok ps →
      (start (g.grabPost id) u).1 = .error f →
      ∃ haul t, g.grabAll d username (s, {}) = (.error f, (t, haul)) ∧ Joins haul cs ps) ∧
    ∀ d', Reordered d d' → ∀ cols haul t, g.grabAll d username (s, {}) = (.ok cols, (t, haul)) →
      ∃ haul' t', g.grabAll d' username (s, {}) = (.ok haul'.collections, (t', haul')) ∧
        haul'.Rearranged haul :=
  ⟨fun _ _ hcs hps => h.grabAll_ok s hcs hps,
    fun _ _ _ _ _ hd hcs hc => h.grabAll_collection_error s hd hcs hc,
    fun _ _ _ _ _ _ hcs hd hps hid => h.grabAll_post_error s hcs hd hps hid,
    fun _ hd _ _ _ hrun => h.grabAll_reordered hd username s hrun⟩

def thirdEntry : Json := .object [("id", .int 3), ("file", .object [("url", .string "u")])]

def onePost : Board Nat where
  isAuthenticated := true
  fetchBlacklist := fun asked => (.ok "", asked + 1)
  lookupUser := fun _ asked => (.ok .null, asked + 1)
  searchPosts := fun _ page _ asked => (.ok (if page = 1 then [thirdEntry] else []), asked + 1)
  fetchPost := fun post asked => (.ok (if post.id = 3 then thirdEntry else .null), asked + 1)
  fetchPool := fun _ asked => (.ok [("name", .string "p")], asked + 1)
  fetchSet := fun _ asked => (.ok [], asked + 1)

def onePostGrabber : Grabber Nat := { board := onePost, search := { budget := 2 } }

def fourSections : Settings.Download :=
  { artists := ["a"], pools := [5], sets := [6], posts := [3, 4] }

def third (name : String) : GrabbedPost := ⟨3, "u", name, 0⟩

def thirdIn (name category file : String) : Collection × Haul :=
  (⟨name, category, [third file]⟩, { others := [⟨name, category, [third file]⟩] })

/-- Post 4 ends the download, after four collections and the one single post. -/
theorem grabAll_fourSections :
    onePostGrabber.Steady ∧ ∃ haul t, onePostGrabber.grabAll fourSections "me" (0, {}) =
      (.error (.api (.noUsablePost "4")), (t, haul)) ∧ haul.collections =
        [⟨"Single Posts", "", [third "3.bin"]⟩, ⟨"fav:me", "", [third "3.bin"]⟩,
          ⟨"a", "General Searches", [third "3.bin"]⟩, ⟨"p", "Pools", [third "p Page_00001.bin"]⟩,
          ⟨"set_6", "Sets", [third "3.bin"]⟩] := by
  have hsteady : onePostGrabber.Steady := by
    have hboard : onePost.Steady := by
      refine ⟨rfl, ?_, fun _ => ?_, fun _ _ _ => ?_, fun _ => ?_, fun _ => ?_, fun _ => ?_⟩
      all_goals exact fun _ _ _ => ⟨rfl, trivial⟩
    exact ⟨hboard, fun _ _ _ _ => rfl⟩
  obtain ⟨-, -, hpost, -⟩ := grabAll_declaration_by_declaration hsteady fourSections "me" 0 0
  have hcs : onePostGrabber.collectionsApart 0 (declarations fourSections "me") =
      .ok [thirdIn "fav:me" "" "3.bin", thirdIn "a" "General Searches" "3.bin",
        thirdIn "p" "Pools" "p Page_00001.bin", thirdIn "set_6" "Sets" "3.bin"] := rfl
  have hps : onePostGrabber.postsApart 0 [3] =
      .ok [(some (third "3.bin"), { single := [third "3.bin"] })] := rfl
  obtain ⟨haul, t, hrun, hjoins⟩ := hpost _ [3] 4 [] _ _ hcs rfl hps rfl
  exact ⟨hsteady, haul, t, hrun, hjoins.collections⟩

end Booru.Grabber
