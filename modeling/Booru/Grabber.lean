import Booru.Search

/-! Turning declarations of what to download into collections of posts that passed all filters. -/

namespace Booru

variable {σ α : Type}

/-- How declarations are turned into collections. Only general searches heed the
plan's limit of pages. -/
structure Grabber (σ : Type) where
  board : Board σ
  search : SearchPlan σ
  safeMode : Bool := false
  naming : Naming := .md5

structure Haul where
  single : List GrabbedPost := []
  others : List Collection := []
  blacklisted : Nat := 0
  invalid : Nat := 0
  deriving DecidableEq, Repr

namespace Haul

def singleCollection (h : Haul) : Collection :=
  ⟨Collection.singlePosts, Collection.atRoot, h.single⟩

def collections (h : Haul) : List Collection := h.singleCollection :: h.others

end Haul

def entryName (entry : Json.Members) (fallback : String) : String :=
  match ((Json.object entry).member "name").string? with
  | some name =>
    let name := Text.strip name
    if name.isEmpty then fallback else name
  | none => fallback

def entryPostIds (entry : Json.Members) : List Int :=
  (((Json.object entry).member "post_ids").array?.getD []).filterMap Json.int?

def setSearch (entry : Json.Members) (id : Int) : String :=
  match ((Json.object entry).member "shortname").string? with
  | some name => if (Text.strip name).isEmpty then "set:" ++ toString id else "set:" ++ name
  | none => "set:" ++ toString id

inductive Skip
  | notSafe
  | blacklisted
  | invalid
  deriving DecidableEq, Repr

def Skip.name : Skip → String
  | .notSafe => "not_safe"
  | .blacklisted => "blacklisted"
  | .invalid => "invalid"

abbrev Gathering (σ α : Type) := Run (σ × Haul) α

namespace Gathering

def outside (x : Run σ α) : Gathering σ α := fun s =>
  let (r, t) := x s.1
  (r, (t, s.2))

def start (x : Gathering σ α) : Run σ (α × Haul) := fun s =>
  let (r, t) := x (s, {})
  (r.map fun a => (a, t.2), t.1)

def change (f : Haul → Haul) : Gathering σ Unit := modify fun s => (s.1, f s.2)

end Gathering

namespace Grabber

open Gathering

def blacklist (g : Grabber σ) : Option Blacklist := g.search.blacklist

def journal (g : Grabber σ) : Journal σ := g.search.journal

def postsOf (g : Grabber σ) (tags : String) (exhaustive : Bool) : Gathering σ (List Post) := do
  let plan := if exhaustive then { g.search with maxPages := 0 } else g.search
  let r ← outside (plan.run g.board tags)
  change fun h =>
    { h with blacklisted := h.blacklisted + r.blacklisted, invalid := h.invalid + r.invalid }
  pure r.posts

def add (g : Grabber σ) (c : Collection) : Gathering σ Collection := do
  change fun h => { h with others := h.others ++ [c] }
  outside (g.journal.tell .info "collection_grabbed"
    [("collection", .string c.label), ("posts", .int c.size), ("total_bytes", .int c.totalBytes)])
  pure c

def grabSearch (g : Grabber σ) (tags name category : String) (exhaustive : Bool) :
    Gathering σ Collection := do
  let posts ← g.postsOf tags exhaustive
  let grabbed ← Run.lift (posts.mapM fun p => Post.grabbed p g.naming)
  g.add ⟨name, category, grabbed⟩

def grabGeneral (g : Grabber σ) (tags : String) : Gathering σ Collection :=
  g.grabSearch tags tags Collection.general false

def grabArtist (g : Grabber σ) (artist : String) : Gathering σ Collection :=
  g.grabSearch artist artist Collection.general true

def grabFavorites (g : Grabber σ) (username : String) : Gathering σ Collection :=
  g.grabSearch ("fav:" ++ username) ("fav:" ++ username) Collection.atRoot true

def grabPool (g : Grabber σ) (id : Int) : Gathering σ Collection := do
  let entry ← outside (g.board.fetchPool (.ofInt id))
  let name := entryName entry ("pool_" ++ toString id)
  let posts ← g.postsOf ("pool:" ++ toString id) true
  let grabbed ← Run.lift (grabbedPool (orderPool (entryPostIds entry) posts) name)
  g.add ⟨name, Collection.pools, grabbed⟩

def grabSet (g : Grabber σ) (id : Int) : Gathering σ Collection := do
  let entry ← outside (g.board.fetchSet (.ofInt id))
  g.grabSearch (setSearch entry id) (entryName entry ("set_" ++ toString id)) Collection.sets true

def skip? (g : Grabber σ) (p : Post) : Except Failure (Option Skip) :=
  if g.safeMode && p.rating != "s" then .ok (some .notSafe)
  else do
    let hidden ← match g.blacklist with
      | none => pure 0
      | some b => (b.filter [p]).map (·.2)
    pure (if 0 < hidden then some .blacklisted else if p.isInvalid then some .invalid else none)

def countSkip (reason : Skip) (h : Haul) : Haul :=
  match reason with
  | .notSafe => h
  | .blacklisted => { h with blacklisted := h.blacklisted + 1 }
  | .invalid => { h with invalid := h.invalid + 1 }

def grabPost (g : Grabber σ) (id : Int) : Gathering σ (Option GrabbedPost) := do
  let item ← outside (g.board.fetchPost (.ofInt id))
  match ← Run.lift ((Post.ofItem? item).mapError .integer) with
  | none => throw (.api (.noUsablePost (toString id)))
  | some post =>
    match ← Run.lift (g.skip? post) with
    | some reason =>
      change (countSkip reason)
      outside (g.journal.tell .info "post_skipped" [("post_id", .int id),
        ("reason", .string reason.name)])
      pure none
    | none =>
      let grabbed ← Run.lift (post.grabbed g.naming)
      change fun h => { h with single := h.single ++ [grabbed] }
      outside (g.journal.tell .info "post_grabbed"
        [("collection", .string (Haul.singleCollection {}).label), ("post_id", .int id)])
      pure (some grabbed)

/-- The favorites, where wanted and logged in, and everything declared, in this order: artists,
general searches, pools, sets, single posts. -/
def grabAll (g : Grabber σ) (d : Settings.Download) (username : String) :
    Gathering σ (List Collection) := do
  if d.favorites && !username.isEmpty then discard (g.grabFavorites username)
  d.artists.forM fun artist => discard (g.grabArtist artist)
  d.general.forM fun tags => discard (g.grabGeneral tags)
  d.pools.forM fun id => discard (g.grabPool id)
  d.sets.forM fun id => discard (g.grabSet id)
  d.posts.forM fun id => discard (g.grabPost id)
  pure (← get).2.collections

end Grabber
end Booru
