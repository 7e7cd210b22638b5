import Booru.Client
import Booru.RunLog
import Booru.Post

/-! Searches: the blacklist of a session, and the posts of a search that pass it. -/

namespace Booru

variable {σ : Type}

def joinedSource (profile : String) (extraLines : List String) : String :=
  "\n".intercalate (profile :: extraLines)

/-- The blacklist of a session: that of the profile with the local lines behind it, all users
resolved. There is none if it is turned off, skipped for want of a login, or empty. -/
def Board.sessionBlacklist (b : Board σ) (wanted : Settings.Hiding) (journal : Journal σ) :
    Run σ (Option Blacklist) := do
  let skip (reason : String) : Run σ (Option Blacklist) := do
    journal.tell .info "blacklist_skipped" [("reason", .string reason)]
    pure none
  if !wanted.enabled then skip "disabled"
  else if !b.isAuthenticated && wanted.skipWhenAnonymous then skip "unauthenticated"
  else do
    let profile ← if b.isAuthenticated then b.fetchBlacklist else pure ""
    let blacklist ← Run.lift (Blacklist.parse (joinedSource profile wanted.extraLines))
    if blacklist.isEmpty then skip "empty"
    else do
      let (resolved, _) ← blacklist.resolve b.lookupUser
      journal.tell .info "blacklist_loaded"
        [("lines", .int resolved.lines.length), ("extra_lines", .int wanted.extraLines.length)]
      pure (some resolved)

structure SearchResult where
  posts : List Post := []
  pages : Nat := 0
  blacklisted : Nat := 0
  invalid : Nat := 0
  skipped : Nat := 0
  deriving DecidableEq, Repr

namespace SearchResult

def ofItems (blacklist : Option Blacklist) (items : List Json) : Except Failure SearchResult := do
  let (batch, skipped) ← (Post.ofPayload (.array items)).mapError .integer
  let (visible, blacklisted) ← match blacklist with
    | none => pure (batch, 0)
    | some b => b.filter batch
  let (kept, invalid) := Post.removeInvalid visible
  pure ⟨kept.reverse, 1, blacklisted, invalid, skipped⟩

def append (a b : SearchResult) : SearchResult :=
  ⟨a.posts ++ b.posts, a.pages + b.pages, a.blacklisted + b.blacklisted, a.invalid + b.invalid,
    a.skipped + b.skipped⟩

end SearchResult

structure SearchPlan (σ : Type) where
  blacklist : Option Blacklist := none
  /-- Zero goes on until an empty page. -/
  maxPages : Int := 5
  postsPerPage : Int := 320
  journal : Journal σ := .silent
  /-- The pages after which a search without a limit is given up. -/
  budget : Nat

namespace SearchPlan

def pageEvent (tags : String) (page : Nat) (received : Nat) (r : SearchResult) : Json.Members :=
  [("tags", .string tags), ("page", .int page), ("received", .int received),
    ("kept", .int r.posts.length), ("blacklisted", .int r.blacklisted), ("invalid", .int r.invalid),
    ("skipped", .int r.skipped)]

def completedEvent (tags : String) (r : SearchResult) : Json.Members :=
  [("tags", .string tags), ("pages", .int r.pages), ("kept", .int r.posts.length),
    ("blacklisted", .int r.blacklisted), ("invalid", .int r.invalid), ("skipped", .int r.skipped)]

/-- The pages from number `page` on, at most `left` of them, put behind what was found before. -/
def pagesFrom (plan : SearchPlan σ) (board : Board σ) (tags : String) :
    Nat → Nat → SearchResult → Run σ SearchResult
  | 0, _, found => if plan.maxPages = 0 then throw (.argument (.endlessSearch tags)) else pure found
  | left + 1, page, found => do
    let items ← board.searchPosts tags page plan.postsPerPage
    if items.isEmpty then pure found
    else do
      let r ← Run.lift (SearchResult.ofItems plan.blacklist items)
      plan.journal.tell .debug "search_page_processed" (pageEvent tags page items.length r)
      plan.pagesFrom board tags left (page + 1) (found.append r)

def run (plan : SearchPlan σ) (board : Board σ) (tags : String) : Run σ SearchResult := do
  if plan.maxPages < 0 then throw (.argument .negativePages)
  let r ← plan.pagesFrom board tags
    (if plan.maxPages = 0 then plan.budget else plan.maxPages.toNat) 1 {}
  plan.journal.tell .info "search_completed" (completedEvent tags r)
  pure r

end SearchPlan
end Booru
