import Booru.Failure
import Booru.Settings.Basic
import Booru.Text.Encoding
import Booru.World
import Booru.Blacklist.Resolution

/-! The board as a server shows it: users, searches, posts, pools, sets and files; and boards as
searches see them, whatever stands behind. What a board answers is checked where it is used. -/

/-! ### The body of a response -/

namespace Booru.Response

def byteOrderMark : List UInt8 := [0xef, 0xbb, 0xbf]

def textOf (bytes : ByteArray) : String :=
  if 3 < bytes.size && bytes.toList.take 3 == byteOrderMark then
    Text.decodeLossy (bytes.extract 3 bytes.size)
  else Text.decodeLossy bytes

def text (r : Response) : Except Failure String := (r.content.mapError .raised).map textOf

def json (r : Response) : Except Failure Json := do
  let text ← r.text
  (Json.read text).mapError (.malformedBody text)

end Booru.Response

/-! ### Clients -/

namespace Booru

structure Client where
  site : Settings.Site
  credentials : Credentials := {}
  policy : Retry.Policy Float
  onRetry : Retry.Event Float → Run World Unit

structure EntryRef where
  label : String
  id : Int

def EntryRef.ofInt (n : Int) : EntryRef := ⟨toString n, n⟩

namespace Client

def policyOf (site : Settings.Site) : Retry.Policy Float :=
  { Retry.Policy.standard with maxAttempts := site.maxAttempts }

def baseUrl (c : Client) : String := c.site.activeBaseUrl

def auth? (c : Client) : Option (String × String) :=
  if c.credentials.isAnonymous then none else some (c.credentials.username, c.credentials.apiKey)

def isAuthenticated (c : Client) : Bool := c.auth?.isSome

def headers (c : Client) : List (String × String) :=
  [("User-Agent", c.site.userAgent), ("Accept", "application/json")]

def request (c : Client) (path : String) (query : List (String × String)) : Request :=
  { url := c.baseUrl ++ path, query, headers := c.headers, auth := c.auth?,
    timeout := c.site.timeoutSeconds }

/-- A request for a file. Its host gets no credentials. -/
def fileRequest (c : Client) (url : String) : Request :=
  { url, headers := c.headers, stream := true, timeout := c.site.timeoutSeconds }

def send (c : Client) (operation : String) (r : Request) : Run World Response :=
  (World.surroundings r c.onRetry).send c.policy operation r.url

def getJson (c : Client) (operation path : String) (query : List (String × String)) :
    Run World Json := do
  let r ← c.send operation (c.request path query)
  Run.lift r.json

def isWire (f : Failure) : Bool := f.kind.isRequest || f.kind.isValue

/-- A failure of the wire in the words of the operation, apart from those for a refusing status. All
other failures stay as they are. -/
def explaining {α : Type} (refused failed : Failure → Failure) (x : Run World α) : Run World α :=
  tryCatch x fun f =>
    throw (if f.kind = .http then refused f else if isWire f then failed f else f)

def entry (c : Client) (operation path what : String) : Run World Json.Members := do
  let data ← explaining (fun f => .api (.entryRefused what f.message))
    (fun f => .api (.entryUnexpected what f.message)) (c.getJson operation path [])
  match data with
  | .object ms => pure ms
  | _ => throw (.api (.entryNotObject what))

def userPath (name : String) : String := "/users/" ++ Text.percentEncode name ++ ".json"

def fetchUser (c : Client) (name : Option String) : Run World Json.Members :=
  let user := Text.strip (name.getD "")
  if user.isEmpty then throw (.api .blankUsername)
  else c.entry "users.show" (userPath user) ("User " ++ user)

def refusedLookup (user : String) (f : Failure) : Failure :=
  let status? := match f with
    | .badStatus r => some r.status
    | _ => none
  .lookup (if status? = some 404 then .unknown (some user)
    else if status? = some 401 || status? = some 403 then .unauthorized user
    else .failed user f.message)

def lookupUser (c : Client) (name : Option String) : Run World Int := do
  let user := Text.strip (name.getD "")
  if user.isEmpty then throw (.lookup .blank)
  let data ← explaining (refusedLookup user) (fun f => .lookup (.failed user f.message))
    (c.getJson "users.lookup" (userPath user) [])
  match data.member "id" with
  | .int n => pure n
  | _ => throw (.lookup (.noNumber user))

/-- The blacklist in the profile of a user, or of the own user where none is named. -/
def fetchBlacklist (c : Client) (username : Option String) : Run World String := do
  let name := Text.strip ((nonEmpty? username).getD c.credentials.username)
  if name.isEmpty then throw (.api .noUsername)
  let user ← c.fetchUser (some name)
  pure (((Json.object user).member "blacklisted_tags").string?.getD "")

def fetchPost (c : Client) (ref : EntryRef) : Run World Json := do
  let data ← c.entry "posts.show" ("/posts/" ++ toString ref.id ++ ".json") ("Post " ++ ref.label)
  match (Json.object data).member "post" with
  | .object ms => pure (.object ms)
  | _ => throw (.api (.noPostObject ref.label))

def fetchPool (c : Client) (ref : EntryRef) : Run World Json.Members :=
  c.entry "pools.show" ("/pools/" ++ toString ref.id ++ ".json") ("Pool " ++ ref.label)

def fetchSet (c : Client) (ref : EntryRef) : Run World Json.Members :=
  c.entry "post_sets.show" ("/post_sets/" ++ toString ref.id ++ ".json") ("Set " ++ ref.label)

def maxPageSize : Int := 320

def searchPosts (c : Client) (tags : Option String) (page : Int) (limit : Option Int) :
    Run World (List Json) := do
  let perPage := limit.getD c.site.postsPerPage
  if page < 1 then throw (.api .pageBelowOne)
  if !(1 ≤ perPage && perPage ≤ maxPageSize) then throw (.api .limitOutOfRange)
  let query := [("tags", Text.strip (tags.getD "")), ("page", toString page),
    ("limit", toString perPage)]
  let data ← explaining (fun f => .api (.searchRefused tags page f.message))
    (fun f => .api (.searchUnexpected tags page f.message))
      (c.getJson "posts.index" "/posts.json" query)
  match data.member "posts" with
  | .array items => pure (items.filter fun item => item.members?.isSome)
  | _ => throw (.api (.noPostsList tags))

def save (handle : Nat) : List Chunk → Nat → Run World Nat
  | [], written => pure written
  | .error fault :: _, _ => throw (.raised fault)
  | .ok bytes :: rest, written => do
    World.onFiles (FileSystem.write handle bytes)
    save handle rest (written + bytes.size)

def followedBy {α : Type} (x : Run World α) (cleanUp : World → World) : Run World α := do
  let r ← Run.outcome x
  modify cleanUp
  Run.lift r

def saveBody (partialFile : Path) (r : Response) : Run World Nat := do
  let handle ← World.onFiles (FileSystem.openFile partialFile false)
  followedBy (save handle r.body 0) fun w => { w with files := w.files.close handle }

def partialPath (target : Path) : Path := target.parent.child (target.name ++ ".part")

/-- The file behind an address saved under a path, and its size. The bytes go to a file beside it
that takes its place at the end, and that is removed if the system or the network fails. -/
def downloadFile (c : Client) (url : String) (target : Path) : Run World Nat := do
  if target.name.isEmpty then throw (.argument (.emptyName target.text))
  World.onTree (FileTree.makeDirectories target.parent)
  let fetch : Run World Nat := do
    let r ← c.send "file.download" (c.fileRequest url)
    followedBy (saveBody (partialPath target) r) fun w => { w with session := w.session.release r }
  let written ← tryCatch fetch fun f => do
    if !f.kind.isSystem then throw f
    World.onFiles (FileSystem.remove (partialPath target))
    throw (.api (.downloadFailed url f.message))
  World.onFiles (FileSystem.replace (partialPath target) target)
  pure written

def close : Run World Unit := modify fun w => { w with session := w.session.close }

end Client

/-! ### Boards -/

structure Board (σ : Type) where
  isAuthenticated : Bool
  fetchBlacklist : Run σ String
  lookupUser : Blacklist.UserLookup σ
  searchPosts : String → Nat → Int → Run σ (List Json)
  fetchPost : EntryRef → Run σ Json
  fetchPool : EntryRef → Run σ Json.Members
  fetchSet : EntryRef → Run σ Json.Members

def Client.board (c : Client) : Board World where
  isAuthenticated := c.isAuthenticated
  fetchBlacklist := c.fetchBlacklist none
  lookupUser := fun name => do pure (.int (← c.lookupUser (some name)))
  searchPosts := fun tags page limit => c.searchPosts (some tags) page (some limit)
  fetchPost := c.fetchPost
  fetchPool := c.fetchPool
  fetchSet := c.fetchSet

end Booru
