import Booru.Collection
import Booru.Json.Basic
import Booru.Failure
import Booru.Digest.Sha256

/-! Settings: how to talk to the board, as whom, what to hide and what to download. The key of a
user never stands in them, only the name of the environment variable that holds it. -/

namespace Booru

namespace Settings

structure Site where
  baseUrl : String := "https://e621.net"
  safeBaseUrl : String := "https://e926.net"
  safeMode : Bool := false
  userAgent : String := "e6dl/0.1.0 (blacklist-aware downloader)"
  timeoutSeconds : Float := 60
  postsPerPage : Int := 320
  /-- Zero goes on until an empty page. -/
  maxPages : Int := 5
  maxAttempts : Int := 4

structure Login where
  username : String := ""
  apiKeyEnv : String := "E621_API_KEY"

structure Hiding where
  enabled : Bool := true
  skipWhenAnonymous : Bool := true
  extraLines : List String := []

structure Download where
  directory : String := "downloads"
  naming : Naming := .md5
  favorites : Bool := true
  artists : List String := []
  general : List String := []
  pools : List Int := []
  sets : List Int := []
  posts : List Int := []

def Site.activeBaseUrl (s : Site) : String := if s.safeMode then s.safeBaseUrl else s.baseUrl

def Download.isEmpty (d : Download) : Bool :=
  d.artists.isEmpty && d.general.isEmpty && d.pools.isEmpty && d.sets.isEmpty && d.posts.isEmpty

end Settings

structure Settings where
  site : Settings.Site := {}
  login : Settings.Login := {}
  blacklist : Settings.Hiding := {}
  download : Settings.Download := {}

namespace Settings

def Site.record (s : Site) : Json :=
  .object [("base_url", .string s.baseUrl), ("safe_base_url", .string s.safeBaseUrl),
    ("safe_mode", .bool s.safeMode), ("user_agent", .string s.userAgent),
    ("timeout_seconds", .float s.timeoutSeconds), ("posts_per_page", .int s.postsPerPage),
    ("max_pages", .int s.maxPages), ("max_attempts", .int s.maxAttempts)]

def Login.record (l : Login) : Json :=
  .object [("username", .string l.username), ("api_key_env", .string l.apiKeyEnv)]

def Hiding.record (h : Hiding) : Json :=
  .object [("enabled", .bool h.enabled), ("skip_when_unauthenticated", .bool h.skipWhenAnonymous),
    ("extra_lines", .ofStrings h.extraLines)]

def Download.record (d : Download) : Json :=
  .object [("directory", .string d.directory), ("naming_convention", .string d.naming.code),
    ("favorites", .bool d.favorites), ("artists", .ofStrings d.artists),
    ("general", .ofStrings d.general), ("pools", .array (d.pools.map .int)),
    ("sets", .array (d.sets.map .int)), ("posts", .array (d.posts.map .int))]

def record (s : Settings) : Json :=
  .object [("site", s.site.record), ("login", s.login.record), ("blacklist", s.blacklist.record),
    ("download", s.download.record)]

end Settings

/-! ### Credentials -/

structure Credentials where
  username : String := ""
  apiKey : String := ""
  deriving DecidableEq, Repr

namespace Credentials

def isAnonymous (c : Credentials) : Bool := c.username.isEmpty || c.apiKey.isEmpty

def shown (c : Credentials) : String :=
  "Credentials(username=" ++ Text.quoted c.username ++ ", api_key="
    ++ Text.quoted (String.ofList (List.replicate c.apiKey.length '*')) ++ ")"

/-- No user name means no credentials. A user name needs a key. -/
def resolve (login : Settings.Login) (environment : List (String × String)) :
    Except ConfigError Credentials :=
  if login.username.isEmpty then .ok {}
  else
    let key := Text.strip ((environment.lookup login.apiKeyEnv).getD "")
    if key.isEmpty then .error (.missingKey login.apiKeyEnv login.username)
    else .ok ⟨login.username, key⟩

end Credentials

/-! ### A digest that tells settings apart -/

namespace Settings

def fingerprint (s : Settings) : Except Failure String :=
  (s.record.write (Json.render .compact)).map fun text => Digest.sha256 text.toUTF8.toList

end Settings
end Booru
