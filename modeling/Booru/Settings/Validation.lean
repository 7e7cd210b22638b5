import Booru.Settings.Basic
import Booru.Settings.Scalar
import Booru.Files
import Booru.Yaml.Reader

/-! Settings from a document: what is missing gets its standard value, and all that is wrong is
reported, section by section, with unknown names behind the known ones. -/

namespace Booru.Settings

variable {α β : Type}

def inRange (least : Nat) (most : Option Nat) (n : Int) : Checked Int :=
  match most with
  | some m =>
    if m < n then .refuse (.above m) else if n < least then .refuse (.below least) else .valid n
  | none => if n < least then .refuse (.below least) else .valid n

def readBounded (least : Nat) (most : Option Nat) (v : Yaml) : Checked Int :=
  (readInteger v).andThen (inRange least most)

/-- What is no number at all is not too small either. -/
def readPositiveNumber (v : Yaml) : Checked Float :=
  (readNumber v).andThen fun x => if x ≤ 0 then .refuse .notPositive else .valid x

def readList (item : Yaml → Checked α) : Yaml → Checked (List α)
  | .list items => Checked.items item 0 items
  | _ => .refuse .notList

def readNaming : Yaml → Checked Naming
  | .text s => match Naming.ofCode? s with
    | some n => .valid n
    | none => .refuse .notNaming
  | _ => .refuse .notNaming

def obeying (f : α → Except Rule β) (x : Checked α) : Checked β :=
  x.andThen fun a => match f a with
    | .ok b => .valid b
    | .error rule => .refuse (.breaks rule)

def cleanUrl (s : String) : Except Rule String :=
  let url := Text.dropEndWhile (· == '/') (Text.trim s.toList)
  if "http://".toList.isPrefixOf url || "https://".toList.isPrefixOf url then
    .ok (String.ofList url)
  else .error .httpUrl

def nonBlank (rule : Rule) (s : String) : Except Rule String :=
  let t := Text.strip s
  if t.isEmpty then .error rule else .ok t

def isNameStart (c : Char) : Bool := c.isAlpha || c == '_'

def isEnvironmentName : List Char → Bool
  | [] => false
  | c :: rest => isNameStart c && rest.all fun c => isNameStart c || c.isDigit

def environmentName (s : String) : Except Rule String :=
  let name := Text.trim s.toList
  if isEnvironmentName name then .ok (String.ofList name) else .error .environmentName

/-- The lines that are not blank. Each has to be a single one. -/
def singleLines (lines : List String) : Except Rule (List String) :=
  let stripped := (lines.map Text.strip).filter (!·.isEmpty)
  if stripped.any (·.toList.contains '\n') then .error .singleLine else .ok stripped

def cleanSearch (s : String) : String := " ".intercalate (Text.words s)

def cleanSearches (searches : List String) : List String :=
  ((searches.map cleanSearch).filter (!·.isEmpty)).eraseDups

def field (es : Yaml.Entries) (name : String) (standard : α) (read : Yaml → Checked α) :
    Checked α :=
  match es.get? name with
  | none => .valid standard
  | some v => (read v).within name

def strayIssue (known : List String) (key : Yaml) : Option Issue :=
  match key with
  | .text s => if known.contains s then none else some ⟨[s], .unknownField⟩
  | key => some ⟨[key.keyName], .nameNotText⟩

def fieldsOnly (known : List String) (es : Yaml.Entries) (fields : Checked α) : Checked α :=
  fields.besides (es.filterMap fun e => strayIssue known e.1)

def readSection (name : String) (known : List String) (fields : Yaml.Entries → Checked α) :
    Yaml → Checked α
  | .mapping es => fieldsOnly known es (fields es)
  | _ => .refuse (.notSection name)

def Site.read : Yaml → Checked Site :=
  readSection "SiteConfig"
    ["base_url", "safe_base_url", "safe_mode", "user_agent", "timeout_seconds",
      "posts_per_page", "max_pages", "max_attempts"]
    fun es =>
      let standard : Site := {}
      Site.mk
        <$> field es "base_url" standard.baseUrl (obeying cleanUrl ∘ readText)
        <*> field es "safe_base_url" standard.safeBaseUrl (obeying cleanUrl ∘ readText)
        <*> field es "safe_mode" standard.safeMode readTruth
        <*> field es "user_agent" standard.userAgent (obeying (nonBlank .nonEmptyText) ∘ readText)
        <*> field es "timeout_seconds" standard.timeoutSeconds readPositiveNumber
        <*> field es "posts_per_page" standard.postsPerPage (readBounded 1 (some 320))
        <*> field es "max_pages" standard.maxPages (readBounded 0 none)
        <*> field es "max_attempts" standard.maxAttempts (readBounded 1 none)

def Login.read : Yaml → Checked Login :=
  readSection "LoginConfig" ["username", "api_key_env"] fun es =>
    let standard : Login := {}
    Login.mk
      <$> field es "username" standard.username (Checked.map Text.strip ∘ readText)
      <*> field es "api_key_env" standard.apiKeyEnv (obeying environmentName ∘ readText)

def Hiding.read : Yaml → Checked Hiding :=
  readSection "BlacklistConfig" ["enabled", "skip_when_unauthenticated", "extra_lines"] fun es =>
    let standard : Hiding := {}
    Hiding.mk
      <$> field es "enabled" standard.enabled readTruth
      <*> field es "skip_when_unauthenticated" standard.skipWhenAnonymous readTruth
      <*> field es "extra_lines" standard.extraLines (obeying singleLines ∘ readList readText)

def Download.read : Yaml → Checked Download :=
  readSection "DownloadConfig"
    ["directory", "naming_convention", "favorites", "artists", "general", "pools", "sets", "posts"]
    fun es =>
      let standard : Download := {}
      let searches := Checked.map cleanSearches ∘ readList readText
      let numbers := Checked.map List.eraseDups ∘ readList (readBounded 1 none)
      Download.mk
        <$> field es "directory" standard.directory (obeying (nonBlank .nonEmptyPath) ∘ readText)
        <*> field es "naming_convention" standard.naming readNaming
        <*> field es "favorites" standard.favorites readTruth
        <*> field es "artists" standard.artists searches
        <*> field es "general" standard.general searches
        <*> field es "pools" standard.pools numbers
        <*> field es "sets" standard.sets numbers
        <*> field es "posts" standard.posts numbers

def ofEntries (es : Yaml.Entries) : Checked Settings :=
  fieldsOnly ["site", "login", "blacklist", "download"] es
    (Settings.mk
      <$> field es "site" {} Site.read
      <*> field es "login" {} Login.read
      <*> field es "blacklist" {} Hiding.read
      <*> field es "download" {} Download.read)

def ofYaml (path : String) : Yaml → Except ConfigError Settings
  | .null => .ok {}
  | .mapping es => match ofEntries es with
    | .valid s => .ok s
    | .invalid issues => .error (.invalid path issues)
  | _ => .error (.notMapping path)

end Booru.Settings

/-! ### Files of settings -/

namespace Booru

inductive FileRole
  | blacklist
  | posts
  | config
  deriving DecidableEq, Repr

def FileRole.title : FileRole → String
  | .blacklist => "Blacklist"
  | .posts => "Posts"
  | .config => "Config"

def FileRole.noun : FileRole → String
  | .config => "config"
  | role => role.title

def readTextFile (t : FileTree) (role : FileRole) (p : Path) : Except Failure String := do
  if !(← t.exists? p) then throw (.config (.missingFile role.title p.text))
  let bytes ← tryCatch (t.readBytes p) fun f =>
    throw (if f.kind.isSystem then .config (.unreadableFile role.noun p.text) else f)
  let text ← (Text.decode bytes).mapError .undecodable
  pure (String.ofList (Text.joinLineEnds text.toList))

def Settings.load (t : FileTree) (p : Path) : Except Failure Settings := do
  let text ← readTextFile t .config p
  match Yaml.read text with
  | .ok document => (Settings.ofYaml p.text document).mapError .config
  | .error .malformed => throw (.config (.badYaml p.text))
  | .error (.unbuildable o) => throw o.failure

end Booru
