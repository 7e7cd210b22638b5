import Booru.Blacklist.Lexer
import Booru.Failure.Kind
import Booru.Http
import Booru.Json.Reader
import Booru.Json.Basic
import Booru.Text.Encoding
import Booru.Settings.Checked
import Booru.Time.Stamp

/-! Everything that can end an operation, by its cause, and the words for it. -/

namespace Booru

def ConfigError.message : ConfigError → String
  | .missingFile what path => what ++ " file not found: " ++ path
  | .unreadableFile what path => "Failed to read " ++ what ++ " file: " ++ path
  | .badYaml path => "Failed to parse YAML in " ++ path
  | .badJson path => "Failed to parse JSON in " ++ path
  | .notMapping path => "Top-level YAML in " ++ path ++ " must be a mapping/object"
  | .invalid path issues =>
    "\n".intercalate (("Invalid configuration in " ++ path ++ ":") :: issues.map
      fun i => "- " ++ i.message)
  | .missingKey name username =>
    "Missing required environment variable " ++ name ++ " for user " ++ Text.quoted username
  | .nothingToDownload =>
    "Nothing to download: declare artists, general, pools, sets or posts under the download section"

inductive ApiError
  | blankUsername
  | noUsername
  | pageBelowOne
  | limitOutOfRange
  | entryRefused (what detail : String)
  | entryUnexpected (what detail : String)
  | entryNotObject (what : String)
  | noPostObject (post : String)
  | noUsablePost (post : String)
  | searchRefused (tags : Option String) (page : Int) (detail : String)
  | searchUnexpected (tags : Option String) (page : Int) (detail : String)
  | noPostsList (tags : Option String)
  | downloadFailed (url detail : String)
  deriving DecidableEq, Repr

def shownText : Option String → String
  | none => "None"
  | some s => Text.quoted s

def ApiError.message : ApiError → String
  | .blankUsername => "username must be a non-empty string"
  | .noUsername => "A username is required to fetch a blacklist"
  | .pageBelowOne => "page must be >= 1"
  | .limitOutOfRange => "limit must be between 1 and 320"
  | .entryRefused what detail => what ++ " request failed: " ++ detail
  | .entryUnexpected what detail => "Unexpected error while fetching " ++ what ++ ": " ++ detail
  | .entryNotObject what => what ++ " response is not an object"
  | .noPostObject post => "Post " ++ post ++ " response has no post object"
  | .noUsablePost post => "Post " ++ post ++ " response could not be normalized"
  | .searchRefused tags page detail =>
    "Post search failed (" ++ shownText tags ++ ", page " ++ toString page ++ "): " ++ detail
  | .searchUnexpected tags page detail =>
    "Unexpected error while searching posts (" ++ shownText tags ++ ", page " ++
      toString page ++ "): "
      ++ detail
  | .noPostsList tags => "Post search response for " ++ shownText tags ++ " has no posts list"
  | .downloadFailed url detail => "Download failed (" ++ url ++ "): " ++ detail

inductive LookupError
  | blank
  | unknown (name : Option String)
  | unauthorized (name : String)
  | failed (name detail : String)
  | noNumber (name : String)
  deriving DecidableEq, Repr

def LookupError.kind : LookupError → FailureKind
  | .blank | .unknown _ => .userNotFound
  | .unauthorized _ => .unauthorized
  | .failed _ _ | .noNumber _ => .transport

def LookupError.message : LookupError → String
  | .blank => "username must be a non-empty string"
  | .unknown name => "No user named " ++ shownText name
  | .unauthorized name => "Not authorized to look up user " ++ Text.quoted name
  | .failed name detail => "User lookup failed (" ++ name ++ "): " ++ detail
  | .noNumber name => "User lookup response for " ++ Text.quoted name ++ " has no integer id"

inductive FileProblem
  | notFound
  | occupied
  | notADirectory
  | isADirectory
  | nameTooLong
  | busy
  deriving DecidableEq, Repr

def FileProblem.kind : FileProblem → FailureKind
  | .notFound => .fileNotFound
  | .occupied => .fileExists
  | .notADirectory => .notADirectory
  | .isADirectory => .isADirectory
  | .nameTooLong | .busy => .os

def FileProblem.message : FileProblem → String
  | .notFound => "[Errno 2] No such file or directory"
  | .occupied => "[Errno 17] File exists"
  | .notADirectory => "[Errno 20] Not a directory"
  | .isADirectory => "[Errno 21] Is a directory"
  | .nameTooLong => "[Errno 36] File name too long"
  | .busy => "[Errno 16] Device or resource busy"

structure FileError where
  problem : FileProblem
  path : String
  target : Option String := none
  deriving DecidableEq, Repr

def FileError.message (e : FileError) : String :=
  e.problem.message ++ ": " ++ Text.quoted e.path ++ match e.target with
    | none => ""
    | some t => " -> " ++ Text.quoted t

inductive PolicyError
  | attempts
  | baseDelay
  | maxDelay
  | delayOrder
  | jitter
  | cap
  deriving DecidableEq, Repr

def PolicyError.message : PolicyError → String
  | .attempts => "max_attempts must be >= 1"
  | .baseDelay => "base_delay_seconds must be >= 0"
  | .maxDelay => "max_delay_seconds must be >= 0"
  | .delayOrder => "max_delay_seconds must be >= base_delay_seconds"
  | .jitter => "jitter_ratio must be between 0 and 1"
  | .cap => "retry_after_cap_seconds must be >= 0"

inductive ArgumentError
  | negativePages
  | endlessSearch (tags : String)
  | noFileUrl (post : Int)
  | closedLogger
  | closedFile
  | nullByte
  | emptyName (path : String)
  | notANumber
  | noDecimal (text : String)
  | noCharacter
  | longInteger
  deriving DecidableEq, Repr

def ArgumentError.message : ArgumentError → String
  | .negativePages => "max_pages must be >= 0"
  | .endlessSearch tags => "search for " ++ Text.quoted tags ++ " does not come to an end"
  | .noFileUrl post => "post " ++ toString post ++ " has no file URL"
  | .closedLogger => "RunLogger is closed"
  | .closedFile => "I/O operation on closed file."
  | .nullByte => "embedded null byte"
  | .emptyName path => "PosixPath(" ++ Text.quoted path ++ ") has an empty name"
  | .notANumber => "cannot convert float NaN to integer"
  | .noDecimal text => "could not convert string to float: " ++ Text.quoted text
  | .noCharacter => "chr() arg not in range(0x110000)"
  | .longInteger => Text.limitText ++ Text.limitAdvice

inductive RangeError
  | wait
  | infinite
  | longField
  | fieldAbove
  | fieldBelow
  | wideInt
  | sixties
  | days (n : Int)
  deriving DecidableEq, Repr

def RangeError.message : RangeError → String
  | .wait | .sixties => "int too large to convert to float"
  | .infinite => "cannot convert float infinity to integer"
  | .longField => "Python int too large to convert to C long"
  | .fieldAbove => "signed integer is greater than maximum"
  | .fieldBelow => "signed integer is less than minimum"
  | .wideInt => "Python int too large to convert to C int"
  | .days n => "days=" ++ toString n ++ "; must have magnitude <= 999999999"

inductive Failure
  | raised (f : Fault)
  | badStatus (r : Response)
  | malformedBody (text : String) (f : Json.Fault)
  | undecodable (e : Text.Utf8Error)
  | integer (e : Text.IntegerError)
  | noInteger (type : String)
  | token (e : Blacklist.TokenError)
  | lex (e : Blacklist.LexError)
  | unresolvedUsers
  | unresolvable (name : String) (cause : Failure)
  | nonIntegerUser (name : String) (answer : Json)
  | userOutOfRange (name : String) (number : Int)
  | lookup (e : LookupError)
  | config (e : ConfigError)
  | api (e : ApiError)
  | file (e : FileError)
  | policy (e : PolicyError)
  | argument (e : ArgumentError)
  | range (e : RangeError)
  | stamp (e : Time.StampError)
  | takenName (operation name : String)

namespace Failure

def kind : Failure → FailureKind
  | .raised f => f.kind
  | .badStatus _ => .http
  | .malformedBody _ (.syntactic ..) => .malformedJson
  | .malformedBody _ (.integer _) => .value
  | .undecodable _ => .unicodeDecode
  | .integer _ | .token _ | .policy _ | .argument _ | .stamp _ => .value
  | .noInteger _ | .takenName .. => .type
  | .lex _ => .lex
  | .unresolvedUsers => .precondition
  | .unresolvable .. | .nonIntegerUser .. | .userOutOfRange .. => .resolver
  | .lookup e => e.kind
  | .config _ => .config
  | .api _ => .api
  | .file e => e.problem.kind
  | .range _ => .overflow

def unresolvableText (name detail : String) : String :=
  "Failed to resolve blacklisted user " ++ Text.quoted name ++ ": " ++ detail

def message : Failure → String
  | .raised f => if f.kind = .key then Text.quoted f.text else f.text
  | .badStatus r => r.errorMessage
  | .malformedBody text f => f.message text
  | .undecodable e => e.message
  | .integer e => e.message
  | .noInteger type =>
    "int() argument must be a string, a bytes-like object or a real number, not '" ++ type ++ "'"
  | .token e => e.message
  | .lex e => e.message
  | .unresolvedUsers => "Blacklist has unresolved user references; resolve users before filtering"
  | .unresolvable name cause => unresolvableText name cause.message
  | .nonIntegerUser name answer =>
    unresolvableText name ("lookup returned a non-integer id: " ++ answer.shown)
  | .userOutOfRange name number =>
    unresolvableText name ("lookup returned an out-of-range id: " ++ toString number)
  | .lookup e => e.message
  | .config e => e.message
  | .api e => e.message
  | .file e => e.message
  | .policy e => e.message
  | .argument e => e.message
  | .range e => e.message
  | .stamp e => e.message
  | .takenName operation name =>
    "RunLogger." ++ operation ++ "() got multiple values for argument " ++ Text.quoted name

def isInterrupt (f : Failure) : Bool := f.kind == .interrupt

def ofLex : Blacklist.LexFailure → Failure
  | .malformed e => .lex e
  | .integer e => .integer e

end Failure

/-- An operation on a state. The state survives a failure. -/
abbrev Run (σ α : Type) := ExceptT Failure (StateM σ) α

namespace Run

variable {σ α : Type}

def lift (r : Except Failure α) : Run σ α := fun s => (r, s)

def outcome (x : Run σ α) : Run σ (Except Failure α) := fun s =>
  let (r, s') := x s
  (.ok r, s')

end Run
end Booru

/-! ### Integers in JSON values, and their limit -/

namespace Booru.Json

def wholePart (x : Float) : Int :=
  match Decimal.Dyadic.ofFloat? x with
  | none => 0
  | some v =>
    let n := v.significand * Nat.pow 2 v.exponent.toNat / Nat.pow 2 (-v.exponent).toNat
    if x.toBits.toNat < 0x8000000000000000 then n else -(n : Int)

/-- Integers stand for themselves, truth values for one and zero, decimal numbers for their whole
part, and texts for what they spell. -/
def toInteger : Json → Except Failure Int
  | .int n => .ok n
  | .bool b => .ok (if b then 1 else 0)
  | .float x =>
    if x.isNaN then .error (.argument .notANumber)
    else if x.isInf then .error (.range .infinite)
    else .ok (wholePart x)
  | .string s => (Text.readInteger s).mapError .integer
  | .null => .error (.noInteger "NoneType")
  | .array _ => .error (.noInteger "list")
  | .object _ => .error (.noInteger "dict")

def write (v : Json) (form : Json → String) : Except Failure String :=
  if v.hasLongInteger then .error (.argument .longInteger) else .ok (form v)

end Booru.Json
