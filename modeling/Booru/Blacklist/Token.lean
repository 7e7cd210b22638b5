import Booru.Text.Character
import Booru.Text.Lowercase
import Booru.Text.Quoted
import Booru.Text.Integer

/-! The terms of a blacklist: their characters, their case folding, and their written form. -/

namespace Booru.Blacklist

/-- The characters a tag name is made of: the visible ASCII characters other than the colon, and the
letters and numerals of every other script. -/
def isTagChar (c : Char) : Bool :=
  let n := c.toNat
  if 33 ≤ n && n ≤ 126 then c != ':' else 127 < n && Text.isAlphanumeric c

/-- The lower case of a character, if that is one tag character; else the character as it is. So a
folded name consists of tag characters wherever the name did. -/
def foldChar (c : Char) : Char :=
  match Text.lowerChars c with
  | [low] => if isTagChar low then low else c
  | _ => c

def foldName (name : String) : String := String.ofList (name.toList.map foldChar)

inductive TokenKind
  | plain
  | rating
  | id
  | user
  | score
  deriving DecidableEq, Repr

def TokenKind.name : TokenKind → String
  | .plain => "plain"
  | .rating => "rating"
  | .id => "id"
  | .user => "user"
  | .score => "score"

inductive Rating
  | safe
  | questionable
  | explicit
  | unknown
  deriving DecidableEq, Repr

def Rating.code : Rating → String
  | .safe => "s"
  | .questionable => "q"
  | .explicit => "e"
  | .unknown => "unknown"

def Rating.classify (text : String) : Rating :=
  match Text.lower text with
  | "safe" | "s" => .safe
  | "questionable" | "q" => .questionable
  | "explicit" | "e" => .explicit
  | _ => .unknown

/-- One term. The payload is the tag name, the rating as written, the user's name or number, or the
score with its comparator. `value` is the post's number, the number of a resolved user, or the
score. A term may be put together by hand, so any field can be out of step with the kind. -/
structure Token where
  kind : TokenKind
  payload : String := ""
  negated : Bool := false
  rating : Option Rating := none
  value : Option Int := none
  comparator : Option String := none
  resolved : Bool := false
  deriving DecidableEq, Repr

def comparators : List String := ["<=", ">=", "<", ">", "="]

inductive TokenError
  | unsupportedComparator (text : String)
  | notUser
  deriving DecidableEq, Repr

def TokenError.message : TokenError → String
  | .unsupportedComparator text => "unsupported score comparator: " ++ Text.quoted text
  | .notUser => "only user tokens can carry a user id"

namespace Token

def ofTag (name : String) (negated : Bool) : Token :=
  { kind := .plain, payload := name, negated }

def ofRating (text : String) (negated : Bool) : Token :=
  { kind := .rating, payload := Text.lower text, negated,
    rating := some (.classify (Text.lower text)) }

def ofId (n : Int) (negated : Bool) : Token :=
  { kind := .id, payload := toString n, negated, value := some n }

def ofUser (name : String) (negated : Bool) : Token :=
  { kind := .user, payload := name, negated }

def scoreOf (comparator : String) (threshold : Int) (negated : Bool) : Token :=
  { kind := .score, payload := comparator ++ toString threshold, negated, value := some threshold,
    comparator := some comparator }

def ofScore (comparator : String) (threshold : Int) (negated : Bool) : Except TokenError Token :=
  if comparators.contains comparator then .ok (scoreOf comparator threshold negated)
  else .error (.unsupportedComparator comparator)

def isUnresolvedUser (t : Token) : Bool := t.kind == .user && !t.resolved

def resolvedTo (t : Token) (user : Int) : Token :=
  { kind := .user, payload := toString user, negated := t.negated,
    value := some user, resolved := true }

def withUser (t : Token) (user : Int) : Except TokenError Token :=
  if t.kind == .user then .ok (t.resolvedTo user) else .error .notUser

def body (t : Token) : String :=
  match t.kind with
  | .plain => t.payload
  | .score =>
    "score:" ++ t.comparator.getD "None" ++ (t.value.map toString).getD "None"
  | kind => kind.name ++ ":" ++ t.payload

def render (t : Token) : String := (if t.negated then "-" else "") ++ t.body

end Token

abbrev Line := List Token

def Line.render (l : Line) : String := " ".intercalate (l.map Token.render)

end Booru.Blacklist
