import Booru.Json.Basic
import Booru.Text.Integer
import Booru.Text.Lowercase
import Booru.Failure
import Booru.Text.Character

/-! Posts of the board, reduced to what the filters, the file names and the written
records need. They are made of the items of the board's answers, whose fields may be
missing or of another type. -/

namespace Booru

def insertName (name : String) : List String → List String
  | [] => [name]
  | x :: rest =>
    if name < x then name :: x :: rest else if name = x then x :: rest
      else x :: insertName name rest

def nameSet (names : List String) : List String := names.foldr insertName []

structure Post where
  id : Int
  uploader : Int
  rating : String
  tags : List String := []
  deleted : Bool := false
  fileUrl : Option String := none
  score : Int := 0
  md5 : Option String := none
  fileExt : Option String := none
  fileSize : Int := 0
  deriving DecidableEq, Repr

namespace Post

def record (p : Post) : Json :=
  .object [("id", .int p.id), ("uploader_id", .int p.uploader), ("rating", .string p.rating),
    ("tags", .ofStrings p.tags), ("deleted", .bool p.deleted),
    ("file_url", .ofOption (p.fileUrl.map .string)), ("score", .int p.score),
    ("md5", .ofOption (p.md5.map .string)), ("file_ext", .ofOption (p.fileExt.map .string)),
    ("file_size", .int p.fileSize)]

/-! ### Posts from items -/

open Text (IntegerError)

/-- Whether a text is made up of digits behind any number of minus signs. Not every such text is an
integer. -/
def looksDecimal (cs : List Char) : Bool :=
  let digits := cs.dropWhile (· == '-')
  !digits.isEmpty && digits.all Text.isDigitLike

/-- An integer or the text of one; anything else is missing. A text that looks decimal and is no
integer is a fault. -/
def integer? : Json → Except IntegerError (Option Int)
  | .int n => .ok (some n)
  | .string s =>
    let body := Text.trim s.toList
    if looksDecimal body then (Text.readInteger (String.ofList body)).map some else .ok none
  | _ => .ok none

def text? : Json → Option String
  | .string s =>
    let body := Text.strip s
    if body.isEmpty then none else some body
  | _ => none

def tagCategories : List String :=
  ["general", "species", "character", "copyright", "artist", "invalid", "lore", "meta"]

def tagsOf : Json → List String
  | .string s => nameSet (Text.words s)
  | .object ms =>
    nameSet (tagCategories.flatMap fun category =>
      (((Json.Members.get? ms category).bind Json.array?).getD []).filterMap text?)
  | _ => []

def scoreOf : Json → Except IntegerError Int
  | .object ms => do
    match ← integer? ((Json.Members.get? ms "total").getD .null) with
    | some n => pure n
    | none =>
      let up ← integer? ((Json.Members.get? ms "up").getD .null)
      let down ← integer? ((Json.Members.get? ms "down").getD .null)
      pure (up.getD 0 + down.getD 0)
  | v => return (← integer? v).getD 0

/-- The rating by its first letter; one that is not known counts as explicit. -/
def ratingOf (v : Json) : String :=
  let letter := String.ofList ((Text.lower ((text? v).getD "")).toList.take 1)
  if ["s", "q", "e"].contains letter then letter else "e"

def deletedOf (item : Json) : Bool :=
  match (item.member "flags").member "deleted" with
  | .bool b => b
  | _ => match item.member "is_deleted" with
    | .bool b => b
    | _ => false

def ofItem? (item : Json) : Except IntegerError (Option Post) := do
  match ← integer? (item.member "id") with
  | none => pure none
  | some id =>
    let uploader ← integer? (item.member "uploader_id")
    let score ← scoreOf (item.member "score")
    let file := item.member "file"
    let size ← integer? (file.member "size")
    pure (some
      { id
        uploader := uploader.getD 0
        rating := ratingOf (item.member "rating")
        tags := tagsOf (item.member "tags")
        deleted := deletedOf item
        fileUrl := text? (file.member "url")
        score
        md5 := text? (file.member "md5")
        fileExt := text? (file.member "ext")
        fileSize := max 0 (size.getD 0) })

/-- The items of an answer: under `posts`, the single one under `post`, or a bare list. -/
def itemsOf : Json → List Json
  | .object ms =>
    match Json.Members.get? ms "posts" with
    | some posts => posts.array?.getD []
    | none => (Json.Members.get? ms "post").toList
  | .array items => items
  | _ => []

def ofEntry? (entry : Json) : Except IntegerError (Option Post) :=
  match entry with
  | .object _ => ofItem? entry
  | _ => .ok none

def ofEntries : List Json → Except IntegerError (List Post × Nat)
  | [] => .ok ([], 0)
  | entry :: rest => do
    let post ← ofEntry? entry
    let (posts, skipped) ← ofEntries rest
    pure (match post with
      | some p => (p :: posts, skipped)
      | none => (posts, skipped + 1))

def ofPayload (payload : Json) : Except IntegerError (List Post × Nat) :=
  ofEntries (itemsOf payload)

/-! ### Posts that cannot be downloaded -/

def isInvalid (p : Post) : Bool := p.deleted || (Text.trim (p.fileUrl.getD "").toList).isEmpty

def removeInvalid (posts : List Post) : List Post × Nat :=
  let kept := posts.filter (!·.isInvalid)
  (kept, posts.length - kept.length)

def removeInvalidInPlace : Run (List Post) Nat := modifyGet fun posts => (removeInvalid posts).swap

end Post
end Booru
