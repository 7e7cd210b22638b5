import Booru.Failure
import Booru.Files
import Booru.Post

/-! Named groups of posts, each saved in one directory, and the names of directories and files. -/

namespace Booru

def reservedChars : List Char := ['?', ':', '*', '<', '>', '"', '|', '/', '\\']

/-- A name for a directory or file: reserved characters and controls become underscores, outer white
space and then the last dots are dropped, and nothing becomes an underscore. -/
def cleanComponent (name : String) : String :=
  let replaced := name.toList.map fun c =>
    if reservedChars.contains c || c.toNat < 32 then '_' else c
  let cleaned := Text.dropEndWhile (· == '.') (Text.trim replaced)
  if cleaned.isEmpty || cleaned == ['.'] then "_" else String.ofList cleaned

inductive Naming
  | md5
  | id
  deriving DecidableEq, Repr

def Naming.code : Naming → String
  | .md5 => "md5"
  | .id => "id"

def Naming.ofCode? : String → Option Naming
  | "md5" => some .md5
  | "id" => some .id
  | _ => none

structure GrabbedPost where
  postId : Int
  url : String
  name : String
  fileSize : Int := 0
  deriving DecidableEq, Repr

def urlExtension? (url : String) : Option String :=
  let tail := url.toList.reverse.takeWhile (· != '/')
  let extension := (tail.takeWhile (· != '.')).reverse
  if tail.contains '.' && !extension.isEmpty then some (String.ofList extension) else none

def nonEmpty? (s : Option String) : Option String := s.filter (!·.isEmpty)

namespace Post

def extension (p : Post) : String :=
  match nonEmpty? p.fileExt with
  | some e => e
  | none => (urlExtension? (p.fileUrl.getD "")).getD "bin"

def url (p : Post) : Except Failure String :=
  match nonEmpty? p.fileUrl with
  | some url => .ok url
  | none => .error (.argument (.noFileUrl p.id))

def stem (p : Post) (naming : Naming) : String :=
  match naming, nonEmpty? p.md5 with
  | .md5, some sum => sum
  | _, _ => toString p.id

def grabbed (p : Post) (naming : Naming) : Except Failure GrabbedPost :=
  p.url.map fun url => ⟨p.id, url, p.stem naming ++ "." ++ p.extension, p.fileSize⟩

end Post

def pageNumber (n : Nat) : String :=
  let digits := toString n
  String.ofList (List.replicate (5 - digits.length) '0') ++ digits

def pageName (pool : String) (page : Nat) (p : Post) : String :=
  pool ++ " Page_" ++ pageNumber page ++ "." ++ p.extension

def grabbedPages (pool : String) : Nat → List Post → Except Failure (List GrabbedPost)
  | _, [] => .ok []
  | page, p :: rest => do
    let url ← p.url
    let others ← grabbedPages pool (page + 1) rest
    pure (⟨p.id, url, pageName pool page p, p.fileSize⟩ :: others)

def grabbedPool (posts : List Post) (pool : String) : Except Failure (List GrabbedPost) :=
  grabbedPages pool 1 posts

/-- A post put among posts with different numbers: in place of the one with its number,
else behind all others. -/
def putPost (posts : List Post) (p : Post) : List Post :=
  match posts with
  | [] => [p]
  | q :: rest => if q.id == p.id then p :: rest else q :: putPost rest p

def latestPosts (posts : List Post) : List Post := posts.foldl putPost []

def takeInTurn : List Int → List Post → List Post
  | [], left => left
  | id :: ids, left =>
    match left.find? (·.id == id) with
    | some p => p :: takeInTurn ids (left.eraseP (·.id == id))
    | none => takeInTurn ids left

/-- The posts of a pool in the pool's own order; posts that the pool does not list come last. -/
def orderPool (ids : List Int) (posts : List Post) : List Post := takeInTurn ids (latestPosts posts)

structure Collection where
  name : String
  category : String
  posts : List GrabbedPost := []
  deriving DecidableEq, Repr

namespace Collection

def general : String := "General Searches"
def pools : String := "Pools"
def sets : String := "Sets"

def atRoot : String := ""

def singlePosts : String := "Single Posts"

def size (c : Collection) : Nat := c.posts.length

def totalBytes (c : Collection) : Int := c.posts.foldr (fun p n => p.fileSize + n) 0

def label (c : Collection) : String :=
  if c.category.isEmpty then c.name else c.category ++ "/" ++ c.name

def directory (c : Collection) (root : Path) : Path :=
  let base := if c.category.isEmpty then root else root.child (cleanComponent c.category)
  base.child (cleanComponent c.name)

end Collection
end Booru
