import Booru.Blacklist.Token
import Booru.Post
import Booru.Failure

/-! Blacklists: read once, resolved once, then used on any number of batches of posts,
which they hide or show. -/

namespace Booru.Blacklist

def compareScore (comparator : String) (score threshold : Int) : Bool :=
  match comparator with
  | "<" => score < threshold
  | "<=" => score ≤ threshold
  | ">" => threshold < score
  | ">=" => threshold ≤ score
  | "=" => score == threshold
  | _ => false

def Token.hits (t : Token) (p : Post) : Bool :=
  match t.kind with
  | .plain => p.tags.contains t.payload
  | .rating =>
    match t.rating with
    | none | some .unknown => false
    | some r => p.rating == r.code
  | .id => t.value == some p.id
  | .user => t.resolved && t.value == some p.uploader
  | .score =>
    match t.comparator, t.value with
    | some c, some n => compareScore c p.score n
    | _, _ => false

def Line.positives (l : Line) : List Token := l.filter (!·.negated)

/-- The negated terms that count; a negated score term never does. -/
def Line.negatives (l : Line) : List Token := l.filter fun t => t.negated && t.kind != .score

/-- A line fires when all its positive terms hit and not all of its counted negative terms do. A
line without any of them never fires. -/
def Line.fires (l : Line) (p : Post) : Bool :=
  if (Line.positives l).isEmpty && (Line.negatives l).isEmpty then false
  else if (Line.positives l).all (·.hits p) then
    (Line.negatives l).isEmpty || !(Line.negatives l).all (·.hits p)
  else false

end Booru.Blacklist

namespace Booru

/-- The lines of a blacklist. Each one by itself hides the posts on which it fires. -/
structure Blacklist where
  lines : List Blacklist.Line := []
  deriving DecidableEq, Repr

namespace Blacklist

def parse (source : String) : Except Failure Blacklist :=
  match lex source with
  | .ok lines => .ok ⟨lines⟩
  | .error e => .error (.ofLex e)

def tokens (b : Blacklist) : List Token := b.lines.flatten

def render (b : Blacklist) : String := "\n".intercalate (b.lines.map Line.render)

def isEmpty (b : Blacklist) : Bool := b.lines.isEmpty

def hasUnresolvedUsers (b : Blacklist) : Bool := b.tokens.any (·.isUnresolvedUser)

def isResolved (b : Blacklist) : Bool := !b.hasUnresolvedUsers

/-- The lines of both. Lines are values here; `Shelf.join?` says where the copies stand. -/
def extend (b other : Blacklist) : Blacklist := ⟨b.lines ++ other.lines⟩

def hides (b : Blacklist) (p : Post) : Bool := b.lines.any fun l => Line.fires l p

def filter (b : Blacklist) (posts : List Post) : Except Failure (List Post × Nat) :=
  if b.hasUnresolvedUsers then .error .unresolvedUsers
  else
    let kept := posts.filter (!b.hides ·)
    .ok (kept, posts.length - kept.length)

def filterInPlace (b : Blacklist) : Run (List Post) Nat := do
  let (kept, removed) ← Run.lift (b.filter (← get))
  set kept
  pure removed

end Blacklist
end Booru
