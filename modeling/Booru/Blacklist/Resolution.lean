import Booru.Blacklist.Basic
import Booru.Failure

/-! Putting user numbers in place of user names. All names are looked up before any term changes, so
a failed look-up leaves the blacklist as it was. -/

namespace Booru.Blacklist

variable {σ : Type}

/-- A way to ask for the number of a user. What comes back is checked, not trusted. -/
abbrev UserLookup (σ : Type) := String → Run σ Json

/-- An answer that is no user's number. The report shows it, so it has to have a text. -/
def refusal (name : String) (answer : Json) : Failure :=
  if answer.hasLongInteger then .argument .longInteger
  else match answer with
    | .int n => .userOutOfRange name n
    | answer => .nonIntegerUser name answer

def userNumber (name : String) (answer : Json) : Except Failure Int :=
  match answer with
  | .int n => if fitsWord n then .ok n else .error (refusal name answer)
  | _ => .error (refusal name answer)

/-- A failed look-up is reported with the name. An interruption passes through as it is. -/
def lookUpNumber (lookup : UserLookup σ) (name : String) : Run σ Int := do
  let answer ← tryCatch (lookup name) fun f =>
    throw (if f.isInterrupt then f else .unresolvable name f)
  Run.lift (userNumber name answer)

/-- The numbers of the users that terms name, put behind those known before. A known name
is not looked up again. -/
def lookUpNumbers (lookup : UserLookup σ) :
    List Token → List (String × Int) → Run σ (List (String × Int))
  | [], known => pure known
  | t :: rest, known =>
    if t.isUnresolvedUser && (known.lookup t.payload).isNone then do
      let n ← lookUpNumber lookup t.payload
      lookUpNumbers lookup rest (known ++ [(t.payload, n)])
    else lookUpNumbers lookup rest known

def Token.numbered (numbers : List (String × Int)) (t : Token) : Except Failure Token :=
  match numbers.lookup t.payload with
  | none => .error (.raised ⟨.key, t.payload⟩)
  | some n => (t.withUser n).mapError .token

/-- The user terms of a line replaced one after the other, and how many they are. Those in front of
one that cannot be replaced stay replaced. -/
def Line.numbered (numbers : List (String × Int)) : Line → Except Failure Nat × Line
  | [] => (.ok 0, [])
  | t :: rest =>
    if t.isUnresolvedUser then
      match t.numbered numbers with
      | .error f => (.error f, t :: rest)
      | .ok t =>
        let (count, rest) := Line.numbered numbers rest
        (count.map (· + 1), t :: rest)
    else
      let (count, rest) := Line.numbered numbers rest
      (count, t :: rest)

def numberedLines (numbers : List (String × Int)) : List Line → Except Failure Nat × List Line
  | [] => (.ok 0, [])
  | l :: rest =>
    match Line.numbered numbers l with
    | (.error f, l) => (.error f, l :: rest)
    | (.ok n, l) =>
      let (count, rest) := numberedLines numbers rest
      (count.map (n + ·), l :: rest)

def resolveInPlace (lookup : UserLookup σ) : Run (σ × Blacklist) Nat := fun s =>
  match lookUpNumbers lookup s.2.tokens [] s.1 with
  | (.error f, t) => (.error f, (t, s.2))
  | (.ok numbers, t) =>
    let (count, lines) := numberedLines numbers s.2.lines
    (count, (t, ⟨lines⟩))

def resolve (b : Blacklist) (lookup : UserLookup σ) : Run σ (Blacklist × Nat) := fun s =>
  let (count, t) := resolveInPlace lookup (s, b)
  (count.map fun n => (t.2, n), t.1)

/-! ### Users known in advance -/

/-- Numbers by lower-case name. Of two entries with one name the later counts. -/
structure UserTable where
  entries : List (String × Int) := []
  deriving DecidableEq, Repr

namespace UserTable

def ofList (pairs : List (String × Int)) : UserTable :=
  ⟨pairs.map fun p => (Text.lower p.1, p.2)⟩

def ofMembers (ms : Json.Members) : Except Failure UserTable :=
  (ms.mapM fun m => (Json.toInteger m.2).map fun n => (m.1, n)).map ofList

def find? (t : UserTable) (name : String) : Option Int :=
  (t.entries.reverse.find? (·.1 == Text.lower name)).map (·.2)

def number (t : UserTable) (name : Option String) : Except Failure Int :=
  match t.find? (name.getD "") with
  | some n => .ok n
  | none => .error (.lookup (.unknown name))

def lookup (t : UserTable) : UserLookup σ := fun name => Run.lift ((t.number (some name)).map .int)

end UserTable

/-! Blacklists as they stand in memory. A line has a place there and changes where it stands, and a
blacklist is a list of places: it shows what stands there now. Two blacklists with a place in common
would change together, so what is read or joined gets places of its own. On blacklists as values,
`extend` is the joining and `resolveInPlace` the change. -/

def numberedAt (numbers : List (String × Int)) :
    List Nat → List Line → Except Failure Nat × List Line
  | [], lines => (.ok 0, lines)
  | k :: rest, lines =>
    match Line.numbered numbers (lines.getD k []) with
    | (.error f, l) => (.error f, lines.set k l)
    | (.ok n, l) =>
      let (count, lines) := numberedAt numbers rest (lines.set k l)
      (count.map (n + ·), lines)

theorem length_numberedAt (numbers : List (String × Int)) (places : List Nat) (lines : List Line) :
    (numberedAt numbers places lines).2.length = lines.length := by
  induction places generalizing lines with
  | nil => rfl
  | cons k rest ih =>
    rw [numberedAt]
    rcases Line.numbered numbers (lines.getD k []) with ⟨f | n, l⟩
    · exact List.length_set
    · exact (ih _).trans List.length_set

structure Shelf where
  lines : List Line
  blacklists : List (List Nat)
  placed : ∀ places ∈ blacklists, ∀ k ∈ places, k < lines.length

namespace Shelf

def empty : Shelf := ⟨[], [], List.forall_mem_nil _⟩

def lineAt (s : Shelf) (k : Nat) : Line := s.lines.getD k []

def shown (s : Shelf) (places : List Nat) : Blacklist := ⟨places.map s.lineAt⟩

def places (s : Shelf) (which : Nat) : List Nat := s.blacklists.getD which []

def blacklist? (s : Shelf) (which : Nat) : Option Blacklist := s.blacklists[which]?.map s.shown

def add (s : Shelf) (b : Blacklist) : Shelf where
  lines := s.lines ++ b.lines
  blacklists := s.blacklists ++ [List.range' s.lines.length b.lines.length]
  placed := by
    intro places hplaces k hk
    rw [List.length_append]
    rcases List.mem_append.mp hplaces with hold | hnew
    · exact Nat.lt_add_right _ (s.placed places hold k hk)
    · rw [List.mem_singleton.mp hnew, List.mem_range'_1] at hk
      exact hk.2

/-- Two blacklists joined into a new one. The lines of both are copied. -/
def join? (s : Shelf) (first second : Nat) : Option Shelf := do
  pure (s.add ((← s.blacklist? first).extend (← s.blacklist? second)))

def withNumbers (s : Shelf) (numbers : List (String × Int)) (which : Nat) :
    Except Failure Nat × Shelf :=
  let change := numberedAt numbers (s.places which) s.lines
  (change.1,
    { lines := change.2
      blacklists := s.blacklists
      placed := by
        rw [length_numberedAt]
        exact s.placed })

def resolve (which : Nat) (lookup : UserLookup σ) : Run (σ × Shelf) Nat := fun s =>
  match lookUpNumbers lookup (s.2.shown (s.2.places which)).tokens [] s.1 with
  | (.error f, t) => (.error f, (t, s.2))
  | (.ok numbers, t) =>
    let (count, shelf) := s.2.withNumbers numbers which
    (count, (t, shelf))

end Shelf
end Booru.Blacklist
