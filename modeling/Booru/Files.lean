import Booru.Text.Character
import Booru.Failure

/-! Paths, trees of directories and files, what can go wrong with a path into one, and files
held open for writing.

An entry of a tree is a directory or a file, and it has one place. There are no symbolic or hard
links, through which a change at one place would show at another, no devices and no permissions.
What is written to an open file is stored as a whole; `World.writeText` is the one write that can
stop midway. -/

/-! ### Paths -/

namespace Booru

structure Path where
  root : String := ""
  parts : List String := []
  deriving DecidableEq, Repr

namespace Path

/-- Two leading slashes are a root of their own; one, and three or more, are the usual one. -/
def rootOf : List Char → String
  | '/' :: '/' :: '/' :: _ => "/"
  | '/' :: '/' :: _ => "//"
  | '/' :: _ => "/"
  | _ => ""

def ofString (s : String) : Path :=
  let parts := (Text.splitWhen (· == '/') s.toList).map String.ofList
  ⟨rootOf s.toList, parts.filter fun part => part != "" && part != "."⟩

def text (p : Path) : String :=
  if p.root.isEmpty && p.parts.isEmpty then "." else p.root ++ "/".intercalate p.parts

def child (p : Path) (name : String) : Path := { p with parts := p.parts ++ [name] }

def parent (p : Path) : Path := { p with parts := p.parts.dropLast }

def name (p : Path) : String := p.parts.getLast?.getD ""

end Path

/-! ### Trees -/

inductive Entry
  | directory
  | file (content : ByteArray)

abbrev Location := List String

structure FileTree where
  entries : List (Location × Entry) := []
  workingDirectory : Location := []

namespace FileTree

def entry? (t : FileTree) (l : Location) : Option Entry :=
  if l.isEmpty then some .directory else t.entries.lookup l

def put (t : FileTree) (l : Location) (e : Entry) : FileTree :=
  if t.entries.any (·.1 == l) then
    { t with entries := t.entries.map fun x => if x.1 == l then (l, e) else x }
  else { t with entries := t.entries ++ [(l, e)] }

def erase (t : FileTree) (l : Location) : FileTree :=
  { t with entries := t.entries.filter (·.1 != l) }

def maxNameBytes : Nat := 255

def maxPathBytes : Nat := 4095

/-- Where names lead from a directory on. All but the last have to be those of directories; whether
the last one is there is left open. -/
def walk (t : FileTree) : Location → List String → Except FileProblem Location
  | l, [] => .ok l
  | l, name :: rest =>
    match t.entry? l with
    | none => .error .notFound
    | some (.file _) => .error .notADirectory
    | some .directory =>
      if name == ".." then t.walk l.dropLast rest
      else if maxNameBytes < name.utf8ByteSize then .error .nameTooLong
      else t.walk (l ++ [name]) rest

def locate? (t : FileTree) (p : Path) : Except FileProblem Location :=
  if maxPathBytes < p.text.utf8ByteSize then .error .nameTooLong
  else t.walk (if p.root.isEmpty then t.workingDirectory else []) p.parts

def hasNull (p : Path) : Bool := p.parts.any fun name => name.toList.contains '\x00'

def refused (p : Path) (problem : FileProblem) : Failure := .file ⟨problem, p.text, none⟩

def locate (t : FileTree) (p : Path) : Except Failure Location :=
  if hasNull p then .error (.argument .nullByte) else (t.locate? p).mapError (refused p)

/-- What a path leads to. Nothing is there if the way to it breaks off, but a name that is
too long is a failure. -/
def find? (t : FileTree) (p : Path) : Except Failure (Option Entry) :=
  if hasNull p then .ok none
  else match t.locate? p with
    | .ok l => .ok (t.entry? l)
    | .error .nameTooLong => .error (refused p .nameTooLong)
    | .error _ => .ok none

def exists? (t : FileTree) (p : Path) : Except Failure Bool := (t.find? p).map (·.isSome)

def isDirectory (t : FileTree) (p : Path) : Except Failure Bool :=
  (t.find? p).map fun
    | some .directory => true
    | _ => false

def makeDirectory (t : FileTree) (p : Path) : Except Failure FileTree := do
  let l ← t.locate p
  match t.entry? l with
  | some _ => throw (refused p .occupied)
  | none => pure (t.put l .directory)

def change (f : FileTree → Except Failure FileTree) : Run FileTree Unit := fun t =>
  match f t with
  | .ok t => (.ok (), t)
  | .error f => (.error f, t)

def unlessDirectory (p : Path) (f : Failure) : Run FileTree Unit := do
  if f.kind.isSystem && (← Run.lift ((← get).isDirectory p)) then pure () else throw f

/-- A directory and all directories above it. What was made before a failure stays. -/
def makeDirectories (p : Path) : Run FileTree Unit :=
  tryCatch (change (·.makeDirectory p)) fun f =>
    if _h : f.kind = .fileNotFound ∧ p.parts ≠ [] then do
      makeDirectories p.parent
      tryCatch (change (·.makeDirectory p)) (unlessDirectory p)
    else unlessDirectory p f
termination_by p.parts.length
decreasing_by
  have := List.length_pos_iff.mpr _h.2
  simp only [Path.parent, List.length_dropLast]
  omega

def readBytes (t : FileTree) (p : Path) : Except Failure ByteArray := do
  match t.entry? (← t.locate p) with
  | none => throw (refused p .notFound)
  | some .directory => throw (refused p .isADirectory)
  | some (.file content) => pure content

def openFile (t : FileTree) (p : Path) (keep : Bool) : Except Failure (FileTree × Location) := do
  let l ← t.locate p
  match t.entry? l with
  | some .directory => throw (refused p .isADirectory)
  | some (.file content) => pure (t.put l (.file (if keep then content else .empty)), l)
  | none => pure (t.put l (.file .empty), l)

def writeBytes (t : FileTree) (p : Path) (content : ByteArray) : Except Failure FileTree := do
  let (t, l) ← t.openFile p false
  pure (t.put l (.file content))

def remove (t : FileTree) (p : Path) : Except Failure FileTree := do
  let l ← tryCatch ((t.locate p).map some) fun f =>
    if f.kind = .fileNotFound then pure none else throw f
  match l with
  | none => pure t
  | some l =>
    match t.entry? l with
    | some .directory => throw (refused p .isADirectory)
    | _ => pure (t.erase l)

/-- The tree with a file moved, in place of the one that was there. A directory cannot be named as
the one above another. -/
def replace (t : FileTree) (p q : Path) : Except Failure FileTree := do
  let both (problem : FileProblem) : Failure := .file ⟨problem, p.text, some q.text⟩
  let source ← (t.locate? p).mapError both
  let target ← (t.locate? q).mapError both
  if q.name == ".." then throw (both .busy)
  match t.entry? source, t.entry? target with
  | none, _ => throw (both .notFound)
  | some _, some .directory => throw (both .isADirectory)
  | some e, _ => pure ((t.erase source).put target e)

end FileTree

/-! ### Files held open -/

structure Handle where
  location : Option Location
  append : Bool
  position : Nat := 0
  isOpen : Bool := true

structure FileSystem where
  tree : FileTree := {}
  handles : List Handle := []

namespace FileSystem

def splice (content : ByteArray) (position : Nat) (bytes : ByteArray) : ByteArray :=
  content.extract 0 position ++ ⟨Array.replicate (position - content.size) 0⟩ ++ bytes
    ++ content.extract (position + bytes.size) content.size

def openFile (p : Path) (append : Bool) : Run FileSystem Nat := fun s =>
  match s.tree.openFile p append with
  | .error f => (.error f, s)
  | .ok (tree, location) =>
    (.ok s.handles.length,
      { s with tree, handles := s.handles ++ [{ location := some location, append }] })

def close (handle : Nat) (s : FileSystem) : FileSystem :=
  { s with handles := s.handles.modify handle fun h => { h with isOpen := false } }

def content (s : FileSystem) (l : Location) : ByteArray :=
  match s.tree.entry? l with
  | some (.file content) => content
  | _ => .empty

/-- A file that is nowhere takes what is written to it, and nobody sees it. -/
def write (handle : Nat) (bytes : ByteArray) : Run FileSystem Unit := fun s =>
  match s.handles[handle]? with
  | none => (.error (.argument .closedFile), s)
  | some h =>
    if !h.isOpen then (.error (.argument .closedFile), s)
    else match h.location with
    | none => (.ok (), s)
    | some l =>
      let content := s.content l
      let position := if h.append then content.size else h.position
      (.ok (), { tree := s.tree.put l (.file (splice content position bytes)),
                 handles := s.handles.set handle { h with position := position + bytes.size } })

def moving (f : FileTree → Except Failure FileTree)
    (moved : FileTree → Location → Option Location) :
    Run FileSystem Unit := fun s =>
  match f s.tree with
  | .error f => (.error f, s)
  | .ok tree =>
    (.ok (), { tree, handles := s.handles.map fun h =>
      { h with location := h.location.bind (moved s.tree) } })

def remove (p : Path) : Run FileSystem Unit :=
  moving (·.remove p) fun t l => if (t.locate? p).toOption = some l then none else some l

def replace (p q : Path) : Run FileSystem Unit :=
  moving (·.replace p q) fun t l =>
    if (t.locate? p).toOption = some l then (t.locate? q).toOption
    else if (t.locate? q).toOption = some l then none else some l

end FileSystem
end Booru
