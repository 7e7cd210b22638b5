import Booru.Command.Outcome
import Std.Time.DateTime.Timestamp

/-! The program. A command is carried out in a world of its own: what it reaches for on disk is read
into the world before, and what it changed there is written back after. There is no way to a server
from here, so all requests fail as they do without a network. -/

namespace Booru.Shell

def nameOf (l : Location) : String := "/" ++ "/".intercalate l

def entryOnDisk? (l : Location) : IO (Option Entry) := do
  let file := (← IO.currentDir) / nameOf l
  if ← file.isDir then pure (some .directory)
  else if ← file.pathExists then pure (some (.file (← IO.FS.readBinFile file)))
  else pure none

def readWay (t : FileTree) : Location → List String → IO FileTree
  | _, [] => pure t
  | l, name :: rest => do
    let l := if name == ".." then l.dropLast else l ++ [name]
    match ← entryOnDisk? l with
    | none => pure t
    | some e => readWay (t.put l e) l rest

def readPath (t : FileTree) (p : Path) : IO FileTree :=
  readWay t (if p.root.isEmpty then t.workingDirectory else []) p.parts

def readTree (paths : List Path) : IO FileTree := do
  let here := Path.ofString (← IO.currentDir).toString
  paths.foldlM readPath { (← readPath {} here) with workingDirectory := here.parts }

def writeEntry (l : Location) (e : Entry) : IO Unit := do
  let file := (← IO.currentDir) / nameOf l
  match e with
  | .directory => IO.FS.createDirAll file
  | .file content => IO.FS.writeBinFile file content

def removeFile (l : Location) : IO Unit := do IO.FS.removeFile ((← IO.currentDir) / nameOf l)

def isChanged (old : FileTree) (l : Location) (e : Entry) : Bool :=
  match old.entry? l, e with
  | some .directory, .directory => false
  | some (.file a), .file b => a.data != b.data
  | _, _ => true

def writeChanges (old new : FileTree) : IO Unit := do
  for (l, _) in old.entries do
    if (new.entry? l).isNone then removeFile l
  for (l, e) in new.entries do
    if isChanged old l e then writeEntry l e

def now : IO Time.Instant := do
  let t ← Std.Time.Timestamp.now
  pure ⟨(t.toNanosecondsSinceUnixEpoch.val : Int).fdiv 1000⟩

def draw : IO Float := do
  let n ← IO.rand 0 0x40000000
  pure (n.toFloat / (0x40000000 : Nat).toFloat)

def newId : IO String := do pure (Digest.hexText (← IO.getRandomBytes 16).toList)

def readEnvironment (names : List String) : IO (List (String × String)) :=
  names.filterMapM fun name => do pure ((← IO.getEnv name).map (name, ·))

end Booru.Shell

open Booru Booru.Shell

def main (args : List String) : IO UInt32 := do
  let command := (Command.ofArguments args).toOption
  let tree ← readTree ((command.map Command.paths).getD [])
  let environment ← readEnvironment (command.bind (·.keyVariable? tree)).toList
  let world : World :=
    { session := { script := .unreachable }, files := { tree }, now := ← now, draw := ← draw
      freshId := ← newId }
  let (outcome, after) := Command.carryOut environment args world
  writeChanges tree after.files.tree
  after.printed.forM IO.println
  IO.eprint outcome.errors
  pure outcome.status.toUInt32
