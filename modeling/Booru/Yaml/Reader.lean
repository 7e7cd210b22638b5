import Booru.Failure
import Booru.Yaml.Node.Parser
import Booru.Yaml.Scalar

/-! From the tree of a document to its value. Collections are opened level by level, so that the
first fault from the top is the one that is reported. -/

namespace Booru.Yaml

namespace Node

def isCollectionTag : Tag → Bool
  | .list | .pairs | .mapping | .set => true
  | _ => false

def text? : Nat → Node → Option String
  | _, .scalar _ s => some s
  | fuel + 1, .mapping _ es => (es.find? fun e => e.1.tag == .value).bind fun e => text? fuel e.2
  | _, _ => none

def asKey (n : Node) : Node := match n with
  | .scalar .value s => .scalar .text s
  | n => n

/-- The entries that stand under merging keys, and all others. Of several mappings that are merged
in, the earlier ones come last, because the last value of a key counts. -/
def spread : Nat → List (Node × Node) → List (Node × Node)
  | 0, es => es
  | fuel + 1, es =>
    let source (n : Node) : List (Node × Node) := match n with
      | .mapping _ es => spread fuel es
      | _ => []
    let merged := (es.filter (·.1.tag == .merge)).flatMap fun e => match e.2 with
      | .sequence _ items => items.reverse.flatMap source
      | n => source n
    merged ++ (es.filter (·.1.tag != .merge)).map fun e => (e.1.asKey, e.2)

def mergesFit : Nat → List (Node × Node) → Bool
  | 0, _ => true
  | fuel + 1, es =>
    let fits (n : Node) : Bool := match n with
      | .mapping _ es => mergesFit fuel es
      | _ => false
    (es.filter (·.1.tag == .merge)).all fun e => match e.2 with
      | .sequence _ items => items.all fits
      | n => fits n

def isKey (n : Node) : Bool := !isCollectionTag n.tag

def opened (depth : Nat) : Node → List (Except Fault Node)
  | .sequence .list items => items.map .ok
  | .sequence .pairs items => items.flatMap fun
    | .mapping _ [e] => [.ok e.1, .ok e.2]
    | _ => [.error .malformed]
  | .mapping tag es =>
    if (tag == .mapping || tag == .set) && mergesFit depth es then
      (spread depth es).flatMap fun e =>
        [.ok e.1] ++ (if isKey e.1 then [] else [.error .malformed]) ++ [.ok e.2]
    else [.error .malformed]
  | _ => [.error .malformed]

def check (depth : Nat) (n : Node) : Except Fault Unit :=
  if isCollectionTag n.tag then .ok ()
  else match text? depth n with
    | some s => (readScalar n.tag s).map fun _ => ()
    | none => .error .malformed

def nextLevel (depth : Nat) (level : List Node) : Except Fault (List Node) := do
  let inner ← (level.flatMap (opened depth)).mapM fun step => do
    let n ← step
    n.check depth
    pure n
  pure (inner.filter fun n => isCollectionTag n.tag)

def checkLevels (depth : Nat) : Nat → List Node → Except Fault Unit
  | 0, _ => .ok ()
  | fuel + 1, level => do
    if !level.isEmpty then checkLevels depth fuel (← nextLevel depth level)

end Node

def sameNumber (x : Float) (n : Int) : Bool :=
  !x.isNaN && !x.isInf && x == x.floor && Json.wholePart x == n

def asInt? : Yaml → Option Int
  | .int n => some n
  | .bool b => some (if b then 1 else 0)
  | _ => none

def sameKey (a b : Yaml) : Bool :=
  match a, b with
  | .float x, .float y => x == y || (x.isNaN && y.isNaN)
  | .float x, b => (asInt? b).any (sameNumber x)
  | a, .float y => (asInt? a).any (sameNumber y)
  | .null, .null => true
  | .text s, .text t => s == t
  | .bytes s, .bytes t => s == t
  | .stamp s, .stamp t => s.same t
  | a, b => match asInt? a, asInt? b with
    | some m, some n => m == n
    | _, _ => false

/-- An entry put in: in place of the value of its key, else behind all others. -/
def Entries.put (es : Entries) (e : Yaml × Yaml) : Entries :=
  if es.any fun x => sameKey x.1 e.1 then es.map fun x => if sameKey x.1 e.1 then (x.1, e.2) else x
  else es ++ [e]

def ofNode : Nat → Node → Yaml
  | 0, _ => .null
  | fuel + 1, n =>
    if Node.isCollectionTag n.tag then
      match n with
      | .sequence _ items => .list (items.map (ofNode fuel))
      | .mapping tag es =>
        let values := (Node.spread fuel es).map fun e => (ofNode fuel e.1, ofNode fuel e.2)
        let entries := values.foldl Entries.put []
        if tag == .set then .list (entries.map (·.1)) else .mapping entries
      | _ => .null
    else match readScalar n.tag ((n.text? fuel).getD "") with
      | .ok v => v
      | .error _ => .null

def read (text : String) : Except Fault Yaml := do
  match ← (Node.ofText? text).mapError TextFault.fault with
  | (none, _) => pure .null
  | (some root, depth) => do
    root.check depth
    if Node.isCollectionTag root.tag then Node.checkLevels depth depth [root]
    pure (ofNode depth root)

end Booru.Yaml
