import Booru.Yaml.Node
import Booru.Yaml.Token.Lexer

/-! From tokens to the tree of a document. An alias stands for the node with its anchor. -/

namespace Booru.Yaml

structure Parsing where
  rest : List Token
  prefixes : List (String × String) := []
  /-- The nodes with an anchor; there is no node as long as a collection is not complete. -/
  anchors : List (String × Option Node) := []

abbrev Parse (α : Type) := StateT Parsing (Except TextFault) α

namespace Parse

def unexpected {α : Type} : Parse α := fun s =>
  match s.rest with
  | .broken f :: _ => .error f
  | _ => .error .malformed

def malformed {α : Type} : Parse α := throw .malformed

def peek : Parse (Option Token) := do pure (← get).rest.head?

def advance : Parse Unit := modify fun s => { s with rest := s.rest.tail }

def next (p : Token → Bool) : Parse Bool := fun s =>
  match s.rest with
  | .broken f :: _ => .error f
  | t :: _ => .ok (p t, s)
  | [] => .ok (false, s)

def accept (p : Token → Bool) : Parse Bool := do
  if ← next p then
    advance
    pure true
  else pure false

def expect (p : Token → Bool) : Parse Unit := do
  if !(← accept p) then unexpected

def isBlockEntry : Token → Bool | .blockEntry => true | _ => false
def isBlockEnd : Token → Bool | .blockEnd => true | _ => false
def isFlowEntry : Token → Bool | .flowEntry => true | _ => false
def isSequenceEnd : Token → Bool | .flowSequenceEnd => true | _ => false
def isMappingEnd : Token → Bool | .flowMappingEnd => true | _ => false
def isKey : Token → Bool | .key => true | _ => false
def isValue : Token → Bool | .value => true | _ => false
def isDocumentStart : Token → Bool | .documentStart => true | _ => false
def isDocumentEnd : Token → Bool | .documentEnd => true | _ => false
def isStreamEnd : Token → Bool | .streamEnd => true | _ => false

def either (p q : Token → Bool) (t : Token) : Bool := p t || q t

def empty : Node := .scalar (.ofPlain "") ""

structure Properties where
  anchor : Option String := none
  tag : Option String := none

def fullTag (handle : Option String) (suffix : String) : Parse String := do
  match handle with
  | none => pure suffix
  | some h => match (← get).prefixes.lookup h with
    | some start => pure (start ++ suffix)
    | none => malformed

def anchor? : Parse (Option String) := do
  match ← peek with
  | some (.anchor name) => do
    advance
    pure (some name)
  | _ => pure none

def tag? : Parse (Option (Option String × String)) := do
  match ← peek with
  | some (.tag handle suffix) => do
    advance
    pure (some (handle, suffix))
  | _ => pure none

def properties : Parse Properties := do
  let first ← anchor?
  let tag ← tag?
  let anchor ← match first with
    | some a => pure (some a)
    | none => if tag.isSome then anchor? else pure none
  let tag ← match tag with
    | none => pure none
    | some (handle, suffix) => do pure (some (← fullTag handle suffix))
  pure ⟨anchor, tag⟩

def claim (anchor : Option String) (node : Option Node) : Parse Unit := do
  match anchor with
  | none => pure ()
  | some name =>
    if ((← get).anchors.lookup name).isSome then malformed
    modify fun s => { s with anchors := (name, node) :: s.anchors }

def complete (anchor : Option String) (node : Node) : Parse Node := do
  match anchor with
  | none => pure ()
  | some name => modify fun s => { s with anchors := (name, some node) :: s.anchors }
  pure node

def scalarTag (tag : Option String) (isPlain : Bool) (text : String) : Tag :=
  match tag with
  | none => if isPlain then .ofPlain text else .text
  | some name => if name == "!" then .ofPlain text else .ofName name

def collectionTag (tag : Option String) (standard : Tag) : Tag :=
  match tag with
  | none => standard
  | some name => if name == "!" then standard else .ofName name

def aliased (name : String) : Parse Node := do
  match (← get).anchors.lookup name with
  | some (some node) => pure node
  | some none => pure (.enclosing name)
  | none => malformed

def scalarNode (p : Properties) (text : String) (isPlain : Bool) : Parse Node := do
  let node := Node.scalar (scalarTag p.tag isPlain text) text
  claim p.anchor (some node)
  pure node

mutual
/-- A node. Block collections may stand in blocks only; `indentless` is the place of a sequence that
is not indented under its key. -/
def node (block indentless : Bool) : Nat → Parse Node
  | 0 => malformed
  | fuel + 1 => do
    match ← peek with
    | some (.alias name) => do
      advance
      aliased name
    | _ => do
      let p ← properties
      let sequence (items : Parse (List Node)) : Parse Node := do
        claim p.anchor none
        complete p.anchor (.sequence (collectionTag p.tag .list) (← items))
      let mapping (entries : Parse (List (Node × Node))) : Parse Node := do
        claim p.anchor none
        complete p.anchor (.mapping (collectionTag p.tag .mapping) (← entries))
      match ← peek with
      | some .blockEntry =>
        if indentless then sequence (plainEntries fuel) else left p
      | some (.scalar content isPlain) => do
        advance
        scalarNode p content isPlain
      | some .flowSequenceStart => do
        advance
        sequence (flowItems true fuel)
      | some .flowMappingStart => do
        advance
        mapping (flowEntries true fuel)
      | some .blockSequenceStart =>
        if block then do
          advance
          sequence (blockItems fuel)
        else left p
      | some .blockMappingStart =>
        if block then do
          advance
          mapping (blockEntries fuel)
        else left p
      | _ => left p
where
  left (p : Properties) : Parse Node := do
    discard (next fun _ => true)
    if p.anchor.isNone && p.tag.isNone then unexpected
    scalarNode p "" true

def optionalNode (ends : Token → Bool) (block indentless : Bool) : Nat → Parse Node
  | 0 => malformed
  | fuel + 1 => do
    if ← next ends then pure empty else node block indentless fuel

def blockItems : Nat → Parse (List Node)
  | 0 => malformed
  | fuel + 1 => do
    if ← accept isBlockEntry then
      let item ← optionalNode (either isBlockEntry isBlockEnd) true false fuel
      pure (item :: (← blockItems fuel))
    else
      expect isBlockEnd
      pure []

def plainEntries : Nat → Parse (List Node)
  | 0 => malformed
  | fuel + 1 => do
    if ← accept isBlockEntry then
      let ends := either (either isBlockEntry isKey) (either isValue isBlockEnd)
      let item ← optionalNode ends true false fuel
      pure (item :: (← plainEntries fuel))
    else pure []

def blockEntries : Nat → Parse (List (Node × Node))
  | 0 => malformed
  | fuel + 1 => do
    if ← accept isKey then
      let ends := either isKey (either isValue isBlockEnd)
      let key ← optionalNode ends true true fuel
      let value ← if ← accept isValue then optionalNode ends true true fuel else pure empty
      pure ((key, value) :: (← blockEntries fuel))
    else
      expect isBlockEnd
      pure []

/-- The items of a sequence in brackets. An item with a colon is a mapping of one entry. -/
def flowItems (first : Bool) : Nat → Parse (List Node)
  | 0 => malformed
  | fuel + 1 => do
    if ← accept isSequenceEnd then pure []
    else
      if !first then expect isFlowEntry
      let ends := either isFlowEntry isSequenceEnd
      if ← accept isKey then
        let key ← optionalNode (either isValue ends) false false fuel
        let value ← if ← accept isValue then optionalNode ends false false fuel else pure empty
        pure (.mapping .mapping [(key, value)] :: (← flowItems false fuel))
      else if ← accept isSequenceEnd then pure []
      else
        let item ← node false false fuel
        pure (item :: (← flowItems false fuel))

def flowEntries (first : Bool) : Nat → Parse (List (Node × Node))
  | 0 => malformed
  | fuel + 1 => do
    if ← accept isMappingEnd then pure []
    else
      if !first then expect isFlowEntry
      let ends := either isFlowEntry isMappingEnd
      if ← accept isKey then
        let key ← optionalNode (either isValue ends) false false fuel
        let value ← if ← accept isValue then optionalNode ends false false fuel else pure empty
        pure ((key, value) :: (← flowEntries false fuel))
      else if ← accept isMappingEnd then pure []
      else
        let key ← node false false fuel
        pure ((key, empty) :: (← flowEntries false fuel))
end

def standardPrefixes : List (String × String) := [("!", "!"), ("!!", Tag.coreStart)]

def directives (version : Bool) (prefixes : List (String × String)) :
    Nat → Parse (List (String × String))
  | 0 => malformed
  | fuel + 1 => do
    match ← peek with
    | some (.directive d) => do
      advance
      match d with
      | .version major =>
        if version || major != 1 then malformed
        directives true prefixes fuel
      | .tagPrefix handle start =>
        if (prefixes.lookup handle).isSome then malformed
        directives version ((handle, start) :: prefixes) fuel
      | .other => directives version prefixes fuel
    | _ => pure prefixes

def skipEnds : Nat → Parse Unit
  | 0 => malformed
  | fuel + 1 => do
    if ← accept isDocumentEnd then skipEnds fuel

def isDocumentMark (t : Token) : Bool := match t with
  | .directive _ | .documentStart | .documentEnd | .streamEnd => true
  | _ => false

def markedDocument (fuel : Nat) : Parse (Option Node) := do
  skipEnds fuel
  if ← next isStreamEnd then pure none
  else
    let prefixes ← directives false [] fuel
    modify fun s => { s with prefixes := prefixes ++ standardPrefixes }
    expect isDocumentStart
    if ← next isDocumentMark then pure (some empty) else pure (some (← node true false fuel))

def document (fuel : Nat) : Parse (Option Node) := do
  let marked ← next fun
    | .directive _ | .documentStart | .streamEnd => true
    | _ => false
  let root ←
    if marked then markedDocument fuel
    else do
      modify fun s => { s with prefixes := standardPrefixes }
      pure (some (← node true false fuel))
  skipEnds fuel
  expect isStreamEnd
  pure root

end Parse

/-- How often a collection that contains itself is written out. Deeper down it is empty. -/
def maxUnfoldings : Nat := 4

def Node.unfold (anchors : List (String × Option Node)) : Nat → Nat → Node → Node
  | 0, _, n => n
  | fuel + 1, times, n => match n with
    | .scalar tag content => .scalar tag content
    | .sequence tag items => .sequence tag (items.map (unfold anchors fuel times))
    | .mapping tag entries =>
      .mapping tag (entries.map fun e =>
        (unfold anchors fuel times e.1, unfold anchors fuel times e.2))
    | .enclosing name => match times, (anchors.lookup name).join with
      | 0, some (.sequence tag _) => .sequence tag []
      | 0, some (.mapping tag _) => .mapping tag []
      | times + 1, some n => unfold anchors fuel times n
      | _, _ => .sequence .list []

def Node.ofText? (text : String) : Except TextFault (Option Node × Nat) := do
  let ts := tokens text
  let fuel := 4 * ts.length + 4
  let (root, s) ← (Parse.document fuel).run { rest := ts }
  let depth := (maxUnfoldings + 2) * fuel
  pure (root.map (·.unfold s.anchors depth maxUnfoldings), depth)

end Booru.Yaml
