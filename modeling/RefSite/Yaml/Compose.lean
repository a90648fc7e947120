import RefSite.Yaml.Graph
import RefSite.Yaml.Token

/-! The graph that the tokens of a document describe. Anchors are noted where their nodes begin, so
that a node can be referred to from inside itself. The first token that is out of place ends the
work, as does the first reference without an anchor. -/
namespace RefSite.Yaml

/-- What may stand in front of a node. -/
structure Properties where
  anchor : Option String := none
  /-- The tag in full; a single exclamation mark leaves the type open. -/
  tag : Option String := none
  deriving Repr, Inhabited

structure Composer where
  tokens : List Token
  graph : Graph := {}
  anchors : List (String × Nat) := []

abbrev Composing := StateT Composer (Except Failure)

/-- The meanings of tag handles. -/
abbrev Handles := List (String × String)

/-- The type of a scalar: by its tag, or else by its spelling unless it is quoted. -/
def scalarTag (tag : Option String) (text : String) (plain : Bool) : Tag :=
  match tag with
  | none => if plain then plainTag text else .str
  | some "!" => plainTag text
  | some t => Tag.ofName t

/-- The type of a collection: by its tag, or else the usual one. -/
def collectionTag (tag : Option String) (usual : Tag) : Tag :=
  match tag with
  | none => usual
  | some "!" => usual
  | some t => Tag.ofName t

namespace Composing

def reject {α : Type} : Composing α := throw .malformed

/-- The next token; the end of what could be read is reported when it is reached. -/
def peek : Composing Token := do
  match (← get).tokens with
  | [] => reject
  | .broken f :: _ => throw f
  | t :: _ => return t

def skip : Composing Unit := modify fun c => { c with tokens := c.tokens.drop 1 }

def skipIf (p : Token → Bool) : Composing Bool := do
  if p (← peek) then
    skip
    return true
  else return false

def isKey : Token → Bool
  | .key => true
  | _ => false

def isValue : Token → Bool
  | .value => true
  | _ => false

def isBlockEntry : Token → Bool
  | .blockEntry => true
  | _ => false

def isBlockEnd : Token → Bool
  | .blockEnd => true
  | _ => false

def isFlowEntry : Token → Bool
  | .flowEntry => true
  | _ => false

def isSequenceEnd : Token → Bool
  | .flowSequenceEnd => true
  | _ => false

def isMappingEnd : Token → Bool
  | .flowMappingEnd => true
  | _ => false

def isDocumentEnd : Token → Bool
  | .documentEnd => true
  | _ => false

def fullTag (handles : Handles) (handle : Option String) (suffix : String) : Composing String :=
  match handle with
  | none => return suffix
  | some h =>
    match handles.lookup h with
    | some meaning => return meaning ++ suffix
    | none => reject

/-- An anchor and a tag in any order. -/
def properties (handles : Handles) : Composing Properties := do
  match ← peek with
  | .anchor name =>
    skip
    match ← peek with
    | .tag h t =>
      skip
      return ⟨some name, some (← fullTag handles h t)⟩
    | _ => return ⟨some name, none⟩
  | .tag h t =>
    skip
    let next ← peek
    let tag ← fullTag handles h t
    match next with
    | .anchor name =>
      skip
      return ⟨some name, some tag⟩
    | _ => return ⟨none, some tag⟩
  | _ => return {}

/-- Adds a node and notes its anchor, which may not be there already. The result is its number. -/
def add (anchor : Option String) (x : Node) : Composing Nat := do
  let c ← get
  let n := c.graph.size
  match anchor with
  | none => set { c with graph := c.graph.add x }
  | some name =>
    if (c.anchors.lookup name).isSome then reject
    set { c with graph := c.graph.add x, anchors := (name, n) :: c.anchors }
  return n

def addScalar (ps : Properties) (text : String) (plain : Bool) : Composing Nat :=
  add ps.anchor ⟨scalarTag ps.tag text plain, .scalar text⟩

/-- Adds the scalar where nothing is written. -/
def addEmpty : Composing Nat := addScalar {} "" true

/-- Adds a sequence, and then the items in it. -/
def addSequence (ps : Properties) (items : Composing (List Nat)) : Composing Nat := do
  let n ← add ps.anchor ⟨collectionTag ps.tag .seq, .sequence []⟩
  let is ← items
  modify fun c => { c with graph := c.graph.setContent n (.sequence is) }
  return n

def addMapping (ps : Properties) (entries : Composing (List (Nat × Nat))) : Composing Nat := do
  let n ← add ps.anchor ⟨collectionTag ps.tag .map, .mapping []⟩
  let es ← entries
  modify fun c => { c with graph := c.graph.setContent n (.mapping es) }
  return n

def resolve (name : String) : Composing Nat := do
  match (← get).anchors.lookup name with
  | some n => return n
  | none => reject

/-- A node, or the empty one if the next token ends its place. -/
def orEmpty (ends : Token → Bool) (node : Composing Nat) : Composing Nat := do
  if ends (← peek) then addEmpty else node

/-- Where nodes may stand, and which of them. -/
inductive Context where
  /-- Inside a flow collection. -/
  | flow
  | block
  /-- After a key or its colon, where a sequence needs no indentation. -/
  | entry
  deriving DecidableEq

/-- The node where only an anchor or tag is written. -/
def emptyNode (ps : Properties) : Composing Nat :=
  if ps.anchor.isSome || ps.tag.isSome then addScalar ps "" true else reject

mutual

def node (handles : Handles) : Nat → Context → Composing Nat
  | 0, _ => reject
  | fuel + 1, context => do
    if let .alias name ← peek then
      skip
      return ← resolve name
    let ps ← properties handles
    match ← peek with
    | .scalar text plain =>
      skip
      addScalar ps text plain
    | .flowSequenceStart => addSequence ps (do skip; flowItems handles fuel true)
    | .flowMappingStart => addMapping ps (do skip; flowEntries handles fuel true)
    | .blockEntry =>
      if context = .entry then addSequence ps (flatItems handles fuel) else emptyNode ps
    | .blockSequenceStart =>
      if context = .flow then emptyNode ps else addSequence ps (do skip; blockItems handles fuel)
    | .blockMappingStart =>
      if context = .flow then emptyNode ps else addMapping ps (do skip; blockEntries handles fuel)
    | _ => emptyNode ps

/-- The items of a block sequence, up to its end. -/
def blockItems (handles : Handles) : Nat → Composing (List Nat)
  | 0 => reject
  | fuel + 1 => do
    if ← skipIf isBlockEntry then
      let i ← orEmpty (fun t => isBlockEntry t || isBlockEnd t) (node handles fuel .block)
      return i :: (← blockItems handles fuel)
    else if ← skipIf isBlockEnd then return []
    else reject

/-- The items of a sequence that is not indented; any other token ends it. -/
def flatItems (handles : Handles) : Nat → Composing (List Nat)
  | 0 => reject
  | fuel + 1 => do
    if ← skipIf isBlockEntry then
      let i ← orEmpty (fun t => isBlockEntry t || isKey t || isValue t || isBlockEnd t)
        (node handles fuel .block)
      return i :: (← flatItems handles fuel)
    else return []

/-- The entries of a block mapping, up to its end. -/
def blockEntries (handles : Handles) : Nat → Composing (List (Nat × Nat))
  | 0 => reject
  | fuel + 1 => do
    let ends (t : Token) : Bool := isKey t || isValue t || isBlockEnd t
    if ← skipIf isKey then
      let k ← orEmpty ends (node handles fuel .entry)
      let v ← if ← skipIf isValue then orEmpty ends (node handles fuel .entry) else addEmpty
      return (k, v) :: (← blockEntries handles fuel)
    else if ← skipIf isBlockEnd then return []
    else reject

/-- The items of a flow sequence, up to its end. A pair stands for a mapping with one entry. -/
def flowItems (handles : Handles) : Nat → Bool → Composing (List Nat)
  | 0, _ => reject
  | fuel + 1, first => do
    if ← skipIf isSequenceEnd then return []
    if !first then
      if !(← skipIf isFlowEntry) then reject
    if ← skipIf isSequenceEnd then return []
    let i ← if isKey (← peek) then addMapping {} (flowPair handles fuel) else node handles fuel .flow
    return i :: (← flowItems handles fuel false)

/-- The only entry of a mapping that is written as a pair. -/
def flowPair (handles : Handles) : Nat → Composing (List (Nat × Nat))
  | 0 => reject
  | fuel + 1 => do
    skip
    let ends (t : Token) : Bool := isFlowEntry t || isSequenceEnd t
    let k ← orEmpty (fun t => isValue t || ends t) (node handles fuel .flow)
    let v ← if ← skipIf isValue then orEmpty ends (node handles fuel .flow) else addEmpty
    return [(k, v)]

/-- The entries of a flow mapping, up to its end. A node that is no key has an empty value. -/
def flowEntries (handles : Handles) : Nat → Bool → Composing (List (Nat × Nat))
  | 0, _ => reject
  | fuel + 1, first => do
    if ← skipIf isMappingEnd then return []
    if !first then
      if !(← skipIf isFlowEntry) then reject
    if ← skipIf isMappingEnd then return []
    if ← skipIf isKey then
      let ends (t : Token) : Bool := isFlowEntry t || isMappingEnd t
      let k ← orEmpty (fun t => isValue t || ends t) (node handles fuel .flow)
      let v ← if ← skipIf isValue then orEmpty ends (node handles fuel .flow) else addEmpty
      return (k, v) :: (← flowEntries handles fuel false)
    else
      let k ← node handles fuel .flow
      let v ← addEmpty
      return (k, v) :: (← flowEntries handles fuel false)

end

def fuelFor (ts : List Token) : Nat := 4 * ts.length + 8

/-- The handles that hold unless a directive changes them. -/
def defaultHandles : Handles := [("!", "!"), ("!!", "tag:yaml.org,2002:")]

/-- The directives in front of a document: at most one version, which has to be 1, and one meaning
for each handle. -/
def directives (versioned : Bool) (handles : Handles) : Nat → Composing Handles
  | 0 => reject
  | fuel + 1 => do
    match ← peek with
    | .directive (.version major) =>
      skip
      if versioned || major ≠ 1 then reject
      directives true handles fuel
    | .directive (.tagHandle handle meaning) =>
      skip
      if (handles.lookup handle).isSome then reject
      directives versioned ((handle, meaning) :: handles) fuel
    | .directive .other =>
      skip
      directives versioned handles fuel
    | _ => return handles ++ defaultHandles

/-- Passes over the ends of documents. -/
def skipDocumentEnds : Nat → Composing Unit
  | 0 => reject
  | fuel + 1 => do
    if ← skipIf isDocumentEnd then skipDocumentEnds fuel

/-- The next token can only come after a document. -/
def endsDocument : Token → Bool
  | .directive _ | .documentStart | .documentEnd | .streamEnd => true
  | _ => false

/-- The directives and the mark in front of a document; nothing at the end of the text. -/
def documentStart (fuel : Nat) : Composing (Option Handles) := do
  skipDocumentEnds fuel
  if let .streamEnd ← peek then return none
  let handles ← directives false [] fuel
  match ← peek with
  | .documentStart =>
    skip
    return some handles
  | _ => reject

/-- The root of the only document, if there is one. What a second one starts with is still read. -/
def onlyDocument : Composing (Option Nat) := do
  let fuel := fuelFor (← get).tokens
  let root ← match ← peek with
    | .directive _ | .documentStart | .streamEnd =>
      match ← documentStart fuel with
      | none => return none
      | some handles => orEmpty endsDocument (node handles fuel .block)
    | _ => node defaultHandles fuel .block
  match ← documentStart fuel with
  | none => return some root
  | some _ => reject

end Composing

/-- The graph of the only document among the tokens and the number of its root, if there is one. -/
def compose? (ts : List Token) : Except Failure (Option (Graph × Nat)) :=
  match Composing.onlyDocument.run { tokens := ts } with
  | .ok (root, c) => .ok (root.map fun n => (c.graph, n))
  | .error f => .error f

end RefSite.Yaml
