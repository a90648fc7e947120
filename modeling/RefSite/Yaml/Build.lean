import RefSite.Yaml.Merge
import RefSite.Yaml.Scalar

namespace RefSite.Yaml

inductive Part where
  /-- A scalar. Of the values that are no number, those without an `object` are one and the same. -/
  | scalar (value : Value) (object : Option Nat)
  /-- A collection whose items or entries are still to come. -/
  | pending
  | list (items : List Nat)
  | map (entries : List (Value × Nat))
  deriving Repr, Inhabited

structure Key where
  value : Value
  object : Option Nat
  deriving Repr, Inhabited

namespace Key

/-- The value is no number. -/
def isNaN (k : Key) : Bool :=
  match k.value with
  | .float x => x.isNaN
  | _ => false

/-- The keys are the same: equal values, or one and the same object that is no number. -/
def same (k l : Key) : Bool :=
  k.value.sameKey l.value || (k.isNaN && l.isNaN && k.object == l.object)

end Key

/-- The graph, what is known of its nodes by number, and the collections still to be filled: those
of this round, and those of the next with the latest first. -/
structure Builder where
  graph : Graph
  parts : Array (Option Part)
  next : List Nat := []

/-- Steps that make the parts of a document. -/
abbrev Building := StateT Builder (Except Failure)

namespace Building

def part? (n : Nat) : Building (Option Part) := return ((← get).parts[n]?).join

def setPart (n : Nat) (p : Part) : Building Unit :=
  modify fun b => { b with parts := b.parts.setIfInBounds n (some p) }

/-- The text of a scalar. A mapping stands for the scalar that it holds as its default value; one
that holds itself there has no end. -/
def scalarText (g : Graph) : Nat → Nat → Except Failure String
  | 0, _ => throw .endless
  | fuel + 1, n =>
    match (g.node? n).map Node.content with
    | some (.scalar s) => return s
    | some (.mapping es) =>
      match es.find? fun e => g.hasTag e.1 .default with
      | some e => scalarText g fuel e.2
      | none => throw .malformed
    | _ => throw .malformed

/-- The value of a scalar. A time is read from the node itself. -/
def scalarPart (g : Graph) (n : Nat) (x : Node) : Except Failure Part := do
  let s ← scalarText g (g.size + 1) n
  match x.tag, x.content with
  | .timestamp, .mapping _ => throw .compoundTime
  | .float, _ =>
    return .scalar (.float (← floatScalar s)) (if isSharedNaN s then none else some n)
  | tag, _ => return .scalar (← scalarValue tag s) (some n)

/-- Makes what can be made of a node at once; a collection is filled later. -/
def start (n : Nat) : Building Unit := do
  if (← part? n).isSome then return
  let g := (← get).graph
  let some x := g.node? n | throw .malformed
  match x.tag with
  | .seq | .map =>
    setPart n .pending
    modify fun b => { b with next := n :: b.next }
  | .null | .bool | .int | .float | .timestamp | .str => setPart n (← scalarPart g n x)
  | _ => throw .malformed

/-- The node as a key, which collections cannot be. -/
def key (n : Nat) : Building Key := do
  match ← part? n with
  | some (.scalar v object) => return ⟨v, object⟩
  | _ => throw .malformed

/-- The entries with a key set: the key keeps its first place and form, or comes last. -/
def setKey (k : Key) (n : Nat) : List (Key × Nat) → List (Key × Nat)
  | [] => [(k, n)]
  | (l, m) :: es => if l.same k then (l, n) :: es else (l, m) :: setKey k n es

/-- Makes the keys and values of entries in order, and sets them. -/
def fillEntries (done : List (Key × Nat)) : List (Nat × Nat) → Building (List (Key × Nat))
  | [] => return done
  | (k, v) :: es => do
    start k
    let key ← key k
    start v
    fillEntries (setKey key v done) es

/-- Fills a collection. Its type has to be the one that it is written as. -/
def fill (fuel n : Nat) : Building Unit := do
  let some x := (← get).graph.node? n | throw .malformed
  match x.tag, x.content with
  | .seq, .sequence ns =>
    ns.forM start
    setPart n (.list ns)
  | .map, .mapping _ =>
    let b ← get
    match (Merging.mergedEntries fuel n).run b.graph with
    | .error f => throw f
    | .ok (es, g) =>
      set { b with graph := g }
      let done ← fillEntries [] es
      setPart n (.map (done.map fun e => (e.1.value, e.2)))
  | _, _ => throw .malformed

/-- Fills the collections of a round, then those that were met on the way, and so on. -/
def fillRounds (fuel : Nat) : Nat → Building Unit
  | 0 => return
  | rounds + 1 => do
    let ns := (← get).next
    if ns.isEmpty then return
    modify fun b => { b with next := [] }
    ns.reverse.forM (fill fuel)
    fillRounds fuel rounds

/-- Makes all parts of a document. There are no more rounds than nodes. -/
def document (root : Nat) : Building Unit := do
  start root
  let g := (← get).graph
  fillRounds (Merging.fuelFor g) (g.size + 1)

end Building

/-- What the nodes of a document are, as far as they are part of it. -/
def parts (g : Graph) (root : Nat) : Except Failure (Array (Option Part)) :=
  match (Building.document root).run { graph := g, parts := Array.replicate g.size none } with
  | .ok (_, b) => .ok b.parts
  | .error f => .error f

end RefSite.Yaml
