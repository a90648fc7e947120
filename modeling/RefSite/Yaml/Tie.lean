import RefSite.Yaml.Build

/-! The value of a document, put together from its parts. Parts that do not hold themselves are put
together from the inside; what is left are knots, which are laid out to a depth at which every use
of them has come round to where it was before. -/
namespace RefSite.Yaml

/-- Values by the numbers of their nodes, as far as they are known. -/
abbrev Values := Array (Option Value)

def Values.get? (vs : Values) (n : Nat) : Option Value := (vs[n]?).join

/-- The value of a part, if the values of what it holds are known. -/
def valueOf (vs : Values) : Part → Option Value
  | .scalar v _ => some v
  | .pending => none
  | .list ns => (ns.mapM vs.get?).map .list
  | .map es => (es.mapM fun e => (vs.get? e.2).map fun v => (e.1, v)).map .map

/-- One more value, if it can be known. -/
def settle (ps : Array (Option Part)) (vs : Values) (n : Nat) : Values :=
  if (vs.get? n).isSome then vs
  else vs.setIfInBounds n (((ps[n]?).join).bind (valueOf vs))

/-- The numbers of nodes that have a part and no value yet. -/
def unsettled (ps : Array (Option Part)) (vs : Values) : List Nat :=
  (List.range ps.size).filter fun n => ((ps[n]?).join).isSome && (vs.get? n).isNone

/-- Rounds over all nodes, until one brings nothing new. What is inside a node mostly has a greater
number, so the greater ones go first. -/
def settleAll (ps : Array (Option Part)) : Nat → Values → Values
  | 0, vs => vs
  | fuel + 1, vs =>
    let before := unsettled ps vs
    let after := before.reverse.foldl (settle ps) vs
    if (unsettled ps after).length < before.length then settleAll ps fuel after else after

/-- A knot of which only the kind shows. -/
def spent (n : Nat) : Part → Value
  | .map _ => .knot n (.map [])
  | _ => .knot n (.list [])

/-- The knots laid out once more, from how they are laid out so far. -/
def unfoldOnce (ps : Array (Option Part)) (knots : List Nat) (vs : Values) : Values :=
  knots.foldl
    (fun ws n => ws.setIfInBounds n ((((ps[n]?).join).bind (valueOf vs)).map (Value.knot n))) vs

def repeated {α : Type} (f : α → α) : Nat → α → α
  | 0, a => a
  | k + 1, a => repeated f k (f a)

/-- The depth to which knots are laid out: the uses of a value differ in fewer than eight ways. -/
def layoutDepth (knots : Nat) : Nat := 8 * knots + 8

/-- All values, with knots where parts hold themselves. -/
def tie (ps : Array (Option Part)) : Values :=
  let vs := settleAll ps (ps.size + 1) (Array.replicate ps.size none)
  let knots := unsettled ps vs
  let start := knots.foldl
    (fun ws n => ws.setIfInBounds n (((ps[n]?).join).map (spent n))) vs
  repeated (unfoldOnce ps knots) (if knots.isEmpty then 0 else layoutDepth knots.length) start

/-- The value of a document. -/
def valueOfGraph (g : Graph) (root : Nat) : Except Failure Value := do
  let ps ← parts g root
  match (tie ps).get? root with
  | some v => return v
  | none => throw .malformed

end RefSite.Yaml
