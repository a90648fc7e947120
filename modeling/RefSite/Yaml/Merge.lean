import RefSite.Failure
import RefSite.Yaml.Graph

/-! Mappings that are merged into others. A merge key gives way to the entries of the mapping under
it, or of the mappings in the list under it; they come before the mapping's own entries, and of
several mappings the first counts most. What is merged in is itself merged first, and stays so. -/
namespace RefSite.Yaml

/-- Steps that change a graph. -/
abbrev Merging := StateT Graph (Except Failure)

namespace Merging

/-- The entries of a node that has to be a mapping. -/
def entries (n : Nat) : Merging (List (Nat × Nat)) := do
  match (← get).entries? n with
  | some es => return es
  | none => throw .malformed

/-- The number of entries in front of the first merge key. -/
def ownPrefix (g : Graph) (es : List (Nat × Nat)) : Nat :=
  (es.takeWhile fun e => !g.hasTag e.1 .merge).length

/-- Keys of default values are ordinary texts from now on. -/
def settleKeys (es : List (Nat × Nat)) : Merging Unit :=
  modify fun g => es.foldl (fun g e => if g.hasTag e.1 .default then g.setTag e.1 .str else g) g

mutual

/-- Merges into a mapping what its entries from the given place on ask for; `merged` is what the
entries before that place have brought. -/
def mergeFrom : Nat → Nat → Nat → List (Nat × Nat) → Merging Unit
  | 0, _, _, _ => throw .endless
  | fuel + 1, n, start, merged => do
    let es ← entries n
    let place := start + ownPrefix (← get) (es.drop start)
    settleKeys ((es.take place).drop start)
    match es.drop place with
    | [] => modify fun g => g.setContent n (.mapping (merged ++ es))
    | (_, v) :: rest =>
      modify fun g => g.setContent n (.mapping (es.take place ++ rest))
      let more ← contribution fuel v
      mergeFrom fuel n place (merged ++ more)

/-- What a node under a merge key contributes. -/
def contribution : Nat → Nat → Merging (List (Nat × Nat))
  | 0, _ => throw .endless
  | fuel + 1, v => do
    match ((← get).node? v).map Node.content with
    | some (.sequence ns) =>
      let parts ← ns.mapM fun n => mergedEntries fuel n
      return parts.reverse.flatten
    | _ => mergedEntries fuel v

/-- The entries of a mapping after everything is merged into it. -/
def mergedEntries : Nat → Nat → Merging (List (Nat × Nat))
  | 0, _ => throw .endless
  | fuel + 1, n => do
    mergeFrom fuel n 0 []
    entries n

end

/-- Enough to merge whatever the mappings of a graph ask for, since every merge key is used once. -/
def fuelFor (g : Graph) : Nat := 4 * g.entryCount + 4

end Merging

end RefSite.Yaml
