import RefSite.Item.Name

/-! A store of items that are put together step by step. An item may be listed by several others,
and its parent is the last one that took it in; names are derived from parents, not from lists. Every
item has a list of its own: two items that are made from one list do not share it. -/
namespace RefSite

abbrev Handle := Nat

/-- An item in a store: its declaration, its parent and the items it lists. -/
structure Store.Cell where
  self : Declaration
  parent : Option Handle := none
  members : List Handle := []
  deriving Repr, Inhabited

/-- Items by their numbers. -/
structure Store where
  cells : List Store.Cell := []
  deriving Repr, Inhabited

namespace Store

def get? (s : Store) (h : Handle) : Option Cell := s.cells[h]?

def modify (s : Store) (h : Handle) (f : Cell → Cell) : Store := ⟨s.cells.modify h f⟩

def setParent (s : Store) (p m : Handle) : Store := s.modify m fun c => { c with parent := some p }

/-- The store with a new item that lists existing ones, and the new item's number. Each listed item
takes the new one for its parent. -/
def create (s : Store) (d : Declaration) (members : List Handle) : Store × Handle :=
  let h := s.cells.length
  (members.foldl (fun s m => s.setParent h m) ⟨s.cells ++ [{ self := d, members }]⟩, h)

/-- The store with `m` listed last by `p`, which becomes its parent. -/
def addMember (s : Store) (p m : Handle) : Store :=
  (s.setParent p m).modify p fun c => { c with members := c.members ++ [m] }

def modifySelf (s : Store) (h : Handle) (f : Declaration → Declaration) : Store :=
  s.modify h fun c => { c with self := f c.self }

/-- The chain from an item up to the root, item first, of at most `fuel` items. -/
def chainUp (s : Store) : Nat → Handle → List Handle
  | 0, _ => []
  | fuel + 1, h =>
    match s.get? h with
    | none => []
    | some c =>
      match c.parent with
      | none => [h]
      | some p => h :: chainUp s fuel p

/-- The chain of items from the root down to the given one. A chain without repetition is no longer
than the store. -/
def hierarchy (s : Store) (h : Handle) : List Handle := (s.chainUp s.cells.length h).reverse

def selves (s : Store) (hs : List Handle) : List Declaration :=
  hs.filterMap fun h => (s.get? h).map Cell.self

/-- The place of an item below its parents. -/
def place? (s : Store) (h : Handle) : Option Place :=
  (s.get? h).map fun c => ⟨s.selves (s.hierarchy h).dropLast, c.self⟩

mutual

/-- The tree below an item, each item with the place its parents give it, to a depth of `fuel`. -/
def placedWithin (s : Store) : Nat → Handle → Option Placed
  | 0, _ => none
  | fuel + 1, h => do
    let c ← s.get? h
    let p ← s.place? h
    some (.mk p (allPlacedWithin s fuel c.members))

def allPlacedWithin (s : Store) : Nat → List Handle → List Placed
  | _, [] => []
  | 0, _ :: _ => []
  | fuel + 1, h :: hs =>
    (placedWithin s (fuel + 1) h).toList ++ allPlacedWithin s (fuel + 1) hs

end

/-- The tree below an item. Items that do not hold themselves nest no deeper than the store is
large. -/
def placed? (s : Store) (h : Handle) : Option Placed := s.placedWithin (s.cells.length + 1) h

mutual

/-- The store with a whole tree put in, and the number of its root. -/
def insertTree (s : Store) : Item → Store × Handle
  | .mk d ms =>
    let r := insertForest s ms
    r.1.create d r.2

def insertForest (s : Store) : List Item → Store × List Handle
  | [] => (s, [])
  | m :: ms =>
    let r := insertTree s m
    let rs := insertForest r.1 ms
    (rs.1, r.2 :: rs.2)

end

theorem chainUp_root {s : Store} {h : Handle} {c : Cell} (hc : s.get? h = some c)
    (hp : c.parent = none) (fuel : Nat) : s.chainUp (fuel + 1) h = [h] := by
  simp [chainUp, hc, hp]

end Store

end RefSite
