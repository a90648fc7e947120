import RefSite.Comment.Basic
import RefSite.Item.Kind
import RefSite.Text.Blank

namespace RefSite

structure Parameter where
  name : String
  type : String
  deriving DecidableEq, Repr, Inhabited

structure Declaration where
  kind : KindLabel
  name : String
  comment : Option Comment := none
  excerpt : String := ""
  modifiers : List String := []
  release : Option Release := none
  parameters : List Parameter := []
  overload : Int := 1
  isStatic : Bool := false
  isEvent : Bool := false
  propertyType : String := ""
  initializer : String := ""
  deriving Repr, Inhabited

namespace Declaration

def is (d : Declaration) (k : Kind) : Bool := d.kind.is k

def isFunctionLike (d : Declaration) : Bool := d.kind.kind?.any Kind.isFunctionLike

/-- The declaration is of a kind that does not show in names. -/
def isContainer (d : Declaration) : Bool := d.kind.kind?.any Kind.isContainer

/-- The excerpt after its modifiers. -/
def signature (d : Declaration) : String :=
  Text.strip (" ".intercalate (d.modifiers ++ [Text.strip d.excerpt]))

/-- The name, with the names of the parameters if there can be any. -/
def conciseSignature (d : Declaration) : String :=
  if d.isFunctionLike then
    d.name ++ "(" ++ ", ".intercalate (d.parameters.map Parameter.name) ++ ")"
  else d.name

theorem is_iff {d : Declaration} {k : Kind} : d.is k = true ↔ d.kind.kind? = some k := by
  simp [is, KindLabel.is]

/-- A declaration is of one kind at most. -/
theorem is_eq_false_of_is {d : Declaration} {j k : Kind} (h : d.is j = true) (hne : j ≠ k) :
    d.is k = false := by
  rw [← Bool.not_eq_true, is_iff, is_iff.1 h]
  simpa using hne

theorem isContainer_eq (d : Declaration) :
    d.isContainer = (d.is .model || d.is .package || d.is .entryPoint) := by
  unfold isContainer is KindLabel.is
  cases d.kind.kind? with
  | none => rfl
  | some k => cases k <;> rfl

theorem is_eq_false_of_shown {d : Declaration} (h : d.isContainer = false) {k : Kind}
    (hk : k.isContainer = true) : d.is k = false := by
  rw [← Bool.not_eq_true, is_iff]
  intro hkind
  rw [isContainer, hkind, Option.any_some, hk] at h
  exact nomatch h

end Declaration

/-- A tree of items: a declaration and its members in order. -/
inductive Item where
  | mk (self : Declaration) (members : List Item)
  deriving Repr, Inhabited

namespace Item

def self : Item → Declaration
  | mk d _ => d

def members : Item → List Item
  | mk _ ms => ms

/-- The item with a member after the others. -/
def addMember (i m : Item) : Item := mk i.self (i.members ++ [m])

def entryPoints (i : Item) : List Item := i.members.filter fun m => m.self.is .entryPoint

end Item

/-- A declaration with the declarations above it, from the root down. -/
structure Place where
  above : List Declaration
  self : Declaration
  deriving Repr, Inhabited

namespace Place

/-- The chain of declarations from the root down to this one. -/
def levels (p : Place) : List Declaration := p.above ++ [p.self]

def child (p : Place) (d : Declaration) : Place := ⟨p.levels, d⟩

theorem levels_child (p : Place) (d : Declaration) : (p.child d).levels = p.levels ++ [d] := rfl

end Place

/-- A tree of places: each item with the chain that leads to it. -/
inductive Placed where
  | mk (place : Place) (members : List Placed)
  deriving Repr, Inhabited

namespace Placed

def place : Placed → Place
  | mk p _ => p

def members : Placed → List Placed
  | mk _ ms => ms

/-- What the item says about itself. -/
def self (p : Placed) : Declaration := p.place.self

def entryPoints (p : Placed) : List Placed := p.members.filter fun m => m.self.is .entryPoint

mutual

/-- The places of the item and all below it, depth first, parents first. -/
def all : Placed → List Place
  | mk p ms => p :: allOf ms

def allOf : List Placed → List Place
  | [] => []
  | m :: ms => all m ++ allOf ms

end

mutual

def size : Placed → Nat
  | mk _ ms => sizeOfAll ms + 1

def sizeOfAll : List Placed → Nat
  | [] => 0
  | m :: ms => size m + sizeOfAll ms

end

theorem size_pos (p : Placed) : 0 < p.size := by
  cases p; rw [size]; exact Nat.succ_pos _

theorem sizeOfAll_members (p : Placed) : sizeOfAll p.members + 1 = p.size := by
  cases p; rw [size, members]

theorem size_le_sizeOfAll {p : Placed} {ps : List Placed} (h : p ∈ ps) :
    p.size ≤ sizeOfAll ps := by
  induction ps with
  | nil => simp at h
  | cons q qs ih =>
    rw [sizeOfAll]
    rcases List.mem_cons.1 h with rfl | h
    · exact Nat.le_add_right _ _
    · exact Nat.le_trans (ih h) (Nat.le_add_left _ _)

theorem sizeOfAll_filter_le (f : Placed → Bool) (ps : List Placed) :
    sizeOfAll (ps.filter f) ≤ sizeOfAll ps := by
  induction ps with
  | nil => exact Nat.le_refl _
  | cons q qs ih =>
    rw [List.filter_cons]
    split
    · rw [sizeOfAll, sizeOfAll]; exact Nat.add_le_add_left ih _
    · rw [sizeOfAll]; exact Nat.le_trans ih (Nat.le_add_left _ _)

end Placed

namespace Item

mutual

/-- The tree of places of an item below the given chain. -/
def placedBelow (above : List Declaration) : Item → Placed
  | mk d ms => .mk ⟨above, d⟩ (allPlacedBelow (above ++ [d]) ms)

def allPlacedBelow (above : List Declaration) : List Item → List Placed
  | [] => []
  | m :: ms => placedBelow above m :: allPlacedBelow above ms

end

/-- The tree of places of an item that is a root: every item stands below those that list it. -/
def placed (i : Item) : Placed := i.placedBelow []

theorem place_placedBelow (above : List Declaration) (i : Item) :
    (i.placedBelow above).place = ⟨above, i.self⟩ := by
  cases i; rfl

theorem allPlacedBelow_eq_map (above : List Declaration) (is : List Item) :
    allPlacedBelow above is = is.map (placedBelow above) := by
  induction is with
  | nil => rfl
  | cons i is ih => rw [allPlacedBelow, ih, List.map_cons]

theorem members_placedBelow (above : List Declaration) (i : Item) :
    (i.placedBelow above).members = i.members.map (placedBelow (above ++ [i.self])) := by
  cases i with
  | mk d ms => exact allPlacedBelow_eq_map _ _

end Item

end RefSite
