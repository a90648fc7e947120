namespace RefSite

inductive Start where
  | relative
  | root
  /-- Exactly two slashes in front, which are kept apart from one. -/
  | doubleRoot
  deriving DecidableEq, Repr, Inhabited

structure Path where
  start : Start
  parts : List String
  deriving DecidableEq, Repr, Inhabited

/-- The pieces of a text between separators; there is always at least one. -/
def splitAt (sep : Char) : List Char → List (List Char)
  | [] => [[]]
  | c :: cs =>
    if c = sep then [] :: splitAt sep cs
    else match splitAt sep cs with
      | p :: ps => (c :: p) :: ps
      | [] => [[c]]

namespace Path

def here : Path := ⟨.relative, []⟩

/-- The number of slashes in front decides where a path starts. -/
def startOf : List Char → Start
  | '/' :: '/' :: '/' :: _ => .root
  | '/' :: '/' :: _ => .doubleRoot
  | '/' :: _ => .root
  | _ => .relative

/-- The parts of a path text that name something. -/
def partsOf (cs : List Char) : List String :=
  ((splitAt '/' cs).filter fun p => !p.isEmpty && p != ['.']).map String.ofList

/-- The path that a text denotes; the empty text denotes the current folder. -/
def ofText (s : String) : Path := ⟨startOf s.toList, partsOf s.toList⟩

def Start.text : Start → String
  | .relative => ""
  | .root => "/"
  | .doubleRoot => "//"

def text (p : Path) : String :=
  if p.start = .relative ∧ p.parts = [] then "."
  else Start.text p.start ++ "/".intercalate p.parts

def isAbsolute (p : Path) : Bool := p.start != .relative

/-- The second path seen from the first; an absolute one stays as it is. -/
def join (p q : Path) : Path := if q.isAbsolute then q else ⟨p.start, p.parts ++ q.parts⟩

def child (p : Path) (name : String) : Path := ⟨p.start, p.parts ++ [name]⟩

/-- The path one part shorter; a path without parts is its own parent. -/
def parent (p : Path) : Path := ⟨p.start, p.parts.dropLast⟩

def name (p : Path) : String := p.parts.getLast?.getD ""

/-- What paths are ordered by: the slashes in front and then the parts one by one. -/
def key (p : Path) : List String :=
  if p.start = .relative then p.parts else Start.text p.start :: p.parts

/-- Part-by-part order, each part by code points. -/
def before (p q : Path) : Bool := p.key < q.key

/-- Paths hold no null character. -/
def isProper (p : Path) : Bool := p.parts.all fun part => !part.toList.contains '\x00'

theorem parts_child (p : Path) (name : String) : (p.child name).parts = p.parts ++ [name] := rfl

theorem parent_child (p : Path) (name : String) : (p.child name).parent = p := by
  simp [parent, child]

/-- Seen from a path, the parts of another one come after its own. -/
theorem key_join {p q : Path} (hq : q.isAbsolute = false) : (p.join q).key = p.key ++ q.parts := by
  rw [join, hq, if_neg (by decide)]
  by_cases hp : p.start = .relative
  · rw [key, key, if_pos hp, if_pos hp]
  · rw [key, key, if_neg hp, if_neg hp, List.cons_append]

end Path

end RefSite
