import RefSite.Markup.Render

namespace RefSite.Markup

/-- The names of element types and attributes: letters and digits of ASCII, and hyphens. -/
def isNameChar (c : Char) : Bool := c.isAlphanum || c == '-'

/-- The text can name an element type or an attribute. -/
def isName (s : String) : Bool := s != "" && s.toList.all isNameChar

/-- The attribute has a name, and its value is a text. -/
def isWellFormedAttribute : String × Value → Bool
  | (name, .text _) => isName name
  | _ => false

mutual

/-- An element with proper names, whose content is nothing, a text or further such elements; the
types that stand without a closing tag have no content. -/
def isWellFormed : Markup → Bool
  | element type attributes content =>
    isName type && attributes.all isWellFormedAttribute && isWellFormedContent type content
  | _ => false

def isWellFormedContent (type : String) : Markup → Bool
  | value .null => true
  | value (.text _) => !voidTypes.contains type
  | block cs => !voidTypes.contains type && areWellFormed cs
  | _ => false

def areWellFormed : List Markup → Bool
  | [] => true
  | c :: cs => isWellFormed c && areWellFormed cs

end

mutual

/-- The tree with nothing in place of every empty text and every empty list. -/
def normal : Markup → Markup
  | element type attributes content => element type attributes (normalContent content)
  | m => m

def normalContent : Markup → Markup
  | value (.text s) => if s = "" then void else value (.text s)
  | block [] => void
  | block (c :: cs) => block (normal c :: normals cs)
  | m => m

def normals : List Markup → List Markup
  | [] => []
  | c :: cs => normal c :: normals cs

end

theorem areWellFormed_eq_all (cs : List Markup) : areWellFormed cs = cs.all isWellFormed := by
  induction cs with
  | nil => rfl
  | cons c cs ih => rw [areWellFormed, ih, List.all_cons]

theorem normals_eq_map (cs : List Markup) : normals cs = cs.map normal := by
  induction cs with
  | nil => rfl
  | cons c cs ih => rw [normals, ih, List.map_cons]

end RefSite.Markup
