import RefSite.Markup.Render

namespace RefSite.Markup

structure Table where
  headings : List String
  rows : List Markup
  deriving Repr, Inhabited

namespace Table

/-- The table without body rows. -/
def ofHeadings (headings : List String) : Table := ⟨headings, []⟩

def addRow (t : Table) (row : Markup) : Table := ⟨t.headings, t.rows ++ [row]⟩

def rowCount (t : Table) : Nat := t.rows.length

def head (headings : List String) : Markup :=
  plain "thead" (block [plain "tr" (block (headings.map fun h => plain "th" (text h)))])

def toMarkup (t : Table) : Markup := plain "table" (block (head t.headings :: t.rows))

end Table

end RefSite.Markup
