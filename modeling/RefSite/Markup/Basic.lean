import RefSite.Value.Text

/-! Markup trees. Content that comes from a model file may be any value, so a tree can hold values
that no page can show; rendering reports them. -/
namespace RefSite

/-- A markup tree: a value, a list of trees, or an element with a type, attributes and content. -/
inductive Markup where
  | value (v : Value)
  | block (children : List Markup)
  | element (type : String) (attributes : List (String × Value)) (content : Markup)
  deriving Repr, Inhabited

namespace Markup

def text (s : String) : Markup := value (.text s)

/-- The absence of content. -/
def void : Markup := value .null

/-- The tree of a value; a list becomes a block. -/
def ofValue (v : Value) : Markup :=
  match v.body with
  | .list items => block (items.map value)
  | _ => value v

/-- How an element's content is to be read. -/
inductive Shape where
  | void
  | text
  | block
  | other
  deriving DecidableEq, Repr

def shape : Markup → Shape
  | value v =>
    match v.body with
    | .null => .void
    | .text _ => .text
    | .list _ => .block
    | _ => .other
  | block _ => .block
  | element _ _ _ => .other

def plain (type : String) (content : Markup) : Markup := element type [] content

def classed (type className : String) (content : Markup) : Markup :=
  element type [("class", .text className)] content

mutual

/-- The form of a tree in messages. -/
def shown : Markup → String
  | value v => v.shown
  | block cs => "[" ++ ", ".intercalate (shownAll cs) ++ "]"
  | element type attributes content =>
    "HtmlNode(type=" ++ Text.quoted type ++ ", attributes=" ++
      (Value.map (attributes.map fun a => (.text a.1, a.2))).shown ++
      ", content=" ++ shown content ++ ")"

def shownAll : List Markup → List String
  | [] => []
  | c :: cs => shown c :: shownAll cs

end

/-- The tree counts as given. -/
def truthy : Markup → Bool
  | value v => v.truthy
  | block cs => !cs.isEmpty
  | element _ _ _ => true

/-- The written form of a tree; a text stands for itself. -/
def written : Markup → String
  | value v => v.written
  | m => m.shown

/-- An element whose class is the written form of `label`, when that counts as given. Without a
content the label is the content. -/
def labelled (type : String) (label content : Markup) : Markup :=
  match content with
  | value .null => plain type label
  | content =>
    let className := if label.truthy then label.written else ""
    if className = "" then plain type content else classed type className content

/-- An anchor; the class is left out when it does not count as given. -/
def anchorOf (content : Markup) (href className : Value) : Markup :=
  element "a" (("href", href) :: if className.truthy then [("class", className)] else []) content

def anchor (label href className : String) : Markup :=
  anchorOf (text label) (.text href) (.text className)

def cell : Markup → Markup
  | value (.text s) => plain "td" (text s)
  | m => plain "td" (block [m])

def row (cells : List Markup) : Markup := plain "tr" (block (cells.map cell))

end Markup

end RefSite
