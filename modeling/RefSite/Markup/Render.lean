import RefSite.Markup.Basic

namespace RefSite.Markup

/-- Element types that stand without a closing tag when they have no content. -/
def voidTypes : List String :=
  ["area", "base", "br", "col", "hr", "img", "input", "link", "meta", "source"]

def escapeChar (c : Char) : List Char :=
  if c = '&' then "&amp;".toList
  else if c = '<' then "&lt;".toList
  else if c = '>' then "&gt;".toList
  else [c]

def escapeAttributeChar (c : Char) : List Char :=
  if c = '\x22' then "&quot;".toList
  else if c = '\x27' then "&#x27;".toList
  else escapeChar c

def escape (s : String) : String := String.ofList (s.toList.flatMap escapeChar)

def escapeAttribute (s : String) : String := String.ofList (s.toList.flatMap escapeAttributeChar)

/-- Why a tree has no text. -/
inductive Fault where
  /-- The content of an element is a value that is neither text nor made of elements. -/
  | noContent
  /-- What stands among the children is not an element. -/
  | notElement
  /-- A number in an attribute has too many digits to be written. -/
  | longNumber
  deriving DecidableEq, Repr

/-- The attributes of an opening tag, each after a space. -/
def attributesText : List (String × Value) → Except Fault String
  | [] => .ok ""
  | (name, v) :: attributes =>
    match v.written?, attributesText attributes with
    | some s, .ok t => .ok (" " ++ name ++ "=\"" ++ escapeAttribute s ++ "\"" ++ t)
    | none, _ => .error .longNumber
    | _, .error f => .error f

/-- An element with its content in text form. -/
def enclose (type attributes inner : String) : String :=
  "<" ++ type ++ attributes ++ ">" ++ inner ++ "</" ++ type ++ ">"

/-- An element whose content is a value. -/
def renderValue (type attributes : String) : Value → Except Fault String
  | .null =>
    .ok (if voidTypes.contains type then "<" ++ type ++ attributes ++ ">"
      else enclose type attributes "")
  | .text s => .ok (enclose type attributes (escape s))
  | v =>
    match v.elements? with
    | none => .error .noContent
    | some [] => .ok (enclose type attributes "")
    | some (_ :: _) => .error .notElement

mutual

/-- The text of an element and all it holds. The first fault in document order is reported. -/
def render : Markup → Except Fault String
  | value _ => .error .notElement
  | block _ => .error .notElement
  | element type attributes content =>
    match attributesText attributes with
    | .error f => .error f
    | .ok opening =>
      match content with
      | value v => renderValue type opening v
      | block cs =>
        match renderAll cs with
        | .ok inner => .ok (enclose type opening inner)
        | .error f => .error f
      | element _ _ _ => .error .noContent

def renderAll : List Markup → Except Fault String
  | [] => .ok ""
  | c :: cs =>
    match render c with
    | .error f => .error f
    | .ok s =>
      match renderAll cs with
      | .error f => .error f
      | .ok t => .ok (s ++ t)

end

def stylesheetLink (href : String) : Markup :=
  element "link" [("rel", .text "stylesheet"), ("type", .text "text/css"), ("href", .text href)]
    void

/-- A whole page: the style sheets in its head and the content in its body. -/
def document (styles : List String) (content : List Markup) : Markup :=
  plain "html" (block [plain "head" (block (styles.map stylesheetLink)),
    plain "body" (block content)])

def renderDocument (styles : List String) (content : List Markup) : Except Fault String :=
  match render (document styles content) with
  | .ok s => .ok ("<!DOCTYPE html>\n" ++ s ++ "\n")
  | .error f => .error f

end RefSite.Markup
