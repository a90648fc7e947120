import RefSite.Value.Basic

namespace RefSite.Comment

/-- A node of a comment. The fields that a model file fills without a check are values. -/
inductive Node where
  | bare (kind : String)
  | paragraph (kind : String) (nodes : List Node)
  | softBreak (kind : String)
  | code (kind : String) (code : Value)
  | link (kind : String) (label url declaration : Value)
  | plain (kind : String) (text : Value)
  deriving Repr, Inhabited

def paragraphKind : String := "Paragraph"

def softBreakKind : String := "SoftBreak"

def codeKind : String := "CodeSpan"

def linkKind : String := "LinkTag"

def plainKind : String := "PlainText"

def shownKinds : List String := [paragraphKind, softBreakKind, codeKind, linkKind, plainKind]

namespace Node

def kind : Node → String
  | bare k => k
  | paragraph k _ => k
  | softBreak k => k
  | code k _ => k
  | link k _ _ _ => k
  | plain k _ => k

/-- The kind that goes with the node's content; a bare node has none. -/
def ownKind? : Node → Option String
  | bare _ => none
  | paragraph _ _ => some paragraphKind
  | softBreak _ => some softBreakKind
  | code _ _ => some codeKind
  | link _ _ _ _ => some linkKind
  | plain _ _ => some plainKind

/-- The node can be shown: it is a line break, or its kind goes with its content. -/
def isSupported (n : Node) : Bool := n.kind == softBreakKind || n.ownKind? == some n.kind

end Node

end Comment

structure Comment where
  summary : List Comment.Node
  remarks : Option (List Comment.Node)
  deriving Repr, Inhabited

end RefSite
