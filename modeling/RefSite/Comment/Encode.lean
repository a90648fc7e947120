import RefSite.Comment.Decode

namespace RefSite.Comment

mutual

def Node.toValue : Node → Value
  | .bare kind => .map [(.text "kind", .text kind)]
  | .paragraph kind nodes =>
    .map [(.text "kind", .text kind), (.text "nodes", .list (Node.toValues nodes))]
  | .softBreak kind => .map [(.text "kind", .text kind)]
  | .code kind content => .map [(.text "kind", .text kind), (.text "code", content)]
  | .link kind label url declaration =>
    .map [(.text "kind", .text kind), (.text "linkText", label), (.text "url", url),
      (.text "codeDestination", declaration)]
  | .plain kind text => .map [(.text "kind", .text kind), (.text "text", text)]

def Node.toValues : List Node → List Value
  | [] => []
  | n :: ns => n.toValue :: Node.toValues ns

end

def isText : Value → Bool
  | .text _ => true
  | _ => false

mutual

/-- The node is one that a mapping can stand for: its kind goes with its content, texts are texts,
and the kind of a bare node goes with no content. -/
def Node.isReadable : Node → Bool
  | .bare kind => !shownKinds.contains kind
  | .paragraph kind nodes => kind == paragraphKind && Node.areReadable nodes
  | .softBreak kind => kind == softBreakKind
  | .code kind content => kind == codeKind && isText content
  | .link kind _ _ _ => kind == linkKind
  | .plain kind text => kind == plainKind && isText text

def Node.areReadable : List Node → Bool
  | [] => true
  | n :: ns => n.isReadable && Node.areReadable ns

end

def sectionToValue : Option (List Node) → Value
  | none => .null
  | some ns => .list (Node.toValues ns)

def toValue (c : Comment) : Value :=
  .map [(.text "summary", .list (Node.toValues c.summary)),
    (.text "remarks", sectionToValue c.remarks)]

def isReadable (c : Comment) : Bool :=
  Node.areReadable c.summary && c.remarks.all Node.areReadable

end RefSite.Comment
