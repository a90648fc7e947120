import RefSite.Comment.Basic
import RefSite.Value.Elements

/-! Comments from untyped data. A section may be a list of nodes or a bare text, which stands for
one paragraph; a node of an unknown kind is kept, so that it is rejected where it would be shown. -/
namespace RefSite.Comment

/-- The section that a bare text stands for. -/
def shorthand (s : String) : List Node :=
  [.paragraph paragraphKind [.plain plainKind (.text s)]]

/-- The kind is the given one; only texts can be. -/
def isKind (es : Entries) (kind : String) : Bool :=
  match Entries.field es "kind" with
  | .text k => k == kind
  | _ => false

/-- A node without nodes inside, from the entries of its mapping. A kind that is no text is kept in
its written form. -/
def leafOfEntries (es : Entries) : Except Failure Node :=
  if isKind es softBreakKind then .ok (.softBreak softBreakKind)
  else if isKind es codeKind then
    (Entries.field es "code").writeOrEmpty.map fun s => .code codeKind (.text s)
  else if isKind es linkKind then
    .ok (.link linkKind (Entries.field es "linkText") (Entries.field es "url")
      (Entries.field es "codeDestination"))
  else if isKind es plainKind then
    (Entries.field es "text").writeOrEmpty.map fun s => .plain plainKind (.text s)
  else (Entries.field es "kind").write.map .bare

mutual

def nodeOfValue (source : Option Path) (v : Value) : Except Failure Node :=
  match _h : v.entriesOr (.model (.commentNodeNotMapping source v)) with
  | .error f => .error f
  | .ok es =>
    if isKind es paragraphKind then
      match givenNodesOf source (Entries.field es "nodes") with
      | .ok ns => .ok (.paragraph paragraphKind ns)
      | .error f => .error f
    else leafOfEntries es
termination_by (v.depth, 0, 0)
decreasing_by
  have h₁ := Value.depth_field_le es "nodes"
  have h₂ := Value.depthEntries_of_entriesOr _h
  simp [Prod.lex_def]; omega

/-- The nodes of a section that may be left out. -/
def givenNodesOf (source : Option Path) (v : Value) : Except Failure (List Node) :=
  if v.truthy then nodesOf source v else .ok []
termination_by (v.depth, 3, 0)

def nodesOf (source : Option Path) (v : Value) : Except Failure (List Node) :=
  match v with
  | .text s => .ok (shorthand s)
  | v =>
    match _h : v.elements with
    | .ok xs => nodesOfValues source xs
    | .error f => .error f
termination_by (v.depth, 2, 0)
decreasing_by
  have := Value.depthAll_of_elements _h
  simp [Prod.lex_def]; omega

/-- Nodes from mappings, in order; the first failure counts. -/
def nodesOfValues (source : Option Path) (vs : List Value) : Except Failure (List Node) :=
  match vs with
  | [] => .ok []
  | v :: vs =>
    match nodeOfValue source v with
    | .error f => .error f
    | .ok n =>
      match nodesOfValues source vs with
      | .error f => .error f
      | .ok ns => .ok (n :: ns)
termination_by (Value.depthAll vs, 1, vs.length)
decreasing_by
  all_goals simp [Prod.lex_def, Value.depthAll]; omega

end

/-- A comment from the entries of its mapping; remarks may be left out. -/
def ofEntries (source : Option Path) (es : Entries) : Except Failure Comment :=
  match givenNodesOf source (Entries.field es "summary") with
  | .error f => .error f
  | .ok summary =>
    match Entries.field es "remarks" with
    | .null => .ok ⟨summary, none⟩
    | v => (nodesOf source v).map fun remarks => ⟨summary, some remarks⟩

def ofValue (source : Option Path) (v : Value) : Except Failure (Option Comment) :=
  match v.body with
  | .null => .ok none
  | .map es => (ofEntries source es).map some
  | _ => .error (.model (.commentNotMapping source))

end RefSite.Comment
