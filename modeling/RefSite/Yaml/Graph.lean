import RefSite.Yaml.Schema

namespace RefSite.Yaml

inductive Content where
  | scalar (text : String)
  | sequence (items : List Nat)
  | mapping (entries : List (Nat × Nat))
  deriving DecidableEq, Repr, Inhabited

structure Node where
  tag : Tag
  content : Content
  deriving DecidableEq, Repr, Inhabited

structure Graph where
  nodes : Array Node := #[]
  deriving DecidableEq, Repr, Inhabited

namespace Graph

def size (g : Graph) : Nat := g.nodes.size

def node? (g : Graph) (n : Nat) : Option Node := g.nodes[n]?

/-- The graph with one node more, whose number is the former size. -/
def add (g : Graph) (x : Node) : Graph := ⟨g.nodes.push x⟩

def modify (g : Graph) (n : Nat) (f : Node → Node) : Graph := ⟨g.nodes.modify n f⟩

def setContent (g : Graph) (n : Nat) (c : Content) : Graph := g.modify n fun x => { x with content := c }

def setTag (g : Graph) (n : Nat) (t : Tag) : Graph := g.modify n fun x => { x with tag := t }

def hasTag (g : Graph) (n : Nat) (t : Tag) : Bool := (g.node? n).any fun x => x.tag == t

def entries? (g : Graph) (n : Nat) : Option (List (Nat × Nat)) :=
  match (g.node? n).map Node.content with
  | some (.mapping es) => some es
  | _ => none

def entryCount (g : Graph) : Nat :=
  g.nodes.foldl
    (fun k x => match x.content with
      | .mapping es => k + es.length
      | _ => k) 0

end Graph

end RefSite.Yaml
