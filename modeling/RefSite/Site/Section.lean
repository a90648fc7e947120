import RefSite.Item.Name

namespace RefSite

/-- What a table cell says about a member. -/
inductive Cell where
  /-- The concise signature as a link to the member's page. -/
  | reference
  /-- The concise signature alone. -/
  | signature
  | modifiers
  | propertyType
  | initializer
  | description
  deriving DecidableEq, Repr

structure Column where
  heading : String
  cell : Cell
  deriving DecidableEq, Repr

/-- A table with its title. -/
structure Section where
  title : String
  columns : List Column
  deriving DecidableEq, Repr

namespace Section

/-- A table of links with descriptions. -/
def ofLinks (title heading : String) : Section :=
  ⟨title, [⟨heading, .reference⟩, ⟨"Description", .description⟩]⟩

def packages : Section := ofLinks "Packages" "Package"

def classes : Section := ofLinks "Classes" "Class"

def enumerations : Section := ofLinks "Enumerations" "Enumeration"

def functions : Section := ofLinks "Functions" "Function"

def interfaces : Section := ofLinks "Interfaces" "Interface"

def namespaces : Section := ofLinks "Namespaces" "Namespace"

def variableDecls : Section := ofLinks "Variables" "Variable"

def types : Section := ofLinks "Types" "Type Alias"

def ofClassMembers (title heading : String) : Section :=
  ⟨title, [⟨heading, .reference⟩, ⟨"Modifiers", .modifiers⟩, ⟨"Description", .description⟩]⟩

def ofClassProperties (title : String) : Section :=
  ⟨title, [⟨"Property", .reference⟩, ⟨"Modifiers", .modifiers⟩, ⟨"Type", .propertyType⟩,
    ⟨"Description", .description⟩]⟩

def classEvents : Section := ofClassProperties "Events"

def classConstructors : Section := ofClassMembers "Constructors" "Constructor"

def classProperties : Section := ofClassProperties "Properties"

def classMethods : Section := ofClassMembers "Methods" "Method"

def ofInterfaceProperties (title : String) : Section :=
  ⟨title, [⟨"Property", .reference⟩, ⟨"Type", .propertyType⟩, ⟨"Description", .description⟩]⟩

def interfaceEvents : Section := ofInterfaceProperties "Events"

def interfaceProperties : Section := ofInterfaceProperties "Properties"

def interfaceMethods : Section := ofLinks "Methods" "Method"

def enumMembers : Section :=
  ⟨"Enumeration Members", [⟨"Member", .signature⟩, ⟨"Value", .initializer⟩,
    ⟨"Description", .description⟩]⟩

def headings (s : Section) : List String := s.columns.map Column.heading

/-- The tables of a page of the given kind, in order. -/
def allOn : Kind → List Section
  | .model => [packages]
  | .package | .namespaceDecl =>
    [classes, enumerations, functions, interfaces, namespaces, variableDecls, types]
  | .classDecl => [classEvents, classConstructors, classProperties, classMethods]
  | .interface => [interfaceEvents, interfaceProperties, interfaceMethods]
  | .enum => [enumMembers]
  | _ => []

/-- The table of a package or namespace that lists declarations of the given kind. -/
def ofDeclaration? : Kind → Option Section
  | .classDecl => some classes
  | .enum => some enumerations
  | .function => some functions
  | .interface => some interfaces
  | .namespaceDecl => some namespaces
  | .variableDecl => some variableDecls
  | .typeAlias => some types
  | _ => none

/-- The table on a page of the given kind that a member is put in, if it is listed there. -/
def forMember? (page : Kind) (d : Declaration) : Option Section :=
  match page, d.kind.kind? with
  | .model, some .package => some packages
  | .package, some k => ofDeclaration? k
  | .namespaceDecl, some k => ofDeclaration? k
  | .classDecl, some .constructor => some classConstructors
  | .classDecl, some .method => some classMethods
  | .classDecl, some .property => some (if d.isEvent then classEvents else classProperties)
  | .interface, some .constructSignature => some interfaceMethods
  | .interface, some .methodSignature => some interfaceMethods
  | .interface, some .propertySignature =>
    some (if d.isEvent then interfaceEvents else interfaceProperties)
  | .enum, _ => some enumMembers
  | _, _ => none

theorem mem_allOn_of_ofDeclaration {k : Kind} {s : Section} (h : ofDeclaration? k = some s) :
    s ∈ allOn .package := by
  cases k <;> simp [ofDeclaration?] at h <;> subst h <;> decide

end Section

end RefSite
