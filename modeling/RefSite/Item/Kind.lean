namespace RefSite

/-- The kinds of items that an interface description consists of. -/
inductive Kind where
  | model
  | package
  | entryPoint
  | namespaceDecl
  | classDecl
  | interface
  | enum
  | enumMember
  | constructor
  | constructSignature
  | method
  | methodSignature
  | function
  | property
  | propertySignature
  | typeAlias
  | variableDecl
  deriving DecidableEq, Repr, Inhabited

namespace Kind

def all : List Kind :=
  [model, package, entryPoint, namespaceDecl, classDecl, interface, enum, enumMember, constructor,
    constructSignature, method, methodSignature, function, property, propertySignature, typeAlias,
    variableDecl]

def name : Kind → String
  | model => "Model"
  | package => "Package"
  | entryPoint => "EntryPoint"
  | namespaceDecl => "Namespace"
  | classDecl => "Class"
  | interface => "Interface"
  | enum => "Enum"
  | enumMember => "EnumMember"
  | constructor => "Constructor"
  | constructSignature => "ConstructSignature"
  | method => "Method"
  | methodSignature => "MethodSignature"
  | function => "Function"
  | property => "Property"
  | propertySignature => "PropertySignature"
  | typeAlias => "TypeAlias"
  | variableDecl => "Variable"

def ofName? (s : String) : Option Kind := all.find? fun k => k.name == s

/-- Upper-case words joined by underscores, from words that each start with a capital. -/
def upperWords : List Char → List Char
  | [] => []
  | c :: cs => (if c.isUpper then ['_', c] else [c.toUpper]) ++ upperWords cs

/-- The kind as messages about misplaced items name it. -/
def constantName (k : Kind) : String :=
  "ApiItemKind." ++ String.ofList ((upperWords k.name.toList).drop 1)

/-- Kinds whose items have parameters and may be overloaded. -/
def isFunctionLike : Kind → Bool
  | constructor | constructSignature | method | methodSignature | function => true
  | _ => false

/-- Kinds that hold the declarations of a whole package and do not show in names. -/
def isContainer : Kind → Bool
  | model | package | entryPoint => true
  | _ => false

theorem ofName_name (k : Kind) : ofName? k.name = some k := by cases k <;> decide

theorem name_of_ofName {s : String} {k : Kind} (h : ofName? s = some k) : k.name = s := by
  simpa using List.find?_some h

end Kind

/-- The kind an item carries: one of the known kinds, or a bare text that need not name one. -/
inductive KindLabel where
  | known (k : Kind)
  | bare (s : String)
  deriving DecidableEq, Repr, Inhabited

namespace KindLabel

/-- The label for a name: the kind of that name, or else the bare text. -/
def ofName (s : String) : KindLabel :=
  match Kind.ofName? s with
  | some k => known k
  | none => bare s

def text : KindLabel → String
  | known k => k.name
  | bare s => s

/-- The kind that the label names. A bare text names a kind too when it is spelled like it. -/
def kind? : KindLabel → Option Kind
  | known k => some k
  | bare s => Kind.ofName? s

/-- The label is one of the known kinds, and not a text. -/
def isKnown : KindLabel → Bool
  | known _ => true
  | bare _ => false

def is (l : KindLabel) (k : Kind) : Bool := l.kind? == some k

theorem kind_known (k : Kind) : (known k).kind? = some k := rfl

end KindLabel

inductive Release where
  | unstated
  | internal
  | alpha
  | beta
  | stable
  deriving DecidableEq, Repr, Inhabited

namespace Release

def all : List Release := [unstated, internal, alpha, beta, stable]

def name : Release → String
  | unstated => "None"
  | internal => "Internal"
  | alpha => "Alpha"
  | beta => "Beta"
  | stable => "Public"

def ofName? (s : String) : Option Release := all.find? fun r => r.name == s

theorem ofName_name (r : Release) : ofName? r.name = some r := by cases r <;> decide

end Release

end RefSite
