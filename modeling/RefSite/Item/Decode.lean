import RefSite.Comment.Decode
import RefSite.Item.Basic
import RefSite.Value.Elements

/-! Items from untyped data. Every field may be left out; a package without a field for its entry
points gets one unnamed entry point that holds its members. -/
namespace RefSite.Item

def kindOfValue (source : Option Path) (v : Value) : Except Failure Kind :=
  match v.written?.bind Kind.ofName? with
  | some k => .ok k
  | none => .error (v.refusal (.model (.unknownKind source v)))

/-- The number of an overload; it is 1 if left out. -/
def overloadOfValue (source : Option Path) (v : Value) : Except Failure Int :=
  match v with
  | .null => .ok 1
  | v =>
    match v.toInt with
    | .ok n => .ok n
    | .error .notNumeric => .error (v.refusal (.model (.badOverload source v)))
    | .error .infinite => .error .infiniteNumber

def releaseOfValue (source : Option Path) (v : Value) : Except Failure (Option Release) :=
  match v with
  | .null => .ok none
  | v =>
    match v.written?.bind Release.ofName? with
    | some r => .ok (some r)
    | none => .error (v.refusal (.model (.unknownRelease source v)))

def parameterOfValue (source : Option Path) (v : Value) : Except Failure Parameter := do
  let es ← v.entriesOr (.model (.parameterNotMapping source v))
  let name ← (Entries.field es "name").writeOrEmpty
  let type ← (Entries.field es "type").writeOrEmpty
  return ⟨name, type⟩

def parametersOfValue (source : Option Path) (v : Value) : Except Failure (List Parameter) := do
  let vs ← v.givenElements
  vs.mapM (parameterOfValue source)

def modifiersOfValue (v : Value) : Except Failure (List String) := do
  let vs ← v.givenElements
  vs.mapM Value.write

/-- Everything an item says about itself. The first fault in the order of the fields counts. -/
def declarationOf (source : Option Path) (es : Entries) : Except Failure Declaration := do
  let field (key : String) : Value := Entries.field es key
  let kind ← kindOfValue source (field "kind")
  let name ← (field "name").writeOrEmpty
  let comment ← Comment.ofValue source (field "docComment")
  let excerpt ← (field "excerpt").writeOrEmpty
  let modifiers ← modifiersOfValue (field "modifiers")
  let release ← releaseOfValue source (field "releaseTag")
  let parameters ← parametersOfValue source (field "parameters")
  let overload ← overloadOfValue source (field "overloadIndex")
  let propertyType ← (field "propertyType").writeOrEmpty
  let initializer ← (field "initializer").writeOrEmpty
  return {
    kind := .known kind
    name
    comment
    excerpt
    modifiers
    release
    parameters
    overload
    isStatic := (field "isStatic").truthy
    isEvent := (field "isEventProperty").truthy
    propertyType
    initializer }

/-- The item is a package, and the mapping has no field for its entry points. -/
def needsEntryPoint (d : Declaration) (es : Entries) : Bool :=
  d.is .package && (Entries.get? es "entryPoints").isNone

/-- The field that holds the members: the entry points, if they count as given. -/
def membersField (es : Entries) : Value :=
  if (Entries.field es "entryPoints").truthy then Entries.field es "entryPoints"
  else Entries.field es "members"

/-- The unnamed entry point of a package. -/
def unnamedEntryPoint : Declaration := { kind := .known .entryPoint, name := "" }

/-- An item with its members, which for some packages stand below an unnamed entry point. -/
def assemble (d : Declaration) (es : Entries) (members : List Item) : Item :=
  if needsEntryPoint d es then mk d [mk unnamedEntryPoint members] else mk d members

theorem depth_membersField_le (es : Entries) :
    (membersField es).depth ≤ Value.depthEntries es := by
  unfold membersField
  split <;> exact Value.depth_field_le es _

mutual

def ofValue (source : Option Path) (v : Value) : Except Failure Item :=
  match _h₁ : v.entriesOr (.model (.itemNotMapping source v)) with
  | .error f => .error f
  | .ok es =>
    match declarationOf source es with
    | .error f => .error f
    | .ok d =>
      match _h₂ : (membersField es).givenElements with
      | .error f => .error f
      | .ok vs =>
        match ofValues source vs with
        | .error f => .error f
        | .ok ms => .ok (assemble d es ms)
termination_by (v.depth, 0)
decreasing_by
  have h₁ := Value.depthEntries_of_entriesOr _h₁
  have h₂ := Value.depthAll_of_givenElements _h₂
  have h₃ := depth_membersField_le es
  simp [Prod.lex_def]; omega

def ofValues (source : Option Path) (vs : List Value) : Except Failure (List Item) :=
  match vs with
  | [] => .ok []
  | v :: vs =>
    match ofValue source v with
    | .error f => .error f
    | .ok i =>
      match ofValues source vs with
      | .error f => .error f
      | .ok is => .ok (i :: is)
termination_by (Value.depthAll vs, vs.length)
decreasing_by
  all_goals simp [Prod.lex_def, Value.depthAll]; omega

end

end RefSite.Item
