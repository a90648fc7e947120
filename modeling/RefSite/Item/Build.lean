import RefSite.Item.Load
import RefSite.Item.Store

namespace RefSite.Item

/-- Where the members of a new item go: to its unnamed entry point, which it takes in first, or to
the item itself. -/
def withContainer (d : Declaration) (es : Entries) (s : Store) (h : Handle) : Store × Handle :=
  if needsEntryPoint d es then
    let e := s.create unnamedEntryPoint []
    (e.1.addMember h e.2, e.2)
  else (s, h)

mutual

/-- The store with an item from untyped data, and the item's number. -/
def storeValue (source : Option Path) (v : Value) (s : Store) : Except Failure (Store × Handle) :=
  match _h₁ : v.entriesOr (.model (.itemNotMapping source v)) with
  | .error f => .error f
  | .ok es =>
    match declarationOf source es with
    | .error f => .error f
    | .ok d =>
      match _h₂ : (membersField es).givenElements with
      | .error f => .error f
      | .ok vs =>
        let i := s.create d []
        let c := withContainer d es i.1 i.2
        match storeMembers source c.2 vs c.1 with
        | .error f => .error f
        | .ok s => .ok (s, i.2)
termination_by (v.depth, 0)
decreasing_by
  have h₁ := Value.depthEntries_of_entriesOr _h₁
  have h₂ := Value.depthAll_of_givenElements _h₂
  have h₃ := depth_membersField_le es
  simp [Prod.lex_def]; omega

/-- The store with items from untyped data, each taken in as soon as it is read. -/
def storeMembers (source : Option Path) (container : Handle) (vs : List Value) (s : Store) :
    Except Failure Store :=
  match vs with
  | [] => .ok s
  | v :: vs =>
    match storeValue source v s with
    | .error f => .error f
    | .ok (s, m) => storeMembers source container vs (s.addMember container m)
termination_by (Value.depthAll vs, vs.length)
decreasing_by
  all_goals simp [Prod.lex_def, Value.depthAll]; omega

end

/-- The store with a package from a mapping in a file, which the model takes in. -/
def storePackage (p : Path) (model : Handle) (v : Value) (s : Store) : Logged Store := do
  let i ← Logged.ofResult (storeValue (some p) v s)
  let d := ((i.1.get? i.2).map Store.Cell.self).getD default
  match d.kind.kind? with
  | some .package =>
    Logged.report (loadedEntry p (mk d []))
    return i.1.addMember model i.2
  | some k => Logged.fail (.model (.notPackage p k))
  | none => Logged.fail (.unsupportedItem d.kind.text)

def storePackages (p : Path) (model : Handle) : List Value → Store → Logged Store
  | [], s => return s
  | v :: vs, s => do
    let s ← storePackage p model v s
    storePackages p model vs s

def storeFiles (d : Disk) (model : Handle) : List Path → Store → Logged Store
  | [], s => return s
  | p :: ps, s => do
    let es ← Logged.ofResult (readMapping d p)
    let vs ← Logged.ofResult (rawPackages p es)
    let s ← storePackages p model vs s
    storeFiles d model ps s

/-- The store with a model from files, and the model's number. -/
def storeModel (d : Disk) (ps : List Path) (name : String) : Logged (Store × Handle) := do
  let model := ({} : Store).create { kind := .known .model, name } []
  let s ← storeFiles d model.2 ps model.1
  return (s, model.2)

end RefSite.Item
