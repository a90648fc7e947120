import RefSite.Files.Disk
import RefSite.Item.Decode
import RefSite.Logged
import RefSite.Yaml.Load

namespace RefSite.Item

/-- The mapping in a model file. Text that is not well-formed is reported with its path. -/
def readMapping (d : Disk) (p : Path) : Except Failure Entries := do
  let s ← d.readText p
  match Yaml.load s with
  | .error .malformed => .error (.model (.unparsable p))
  | .error f => .error f
  | .ok v =>
    match v.body with
    | .map es => .ok es
    | _ => .error (.model (.notMapping p))

/-- The packages that a mapping lists, or the one that it is. -/
def rawPackages (p : Path) (es : Entries) : Except Failure (List Value) :=
  match (Entries.get? es "packages").map Value.body with
  | none => .ok [.map es]
  | some (.list vs) => .ok vs
  | some _ => .error (.model (.packagesNotList p))

/-- The report of a package. -/
def loadedEntry (p : Path) (i : Item) : Log.Entry :=
  ⟨.model, .debug, some ("Loaded package " ++ i.self.name ++ " from " ++ p.text)⟩

/-- A package from a mapping in a file. -/
def packageOfValue (p : Path) (v : Value) : Logged Item := do
  let i ← Logged.ofResult (ofValue (some p) v)
  match i.self.kind.kind? with
  | some .package =>
    Logged.report (loadedEntry p i)
    return i
  | some k => Logged.fail (.model (.notPackage p k))
  | none => Logged.fail (.unsupportedItem i.self.kind.text)

def packagesOfValues (p : Path) : List Value → Logged (List Item)
  | [] => return []
  | v :: vs => do
    let i ← packageOfValue p v
    return i :: (← packagesOfValues p vs)

def loadPackages (d : Disk) : List Path → Logged (List Item)
  | [] => return []
  | p :: ps => do
    let es ← Logged.ofResult (readMapping d p)
    let vs ← Logged.ofResult (rawPackages p es)
    let is ← packagesOfValues p vs
    return is ++ (← loadPackages d ps)

def loadModel (d : Disk) (ps : List Path) (name : String) : Logged Item := do
  let is ← loadPackages d ps
  return mk { kind := .known .model, name } is

end RefSite.Item
