import RefSite.Config.Decode
import RefSite.Config.Overlay
import RefSite.Files.Disk
import RefSite.Yaml.Load

namespace RefSite.Config

/-- The mapping in a settings file; an empty file counts as an empty mapping. -/
def readMapping (d : Disk) (p : Path) : Except Failure Entries :=
  match d.exists? p with
  | .error f => .error (.file f)
  | .ok false => .error (.config (.missingFile p))
  | .ok true => do
    let s ← d.readText p
    let v ← Yaml.load s
    if !v.truthy then return []
    match v.body with
    | .map es => return es
    | _ => throw (.config (.notMapping p))

/-- The settings in a file as untyped data, over the defaults; without a file the defaults alone. -/
def loadEntries (d : Disk) : Option Path → Except Failure Entries
  | none => .ok defaultEntries
  | some p => (readMapping d p).map fun es => Entries.overlay defaultEntries es

def load (d : Disk) (p : Option Path) : Except Failure Config := do
  ofEntries (← loadEntries d p)

end RefSite.Config
