import RefSite.Files.Disk

namespace RefSite.Disk

def modelEndings : List String := [".api.yml", ".api.yaml", ".api.json"]

def isModelName (name : String) : Bool :=
  modelEndings.any fun e => e.toList.isSuffixOf name.toList

/-- The paths below a folder whose last part is the name of a model file, whatever they lead to. -/
def modelPaths (folder : Path) (e : Entry) : List Path :=
  ((e.descendants []).filter fun x => isModelName (x.1.getLast?.getD "")).map fun x =>
    ⟨folder.start, folder.parts ++ x.1⟩

def sortPaths (ps : List Path) : List Path := ps.mergeSort fun p q => !q.before p

/-- The model files below a folder, in part-by-part order. What is no folder has none. -/
def modelFiles (d : Disk) (folder : Path) : Except FileFault (List Path) :=
  match d.entry? folder with
  | .error f => .error f
  | .ok (some e) => .ok (sortPaths (modelPaths folder e))
  | .ok none => .ok []

/-- The model files of all inputs: those below a folder, and any other path as it is. -/
def collect (d : Disk) : List Path → Except FileFault (List Path)
  | [] => .ok []
  | p :: ps => do
    let files ← if ← d.isFolder p then d.modelFiles p else pure [p]
    return files ++ (← d.collect ps)

end RefSite.Disk
