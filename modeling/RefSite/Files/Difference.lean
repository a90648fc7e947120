import RefSite.Files.Entry

namespace RefSite

/-- One step on the way from one tree to another. -/
inductive Step where
  | removeFile (place : List String)
  | removeFolder (place : List String)
  | makeFolder (place : List String)
  | writeFile (place : List String) (content : ByteArray)

namespace Entry

mutual

def removal (place : List String) : Entry → List Step
  | folder es => allRemovals place es ++ [.removeFolder place]
  | _ => [.removeFile place]

def allRemovals (place : List String) : List (String × Entry) → List Step
  | [] => []
  | (n, e) :: es => removal (place ++ [n]) e ++ allRemovals place es

end

mutual

/-- The steps that put an entry at a place where nothing is. Links are never made. -/
def creation (place : List String) : Entry → List Step
  | folder es => .makeFolder place :: allCreations place es
  | file content => [.writeFile place content]
  | link _ => []

def allCreations (place : List String) : List (String × Entry) → List Step
  | [] => []
  | (n, e) :: es => creation (place ++ [n]) e ++ allCreations place es

end

/-- The entries whose names are new. -/
def added (old new : List (String × Entry)) : List (String × Entry) :=
  new.filter fun x => (old.lookup x.1).isNone

mutual

def difference (place : List String) : Entry → Entry → List Step
  | folder old, folder new =>
    allDifferences place new old ++ allCreations place (added old new)
  | file a, file b => if a == b then [] else [.writeFile place b]
  | link _, link _ => []
  | old, new => removal place old ++ creation place new

def allDifferences (place : List String) (new : List (String × Entry)) :
    List (String × Entry) → List Step
  | [] => []
  | (n, e) :: es =>
    (match new.lookup n with
      | some e' => difference (place ++ [n]) e e'
      | none => removal (place ++ [n]) e) ++ allDifferences place new es

end

end Entry

end RefSite
