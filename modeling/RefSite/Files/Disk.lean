import RefSite.Failure
import RefSite.Files.Entry
import RefSite.Text.LineEnd

/-! A file system: where paths lead, and the operations that a site is written with. What an
operation did before it failed stays done. -/
namespace RefSite

/-- A tree of entries and the folder that relative paths start from. -/
structure Disk where
  root : Entry
  here : List String
  deriving Inhabited

inductive Target where
  | found (place : List String) (e : Entry)
  /-- Nothing is there, but the folder is that it would be in. -/
  | vacant (folder : List String) (name : String)

/-- Changes of a file system that may fail. -/
abbrev Disk.Change := ExceptT FileFault (StateM Disk)

namespace Disk

/-- The most links that are followed on the way to one place. -/
def linkLimit : Nat := 40

def nameLimit : Nat := 255

def pathLimit : Nat := 4095

/-- The folder that a link's target is seen from, when the link is in the folder `place`. -/
def linkBase (place : List String) (target : String) : List String :=
  if (Path.ofText target).isAbsolute then [] else place

/-- The parts of a link's target. Unlike those of a path they keep single dots, and a slash at the
end is kept as an empty part: both can only follow a folder. -/
def linkParts (target : String) : List String :=
  let pieces := (splitAt '/' target.toList).map String.ofList
  pieces.filter (· != "") ++ if 1 < pieces.length && pieces.getLast? == some "" then [""] else []

/-- What is sought at the end of a way. -/
inductive Aim where
  /-- What the way leads to. -/
  | entry
  /-- What stands there, even if it is a link. -/
  | name
  /-- A file to be written, which need not be there yet. -/
  | file
  deriving DecidableEq, Repr

/-- Where parts lead from a place. A link that is met on the way is followed to the place it is seen
from and the parts that are left then. -/
def walkParts (root : Entry) (aim : Aim)
    (follow : List String → List String → Except FileFault Target) (place : List String) :
    List String → Except FileFault Target
  | [] =>
    match root.at? place with
    | some e => .ok (.found place e)
    | none => .error .notFound
  | n :: rest =>
    match root.at? place with
    | some (.folder es) =>
      if n = ".." then walkParts root aim follow place.dropLast rest
      else if n = "." ∨ n = "" then walkParts root aim follow place rest
      else if aim = .file ∧ rest = [""] then .error .isFolder
      else if nameLimit < n.utf8ByteSize then .error .tooLong
      else
        match es.lookup n with
        | none => if rest.isEmpty then .ok (.vacant place n) else .error .notFound
        | some (.link t) =>
          if rest.isEmpty && aim = .name then .ok (.found (place ++ [n]) (.link t))
          else follow (linkBase place t) (linkParts t ++ rest)
        | some _ => walkParts root aim follow (place ++ [n]) rest
    | some _ => .error .notFolder
    | none => .error .notFound

/-- Where parts lead from a place while no more than some links are followed. -/
def walk (root : Entry) (aim : Aim) : Nat → List String → List String → Except FileFault Target
  | 0 => walkParts root aim fun _ _ => .error .tooManyLinks
  | links + 1 => walkParts root aim (walk root aim links)

/-- The place that a path starts from. -/
def base (d : Disk) (p : Path) : List String := if p.isAbsolute then [] else d.here

def locate (d : Disk) (aim : Aim) (p : Path) : Except FileFault Target :=
  if !p.isProper then .error .nullInPath
  else if pathLimit < p.text.utf8ByteSize then .error .tooLong
  else walk d.root aim linkLimit (d.base p) p.parts

/-- What a path leads to, links followed. A path that leads nowhere is no fault, unless it is too
long. -/
def entry? (d : Disk) (p : Path) : Except FileFault (Option Entry) :=
  match d.locate .entry p with
  | .ok (.found _ e) => .ok (some e)
  | .ok (.vacant _ _) => .ok none
  | .error .tooLong => .error .tooLong
  | .error _ => .ok none

def exists? (d : Disk) (p : Path) : Except FileFault Bool := (d.entry? p).map Option.isSome

def isFolder (d : Disk) (p : Path) : Except FileFault Bool :=
  (d.entry? p).map fun e => e.any Entry.isFolder

def read (d : Disk) (p : Path) : Except FileFault ByteArray :=
  match d.locate .entry p with
  | .ok (.found _ (.file content)) => .ok content
  | .ok (.found _ (.folder _)) => .error .isFolder
  | .ok (.found _ (.link _)) => .error .notFound
  | .ok (.vacant _ _) => .error .notFound
  | .error f => .error f

/-- The text of a file, with every line end as a line feed. -/
def readText (d : Disk) (p : Path) : Except Failure String :=
  match d.read p with
  | .error f => .error (.file f)
  | .ok content =>
    match String.fromUTF8? content with
    | some s => .ok (String.ofList (LineEnd.unify s.toList))
    | none => .error .undecodable

def put (d : Disk) (place : List String) (e : Entry) : Disk := { d with root := Entry.put e place d.root }

/-- Makes one folder, whose parent has to be there. -/
def makeFolder (p : Path) : Change Unit := do
  let d ← get
  match d.locate .name p with
  | .ok (.found _ _) => throw .alreadyThere
  | .ok (.vacant folder name) => set (d.put (folder ++ [name]) (.folder []))
  | .error f => throw f

/-- Accepts a fault of making a folder if the path leads to a folder already. -/
def unlessFolder (p : Path) (f : FileFault) : Change Unit := do
  if f = .nullInPath then throw f
  match (← get).isFolder p with
  | .ok true => return ()
  | .ok false => throw f
  | .error g => throw g

/-- Makes a folder whose parent has been made, unless it is there. -/
def makeLastFolder (p : Path) : Change Unit := do
  try makeFolder p
  catch f => if f = .notFound then throw f else unlessFolder p f

/-- Makes a folder and all missing ones above it; it may be there already. -/
def makeFolders (p : Path) : Change Unit := do
  try makeFolder p
  catch f =>
    if f = .notFound then
      if _h : p.parts = [] then throw f
      else
        makeFolders p.parent
        makeLastFolder p
    else unlessFolder p f
termination_by p.parts.length
decreasing_by
  have := List.length_pos_iff.2 _h
  simp only [Path.parent, List.length_dropLast]
  omega

/-- Writes a file in a folder that has to be there; an old file is replaced. -/
def write (p : Path) (content : ByteArray) : Change Unit := do
  let d ← get
  match d.locate .file p with
  | .ok (.found _ (.folder _)) => throw .isFolder
  | .ok (.found place _) => set (d.put place (.file content))
  | .ok (.vacant folder name) => set (d.put (folder ++ [name]) (.file content))
  | .error f => throw f

def isSame (d : Disk) (p q : Path) : Except FileFault Bool :=
  match d.locate .entry p, d.locate .entry q with
  | .error .nullInPath, _ => .error .nullInPath
  | _, .error .nullInPath => .error .nullInPath
  | .ok (.found a _), .ok (.found b _) => .ok (a == b)
  | _, _ => .ok false

/-- Writes the copy of a file. Where a folder is in the way that is not there itself, it counts as
missing. -/
def writeCopy (target : Path) (content : ByteArray) : Change Unit := do
  try write target content
  catch f =>
    if f ≠ .isFolder then throw f
    match (← get).exists? target with
    | .ok false => throw .notFound
    | _ => throw f

/-- Copies a file, making the folders that its copy is in. -/
def copy (source target : Path) : Change Unit := do
  makeFolders target.parent
  let d ← get
  match d.isSame source target with
  | .error f => throw f
  | .ok true => throw .sameFile
  | .ok false =>
    match d.read source with
    | .ok content => writeCopy target content
    | .error f => throw f

/-- Writes a text as a file, making the folders that it is in. -/
def writeText (k : LineEnd) (p : Path) (s : String) : Change Unit := do
  makeFolders p.parent
  write p (k.apply s).toUTF8

/-- Makes a folder, or removes everything in it. Links are removed and what they lead to stays. -/
def emptyFolder (p : Path) : Change Unit := do
  makeFolders p
  let d ← get
  match d.locate .entry p with
  | .ok (.found place _) => set (d.put place (.folder []))
  | .ok (.vacant _ _) => throw .notFound
  | .error f => throw f

/-- How deeply links may lead on to each other where a path is made absolute. -/
def resolveLimit : Nat := 4096

/-- The place that parts lead to from another one by their spelling alone. -/
def spelled (place : List String) (parts : List String) : List String :=
  parts.foldl (fun here n =>
    if n = ".." then here.dropLast else if n = "." ∨ n = "" then here else here ++ [n]) place

/-- The place that parts lead to, without links, and whether every link on the way has led
somewhere. What is not there is taken as it is written. The `active` links are being followed; where
one of them comes up again, the rest is taken as it is written too. -/
def resolveFrom (root : Entry) (active : List (List String)) (links : Nat) (place : List String) :
    List String → List String × Bool
  | [] => (place, true)
  | n :: rest =>
    if n = ".." then resolveFrom root active links place.dropLast rest
    else if n = "." ∨ n = "" then resolveFrom root active links place rest
    else
      let next := place ++ [n]
      match root.at? next with
      | some (.link t) =>
        if active.contains next then (spelled next rest, false)
        else
          match links with
          | 0 => (spelled next rest, false)
          | fewer + 1 =>
            let r := resolveFrom root (next :: active) fewer (linkBase place t) (linkParts t)
            if r.2 then resolveFrom root active (fewer + 1) r.1 rest else (spelled r.1 rest, false)
      | _ => resolveFrom root active links next rest
termination_by parts => (links, parts.length)

/-- The absolute path without links and double dots. Links may not lead back to themselves, unless
double dots lead out of them again. -/
def resolve (d : Disk) (p : Path) : Except FileFault Path :=
  if !p.isProper then .error .nullInPath
  else
    let place := (resolveFrom d.root [] resolveLimit (d.base p) p.parts).1
    match d.locate .entry ⟨.root, place⟩ with
    | .error .tooManyLinks => .error .linkCycle
    | _ => .ok ⟨.root, place⟩

end Disk

end RefSite
