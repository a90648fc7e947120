import RefSite.CommandLine.Usage
import RefSite.Files.Difference
import RefSite.Site.Stylesheet

/-! The program on a real machine. The files that a command line speaks of are read into a tree, the
run is computed on the tree, and the real files are then changed as the tree was. -/
namespace RefSite.Machine

/-- The folder that stands for the program itself; no real one is called so. -/
def ownFolder : String := "<" ++ CommandLine.programName ++ ">"

/-- The place of the program's style sheet. -/
def stylesheetPath : Path := ⟨.root, [ownFolder, Config.defaultStylesheet]⟩

/-- The tree that holds only the program's own folder and the way to another one. -/
def bareRoot (here : List String) : Entry :=
  let own := Entry.folder [(stylesheetPath.name, .file Stylesheet.text.toUTF8)]
  let way := here.foldr (fun n e => Entry.folder [(n, e)]) (.folder [])
  .folder ((ownFolder, own) :: way.entries)

/-- The real file that stands at a place. -/
def real (place : List String) : IO.FS.DirEntry := ⟨"/", "/".intercalate place⟩

/-- What stands at a real place, with everything in it. What cannot be read is left out. -/
partial def entry? (place : List String) : IO (Option Entry) := do
  let path := (real place).path
  try
    match (← path.symlinkMetadata).type with
    | .dir =>
      let mut entries := []
      for e in ← path.readDir do
        if let some x ← entry? (place ++ [e.fileName]) then
          entries := entries ++ [(e.fileName, x)]
      return some (.folder entries)
    | .symlink => return some (.link (toString (← IO.FS.realPath path)))
    | _ => return some (.file (← IO.FS.readBinFile path))
  catch _ => return none

/-- The real files, free of links themselves, that links in a tree lead to. -/
def linkedFiles (e : Entry) : IO (List (List String)) := do
  let targets := (e.descendants []).filterMap fun x =>
    match x.2 with
    | .link t => some (Path.ofText t).parts
    | _ => none
  targets.filterM fun place => do
    try return (← (real place).path.metadata).type == .file
    catch _ => return false

/-- The tree with the way to a path and with everything that the path leads to. -/
partial def reveal (d : Disk) (place : List String) : List String → IO Disk
  | [] => do
    match ← entry? place with
    | some e => (← linkedFiles e).foldlM (fun d p => reveal d [] p) (d.put place e)
    | none => return d
  | ".." :: rest => reveal d place.dropLast rest
  | n :: rest => do
    let next := place ++ [n]
    if (d.root.at? next).any Entry.isFolder then return ← reveal d next rest
    let path := (real next).path
    let type ← try pure (some (← path.symlinkMetadata).type) catch _ => pure none
    match type with
    | none => return d
    | some .dir => reveal (d.put next (.folder [])) next rest
    | some .symlink =>
      let target := toString (← IO.FS.realPath path)
      reveal (d.put next (.link target)) [] ((Path.ofText target).parts ++ rest)
    | some _ => reveal d next []

/-- Takes one step on the real files. -/
def take : Step → IO Unit
  | .removeFile place => IO.FS.removeFile (real place).path
  | .removeFolder place => IO.FS.removeDir (real place).path
  | .makeFolder place => IO.FS.createDir (real place).path
  | .writeFile place content => IO.FS.writeBinFile (real place).path content

/-- The paths that a command line speaks of. -/
def paths (texts : List String) : List Path :=
  match CommandLine.Arguments.ofTexts texts with
  | .ok a => a.inputs ++ a.config.toList ++ a.output.toList
  | .error _ => []

/-- The file system as far as a command line needs it. -/
def disk (texts : List String) : IO Disk := do
  let here := (Path.ofText (toString (← IO.currentDir))).parts
  (paths texts).foldlM (fun d p => reveal d (d.base p) p.parts) ⟨bareRoot here, here⟩

end RefSite.Machine

open RefSite in
def main (texts : List String) : IO UInt32 := do
  let d ← Machine.disk texts
  let environment : CommandLine.Environment Unit := ⟨[], Machine.stylesheetPath⟩
  let o := CommandLine.run environment d texts
  for step in Entry.difference [] d.root o.disk.root do Machine.take step
  for e in o.log do
    if let some line := e.line? then IO.eprintln line
  match o.ending with
  | .helpAsked => for line in CommandLine.usage do IO.println line
  | .refused f => IO.eprintln f.line
  | .nothingFound inputs => IO.eprintln (CommandLine.Ending.nothingFoundMessage inputs)
  | .failed f => if !f.isReported then IO.eprintln f.description
  | .done => return 0
  return (o.ending.status?.getD 1).toUInt32
