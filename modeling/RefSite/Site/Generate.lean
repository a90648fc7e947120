import RefSite.Files.Disk
import RefSite.Site.Page
import RefSite.Site.Plugin

/-! The generation of a site: plugins are loaded, the output folder is emptied, the style sheet is
copied, and the pages are written depth first, a page before those of its children. The first failure
ends the run, and what was done before it stays. -/
namespace RefSite

structure Run (Event : Type) where
  disk : Disk
  /-- The feature that was loaded last, in this run or an earlier one. -/
  active : Option (Feature.Active Event)
  log : List Log.Entry := []
  events : List Event := []
  written : List Path := []
  /-- The items whose pages were begun, by their files. -/
  owners : List (String × Place) := []
  /-- How many features were made so far, in this run or an earlier one. -/
  made : Nat := (active.map fun a => a.number + 1).getD 0
  /-- The calls of all features. -/
  calls : List Feature.Call := []
  /-- The lists of written files of the runs before. -/
  earlier : List (List Path) := []

/-- The state in which another run begins, on files that may have changed since. It has a list of
written files of its own, and no page has been begun. -/
def Run.renew {Event : Type} (r : Run Event) (disk : Disk) : Run Event :=
  { r with disk, written := [], owners := [], earlier := r.earlier ++ [r.written] }

abbrev Run.Step (Event : Type) := ExceptT Failure (StateM (Run Event))

/-- What a site is made from. Plugins are loaded only if settings are given. -/
structure Site (Event : Type) where
  model : Placed
  config? : Option Config
  origin : Log.Origin
  registry : Registry Event
  stylesheet : Path

namespace Site

variable {Event : Type}

/-- The settings that hold. -/
def config (s : Site Event) : Config := s.config?.getD Config.default

def report (es : List Log.Entry) : Run.Step Event Unit :=
  modify fun r => { r with log := r.log ++ es }

/-- A report of the site's own. -/
def say (s : Site Event) (level : Log.Level) (message : String) : Run.Step Event Unit :=
  report [⟨s.origin, level, message⟩]

/-- Does what a logged computation found, with its reports. -/
def logged {α : Type} (m : Logged α) : Run.Step Event α := do
  report m.log
  match m.result with
  | .ok a => return a
  | .error f => throw f

def change (m : Disk.Change Unit) : Run.Step Event Unit := do
  let r ← get
  let (result, disk) := m.run r.disk
  set { r with disk }
  match result with
  | .ok _ => return ()
  | .error f => throw (.file f)

/-- Takes in what a hook did. -/
def effect (e : Feature.Effect Event) : Run.Step Event Unit := do
  modify fun r => { r with events := r.events ++ e.events }
  match e.result with
  | .ok _ => return ()
  | .error f => throw f

def invoke (a : Feature.Active Event) (h : Feature.Hook) : Run.Step Event Unit := do
  modify fun r => { r with calls := r.calls ++ [⟨a.number, h, r.disk⟩] }
  effect (a.react h)

/-- Makes a feature for a plugin, with a number of its own. -/
def make (context : Feature.Context) (p : PluginName) (f : Feature Event) :
    Run.Step Event (Feature.Active Event) := do
  let a : Feature.Active Event := ⟨f, context, (← get).made⟩
  modify fun r => { r with made := r.made + 1 }
  invoke a (.created p)
  return a

/-- Makes the feature of a plugin, runs its first hook and makes it the active one. -/
def activate (s : Site Event) (context : Feature.Context) (p : PluginName) (f : Feature Event) :
    Run.Step Event Unit := do
  if let some old := (← get).active then
    s.say .warning ("Replacing feature " ++ old.feature.name ++ " with " ++ p.module ++ "." ++
      p.feature)
  let a ← make context p f
  invoke a .initialized
  modify fun r => { r with active := some a }
  s.say .info ("Loaded plugin feature " ++ p.module ++ "." ++ p.feature)

def loadPlugin (s : Site Event) (context : Feature.Context) (p : PluginName) :
    Run.Step Event Unit :=
  match s.registry.feature p with
  | .ok f => s.activate context p f
  | .error e => throw e

def loadPlugins (s : Site Event) (context : Feature.Context) : List PluginName → Run.Step Event Unit
  | [] => return ()
  | p :: ps => do
    s.loadPlugin context p
    s.loadPlugins context ps

/-- Writes the page of an item. No other item may have the same file. -/
def writePage (s : Site Event) (output : Path) (p : Placed) : Run.Step Event Unit := do
  let text ← logged (Page.text s.origin s.config s.model.place p)
  let name := p.place.fileName
  if let some owner := (← get).owners.lookup name then
    throw (.sharedFile name owner.description p.place.description)
  modify fun r => { r with owners := (name, p.place) :: r.owners }
  let file := output.child name
  change (Disk.writeText s.config.lineEnd file text)
  modify fun r => { r with written := r.written ++ [file] }
  s.say .debug ("Wrote " ++ file.text)

def writePages (s : Site Event) (output : Path) : List Placed → Run.Step Event Unit
  | [] => return ()
  | p :: ps => do
    s.writePage output p
    s.writePages output ps

def finish : Run.Step Event Unit := do
  let r ← get
  match r.active with
  | none => return ()
  | some a => invoke a (.finished r.written)

/-- Loads the plugins, if settings are given. -/
def prepare (s : Site Event) (output : Path) : Run.Step Event Unit :=
  match s.config? with
  | none => return ()
  | some c => s.loadPlugins ⟨s.model, output⟩ c.plugins

/-- Empties the output folder and copies the style sheet into it. -/
def clear (s : Site Event) (output : Path) : Run.Step Event Unit := do
  s.say .info ("Deleting old output from " ++ output.text)
  change (Disk.emptyFolder output)
  let target := output.join (Path.ofText s.config.stylesheet)
  change (Disk.copy s.stylesheet target)
  s.say .debug ("Copied " ++ s.stylesheet.text ++ " -> " ++ target.text)

/-- A whole run. Its result is the list of the files written. -/
def run (s : Site Event) (output : Path) : Run.Step Event (List Path) := do
  s.prepare output
  s.clear output
  s.writePages output s.model.pages
  finish
  let written := (← get).written
  s.say .info ("Generated " ++ toString written.length ++ " HTML pages into: " ++ output.text)
  return written

/-- A run from a state of the file system, with the feature that earlier runs left active. -/
def generate (s : Site Event) (output : Path) (disk : Disk)
    (active : Option (Feature.Active Event)) : Except Failure (List Path) × Run Event :=
  (s.run output).run { disk, active }

/-- Another run of a generator, which is in the state that the given run left it in. -/
def rerun (s : Site Event) (output : Path) (disk : Disk) (last : Run Event) :
    Except Failure (List Path) × Run Event :=
  (s.run output).run (last.renew disk)

end Site

end RefSite
