import RefSite.Config.Basic
import RefSite.Failure
import RefSite.Files.Disk
import RefSite.Item.Name

/-! Plugins: modules with features, and the hooks that a feature runs before and after the pages are
written. What a hook does is seen as the events it causes and the failure it may end with. -/
namespace RefSite

/-- What a feature is told when it is made. -/
structure Feature.Context where
  model : Placed
  output : Path

/-- What a hook did: its events, and what it failed with after them, if it did. -/
structure Feature.Effect (Event : Type) where
  events : List Event := []
  failure? : Option Failure := none

/-- What a hook means for the run that called it. -/
def Feature.Effect.result {Event : Type} (e : Feature.Effect Event) : Except Failure Unit :=
  match e.failure? with
  | none => .ok ()
  | some cause => .error (.pluginRaised cause)

/-- A feature by its class name, what it does when it is made, and its two hooks. -/
structure Feature (Event : Type) where
  name : String
  onCreated : Feature.Context → Feature.Effect Event := fun _ => {}
  onInitialized : Feature.Context → Feature.Effect Event
  onFinished : Feature.Context → List Path → Feature.Effect Event

/-- A feature that was made, with what it was told. Its number tells it from all that were made
before. -/
structure Feature.Active (Event : Type) where
  feature : Feature Event
  context : Feature.Context
  number : Nat

/-- The occasions on which a feature is called. -/
inductive Feature.Hook where
  | created (plugin : PluginName)
  | initialized
  /-- All pages are written, to the given files. -/
  | finished (written : List Path)

/-- A call of the feature with a number, and the files as it found them. -/
structure Feature.Call where
  number : Nat
  hook : Feature.Hook
  disk : Disk

/-- What a feature does when it is called. -/
def Feature.Active.react {Event : Type} (a : Feature.Active Event) :
    Feature.Hook → Feature.Effect Event
  | .created _ => a.feature.onCreated a.context
  | .initialized => a.feature.onInitialized a.context
  | .finished written => a.feature.onFinished a.context written

/-- How an import ends that does not succeed. -/
inductive PluginModule.Refusal where
  | fault (cause : ImportFault)
  /-- The module raises something else while it is imported. -/
  | raised (cause : Failure)

structure PluginModule (Event : Type) where
  name : String
  isPackage : Bool
  features : List (String × Feature Event)
  /-- What the module's own import ends with, if it does not succeed. -/
  refusal? : Option PluginModule.Refusal := none

abbrev Registry (Event : Type) := List (PluginModule Event)

namespace Registry

variable {Event : Type}

def find? (r : Registry Event) (name : String) : Option (PluginModule Event) :=
  List.find? (fun m => m.name == name) r

/-- The names on the way to a module: for `a.b.c` these are `a`, `a.b` and `a.b.c`. -/
def namesTo (name : String) : List String :=
  let parts := (splitAt '.' name.toList).map String.ofList
  (List.range parts.length).map fun i => ".".intercalate (parts.take (i + 1))

/-- Imports modules one after another, each below the one before it. -/
def importNames (r : Registry Event) (parent : Option (PluginModule Event)) :
    List String → Except PluginModule.Refusal (Option (PluginModule Event))
  | [] => .ok parent
  | n :: ns =>
    match r.find? n, parent with
    | some m, _ =>
      match m.refusal? with
      | some refusal => .error refusal
      | none => importNames r (some m) ns
    | none, some p =>
      .error (.fault (if p.isPackage then .missing n else .notPackage n p.name))
    | none, none => .error (.fault (.missing n))

/-- The module of a dotted name. Every name on the way to it is imported first. -/
def module (r : Registry Event) (name : String) : Except Failure (PluginModule Event) :=
  if name.toList.head? = some '.' then .error .relativeModule
  else
    match r.importNames none (namesTo name) with
    | .ok (some m) => .ok m
    | .ok none => .error (.plugin (.importFailed name (.missing name)))
    | .error (.fault cause) => .error (.plugin (.importFailed name cause))
    | .error (.raised cause) => .error (.pluginRaised cause)

def feature (r : Registry Event) (p : PluginName) : Except Failure (Feature Event) := do
  let m ← r.module p.module
  match m.features.lookup p.feature with
  | some f => return f
  | none => throw (.plugin (.notFeature p.module p.feature))

end Registry

end RefSite
