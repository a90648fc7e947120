import RefSite.CommandLine.Arguments
import RefSite.Config.Load
import RefSite.Files.Search
import RefSite.Item.Load
import RefSite.Site.Generate

/-! The program as a whole: from a command line and a file system to a new file system, the reports
on the way and the way the run ends. Nothing is written before the model, the settings and the
plugins are known to be sound. -/
namespace RefSite.CommandLine

/-- The name of the program in its messages. -/
def programName : String := "apidoc-html"

def Fault.line (f : Fault) : String := programName ++ ": error: " ++ f.message

inductive Ending where
  | done
  | helpAsked
  | refused (f : Fault)
  /-- There are no model files in the given folders. -/
  | nothingFound (inputs : List Path)
  | failed (f : Failure)
  deriving Repr

namespace Ending

/-- The exit status; a failure that is not reported to the user has none. -/
def status? : Ending → Option Nat
  | done => some 0
  | helpAsked => some 0
  | refused _ => some 2
  | nothingFound _ => some 1
  | failed f => if f.isReported then some 1 else none

def nothingFoundMessage (inputs : List Path) : String :=
  "No model files found under: " ++ ", ".intercalate (inputs.map Path.text)

end Ending

/-- What the program works with besides its command line and the file system. -/
structure Environment (Event : Type) where
  registry : Registry Event
  /-- The style sheet that comes with the program. -/
  stylesheet : Path

structure Outcome (Event : Type) where
  ending : Ending
  disk : Disk
  /-- The reports that are shown. -/
  log : List Log.Entry := []
  events : List Event := []

variable {Event : Type}

/-- The reports that are shown: those about single steps only on request. -/
def shown (verbose : Bool) (es : List Log.Entry) : List Log.Entry :=
  es.filter fun e => verbose || e.level != .debug

/-- The settings that a command line selects; none if it has no word about them. -/
def settings (d : Disk) (a : Arguments) : Except Failure (Option Config) :=
  if a.config.isNone && a.lineEnd.isNone then .ok none
  else do
    let c ← Config.load d a.config
    return some (match a.lineEnd with
      | some k => c.withLineEnd k
      | none => c)

/-- The site that the arguments ask for, and the folder it goes to. -/
def prepare (e : Environment Event) (d : Disk) (a : Arguments) (files : List Path) :
    Logged (Site Event × Path) := do
  let model ← Item.loadModel d files ""
  let config? ← Logged.ofResult (settings d a)
  let output ← match a.output with
    | some p => Logged.ofResult ((d.resolve p).mapError .file)
    | none => Logged.fail .noFolder
  return (⟨model.placed, config?, .site, e.registry, e.stylesheet⟩, output)

/-- The outcome of a run that failed. A failure that the user is told of is the last report. -/
def failure (verbose : Bool) (d : Disk) (log : List Log.Entry) (events : List Event) (f : Failure) :
    Outcome Event :=
  let report := f.message?.toList.map fun m => ⟨.commandLine, .error, m⟩
  ⟨.failed f, d, shown verbose (log ++ report), events⟩

def generate (e : Environment Event) (d : Disk) (a : Arguments) (files : List Path) :
    Outcome Event :=
  let m := prepare e d a files
  match m.result with
  | .error f => failure a.verbose d m.log [] f
  | .ok (site, output) =>
    let (result, run) := site.generate output d none
    let log := m.log ++ run.log
    match result with
    | .error f => failure a.verbose run.disk log run.events f
    | .ok _ => ⟨.done, run.disk, shown a.verbose log, run.events⟩

def perform (e : Environment Event) (d : Disk) (a : Arguments) : Outcome Event :=
  match d.collect a.inputs with
  | .error f => failure a.verbose d [] [] (.file f)
  | .ok [] => ⟨.nothingFound a.inputs, d, [], []⟩
  | .ok files => generate e d a files

def run (e : Environment Event) (d : Disk) (texts : List String) : Outcome Event :=
  match Arguments.ofTexts texts with
  | .error .helpAsked => ⟨.helpAsked, d, [], []⟩
  | .error (.fault f) => ⟨.refused f, d, [], []⟩
  | .ok a => perform e d a

end RefSite.CommandLine
