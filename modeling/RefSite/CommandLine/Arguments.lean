import RefSite.CommandLine.Word
import RefSite.Files.Path

namespace RefSite.CommandLine

structure Arguments where
  inputs : List Path := []
  /-- The folder for the pages; nothing if it was taken back. -/
  output : Option Path := some (Path.ofText "html")
  config : Option Path := none
  lineEnd : Option LineEnd := none
  verbose : Bool := false
  deriving DecidableEq, Repr, Inhabited

/-- Why nothing is to be done for a command line. -/
inductive Stop where
  | helpAsked
  | fault (f : Fault)
  deriving DecidableEq, Repr

namespace Arguments

def raise (a : Arguments) : Flag → Except Stop Arguments
  | .help => .error .helpAsked
  | .verbose => .ok { a with verbose := true }

def raiseAll (a : Arguments) (fs : List Flag) : Except Stop Arguments := fs.foldlM raise a

def withdraw (a : Arguments) : Setting → Arguments
  | .output => { a with output := none }
  | .config => { a with config := none }
  | .lineEnd => { a with lineEnd := none }

/-- The arguments with a setting made; a later one replaces it. Two hyphens, which can only stand
in the same word as the switch, are no value but take the setting back. -/
def assign (a : Arguments) (s : Setting) (value : String) : Except Stop Arguments :=
  if value = "--" then .ok (a.withdraw s)
  else match s with
  | .output => .ok { a with output := some (Path.ofText value) }
  | .config => .ok { a with config := some (Path.ofText value) }
  | .lineEnd =>
    match LineEnd.ofSetting? value with
    | some k => .ok { a with lineEnd := some k }
    | none => .error (.fault (.unknownLineEnd value))

end Arguments

/-- A command line read in part. -/
structure Reading where
  arguments : Arguments := {}
  /-- The inputs have been named, and no value can follow. -/
  closed : Bool := false
  /-- The words that have no place. -/
  extra : List String := []
  deriving Repr, Inhabited

namespace Reading

def value (r : Reading) (text : String) : Reading :=
  if r.closed then { r with extra := r.extra ++ [text] }
  else
    let a := r.arguments
    { r with arguments := { a with inputs := a.inputs ++ [Path.ofText text] } }

/-- The reading after two hyphens, which show only where no value has a place. -/
def separator (r : Reading) : Reading :=
  if r.closed then { r with extra := r.extra ++ ["--"] } else r

/-- The reading after switches that led to the given arguments. They end the inputs if there are
any. -/
def switched (r : Reading) (a : Arguments) : Reading :=
  { r with arguments := a, closed := r.closed || !a.inputs.isEmpty }

/-- The reading after a word that has no place; it ends the inputs as a switch does. -/
def unknown (r : Reading) (word : String) : Reading :=
  { r.switched r.arguments with extra := r.extra ++ [word] }

def words (r : Reading) : List Word → Except Stop Reading
  | [] => .ok r
  | .value text :: ws => words (r.value text) ws
  | .separator :: ws => words r.separator ws
  | .switches lead (.flag f) :: ws => do
    let a ← r.arguments.raiseAll (lead ++ [f])
    words (r.switched a) ws
  | .switches _ (.refused f value) :: _ => .error (.fault (.refusedValue f value))
  | .switches lead (.setting s (some value)) :: ws => do
    let a ← r.arguments.raiseAll lead
    let a ← a.assign s value
    words (r.switched a) ws
  | .switches lead (.setting s none) :: .value value :: ws => do
    let a ← r.arguments.raiseAll lead
    let a ← a.assign s value
    words (r.switched a) ws
  | .switches _ (.setting s none) :: _ => .error (.fault (.missingValue s))
  | .unknown text :: ws => words (r.unknown text) ws

/-- The arguments that have been read. There have to be inputs, and every word has to have its
place. -/
def finish (r : Reading) : Except Stop Arguments :=
  if r.arguments.inputs.isEmpty then .error (.fault .missingInputs)
  else if r.extra.isEmpty then .ok r.arguments
  else .error (.fault (.unrecognized r.extra))

end Reading

def Arguments.ofTexts (texts : List String) : Except Stop Arguments :=
  match Word.ofTexts texts with
  | .error f => .error (.fault f)
  | .ok ws => do (← Reading.words {} ws).finish

end RefSite.CommandLine
