namespace RefSite.CommandLine

/-- Switches that stand alone. -/
inductive Flag where
  | help
  | verbose
  deriving DecidableEq, Repr, Inhabited

/-- Switches with a value. -/
inductive Setting where
  | output
  | config
  | lineEnd
  deriving DecidableEq, Repr, Inhabited

inductive Switch where
  | flag (f : Flag)
  | setting (s : Setting)
  deriving DecidableEq, Repr, Inhabited

namespace Switch

/-- Every switch, in the order in which messages list them. -/
def all : List Switch :=
  [flag .help, setting .output, setting .config, setting .lineEnd, flag .verbose]

/-- The spellings of a switch, the short one first. -/
def spellings : Switch → List String
  | flag .help => ["-h", "--help"]
  | setting .output => ["-o", "--output-folder"]
  | setting .config => ["--config"]
  | setting .lineEnd => ["--newline"]
  | flag .verbose => ["-v", "--verbose"]

/-- The switch as messages name it. -/
def shown (s : Switch) : String := "/".intercalate s.spellings

def table : List (String × Switch) := all.flatMap fun s => s.spellings.map fun w => (w, s)

def ofSpelling? (w : String) : Option Switch := table.lookup w

theorem ofSpelling_of_mem {s : Switch} {w : String} (h : w ∈ s.spellings) :
    ofSpelling? w = some s := by
  rcases s with f | s
  · cases f <;> revert w <;> decide
  · cases s <;> revert w <;> decide

end Switch

end RefSite.CommandLine
