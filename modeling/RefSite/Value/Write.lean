import RefSite.Failure

namespace RefSite.Value

def write (v : Value) : Except Failure String :=
  match v.written? with
  | some s => .ok s
  | none => .error .longNumber

/-- The form of a value that counts as given, and else another text. -/
def writeOr (v : Value) (other : String) : Except Failure String :=
  if v.truthy then v.write else .ok other

def writeOrEmpty (v : Value) : Except Failure String := v.writeOr ""

/-- A failure whose message shows a value; a value that cannot be shown is a failure itself. -/
def refusal (v : Value) (f : Failure) : Failure := if v.shown?.isSome then f else .longNumber

theorem write_text (s : String) : (text s).write = .ok s := rfl

theorem writeOrEmpty_text (s : String) : (text s).writeOrEmpty = .ok s := by
  by_cases h : s = "" <;> simp [writeOrEmpty, writeOr, truthy, write_text, h]

end RefSite.Value
