import RefSite.Config.Overlay

namespace RefSite.Entries

/-- What stands at the end of a path of keys; every key but the last has to lead to a mapping. -/
def at? (es : Entries) : List Value → Option Value
  | [] => some (.map es)
  | [k] => find? es k
  | k :: ks =>
    match (find? es k).map Value.body with
    | some (.map inner) => at? inner ks
    | _ => none

def mappingAt? (es : Entries) (path : List Value) : Option Entries :=
  match (at? es path).map Value.body with
  | some (.map inner) => some inner
  | _ => none

theorem at_nil (es : Entries) : at? es [] = some (.map es) := by rw [at?]

theorem at_singleton (es : Entries) (k : Value) : at? es [k] = find? es k := by rw [at?]

theorem mappingAt_nil (es : Entries) : mappingAt? es [] = some es := by
  rw [mappingAt?, at_nil]
  rfl

end RefSite.Entries
