import RefSite.Value.Basic

namespace RefSite.Entries

/-- Lists under this key accumulate. -/
def additiveKey : String := "plugins"

def isAdditive : Value → Bool
  | .text s => s == additiveKey
  | _ => false

/-- What a key held before and what is laid over it are joined, and not replaced. -/
def joins (key : Value) : Option Value → Value → Bool
  | some (.map _), .map _ => true
  | some (.list _), .list _ => isAdditive key
  | _, _ => false

mutual

/-- What a key holds when `v` is laid over what it held before. -/
def combined (key : Value) (current : Option Value) (v : Value) : Value :=
  match v with
  | .map es =>
    match current with
    | some (.map base) => .map (overlay base es)
    | _ => .map es
  | .list ys =>
    match current with
    | some (.list xs) => if isAdditive key then .list (xs ++ ys) else .list ys
    | _ => .list ys
  | .knot n v => if joins key current v then combined key current v else .knot n v
  | v => v

/-- The first mapping with the second laid over it: keys of the first keep their places, and keys
that only the second has come after them. -/
def overlay (base : List (Value × Value)) : List (Value × Value) → List (Value × Value)
  | [] => base
  | (k, v) :: es => overlay (insert base k (combined k ((find? base k).map Value.body) v)) es

end

theorem overlay_nil (base : Entries) : overlay base [] = base := by
  rw [overlay]

theorem combined_none (key v : Value) : combined key none v = v := by
  cases v <;> simp [combined, joins]

end RefSite.Entries
