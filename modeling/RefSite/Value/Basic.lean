import RefSite.Number.Shortest
import RefSite.Value.Calendar

namespace RefSite

/-- A scalar, a list, or a mapping in the order of its keys. Data may hold itself: a list or mapping
that is found again among its own parts is a knot, and is laid out to some depth. -/
inductive Value where
  | null
  | bool (b : Bool)
  | int (n : Int)
  | float (x : Binary64)
  | text (s : String)
  | list (items : List Value)
  | map (entries : List (Value × Value))
  /-- A list or mapping that holds itself, with a number that tells it from others. The same number
  marks the same collection, laid out to a smaller depth inside itself, and empty at last. -/
  | knot (number : Nat) (content : Value)
  | day (d : Day)
  | moment (t : Moment)
  deriving Repr, Inhabited

/-- The entries of a mapping, in the order of their keys. -/
abbrev Entries := List (Value × Value)

namespace Value

/-- What a knot is a knot of; any other value stands for itself. -/
def body : Value → Value
  | knot _ v => v
  | v => v

/-- A knot at the depth where it is no longer laid out. -/
def isSpent : Value → Bool
  | knot _ (list []) => true
  | knot _ (map []) => true
  | _ => false

/-- Everything counts as given except nothing, zero, the empty text and the empty collections. -/
def truthy : Value → Bool
  | null => false
  | bool b => b
  | int n => n != 0
  | float x => !x.isZero
  | text s => s != ""
  | list items => !items.isEmpty
  | map entries => !entries.isEmpty
  | knot _ _ => true
  | day _ => true
  | moment _ => true

/-- The number a scalar stands for as a key: a truth value counts as 0 or 1. -/
def asInt? : Value → Option Int
  | bool b => some (if b then 1 else 0)
  | int n => some n
  | _ => none

/-- The two values are the same key. Numbers of different types are the same key when they are
equal; what is no number is never the same key as anything. -/
def sameKey : Value → Value → Bool
  | null, null => true
  | text s, text t => s == t
  | day d, day e => d == e
  | moment t, moment u => t.sameInstant u
  | float x, float y => x.sameNumber y
  | float x, v => v.asInt?.any x.equalsInt
  | v, float x => v.asInt?.any x.equalsInt
  | v, w =>
    match v.asInt?, w.asInt? with
    | some m, some n => m == n
    | _, _ => false

/-- The elements of a value that has some: the items of a list, the characters of a text, the keys
of a mapping. -/
def elements? : Value → Option (List Value)
  | list items => some items
  | text s => some (s.toList.map fun c => text (String.singleton c))
  | map entries => some (entries.map Prod.fst)
  | knot _ v => elements? v
  | _ => none

end Value

namespace Entries

def find? (es : Entries) (k : Value) : Option Value :=
  (List.find? (fun e => e.1.sameKey k) es).map Prod.snd

def get? (es : Entries) (key : String) : Option Value := find? es (.text key)

/-- The value of a key that is a text; nothing when the key is absent. -/
def field (es : Entries) (key : String) : Value := (get? es key).getD .null

/-- The mapping with a key set: the key keeps its first place and form, or comes last. -/
def insert : Entries → Value → Value → Entries
  | [], k, v => [(k, v)]
  | (k', v') :: es, k, v => if k'.sameKey k then (k', v) :: es else (k', v') :: insert es k v

def ofPairs (ps : List (Value × Value)) : Entries := ps.foldl (fun es p => insert es p.1 p.2) []

theorem find_nil (k : Value) : find? [] k = none := rfl

end Entries

end RefSite
