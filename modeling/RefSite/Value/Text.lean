import RefSite.Text.Quoted
import RefSite.Text.Digits
import RefSite.Value.Basic

namespace RefSite.Value

/-- The form of a collection that is found again inside itself. -/
def dots : Value → String
  | map _ => "\x7b...\x7d"
  | _ => "[...]"

mutual

/-- The form of a value inside a list or mapping and in messages, where the `outer` knots are
around it. Texts are quoted. There is none if a number in it is too long to be written. -/
def shownWithin (outer : List Nat) : Value → Option String
  | null => some "None"
  | bool b => some (if b then "True" else "False")
  | int n => Text.ofInt? n
  | float x => some x.text
  | text s => some (Text.quoted s)
  | list items => (shownItems outer items).map fun ss => "[" ++ ", ".intercalate ss ++ "]"
  | map entries =>
    (shownEntries outer entries).map fun ss => "\x7b" ++ ", ".intercalate ss ++ "\x7d"
  | knot n v => if outer.contains n then some (dots v) else shownWithin (n :: outer) v
  | day d => some d.shown
  | moment t => some t.shown

def shownItems (outer : List Nat) : List Value → Option (List String)
  | [] => some []
  | v :: vs =>
    match shownWithin outer v, shownItems outer vs with
    | some s, some ss => some (s :: ss)
    | _, _ => none

def shownEntries (outer : List Nat) : List (Value × Value) → Option (List String)
  | [] => some []
  | (k, v) :: es =>
    match shownWithin outer k, shownWithin outer v, shownEntries outer es with
    | some s, some t, some ss => some ((s ++ ": " ++ t) :: ss)
    | _, _, _ => none

end

/-- The form of a value in messages, if it has one. -/
def shown? (v : Value) : Option String := shownWithin [] v

/-- The form of a value in messages; empty if it has none. -/
def shown (v : Value) : String := v.shown?.getD ""

example : (list [int 1, text "a", null]).shown = "[1, 'a', None]" := by decide +kernel

/-- The form of a value on a page, if it has one: a text stands for itself. -/
def written? : Value → Option String
  | text s => some s
  | day d => some d.text
  | moment t => some t.text
  | v => v.shown?

/-- The form of a value on a page; empty if it has none. -/
def written (v : Value) : String := v.written?.getD ""

/-- Why a value is not a whole number. -/
inductive IntFault where
  /-- The value is of a type or spelling that no number has. -/
  | notNumeric
  /-- The value is infinite. -/
  | infinite
  deriving DecidableEq, Repr

/-- The whole number a scalar stands for: fractions are cut off, and texts are read. -/
def toInt : Value → Except IntFault Int
  | bool b => .ok (if b then 1 else 0)
  | int n => .ok n
  | float x =>
    match x.truncate? with
    | some n => .ok n
    | none => .error (if x.isNaN then .notNumeric else .infinite)
  | text s =>
    match Text.int? s with
    | some n => .ok n
    | none => .error .notNumeric
  | _ => .error .notNumeric

theorem written_text (s : String) : (text s).written = s := rfl

theorem toInt_int (n : Int) : (int n).toInt = .ok n := rfl

end RefSite.Value
