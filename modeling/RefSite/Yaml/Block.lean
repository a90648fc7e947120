import RefSite.Yaml.Cursor
import RefSite.Yaml.Token

namespace RefSite.Yaml

/-- What becomes of the line ends at the end of a block scalar. -/
inductive Chomping where
  | clip
  | strip
  | keep
  deriving DecidableEq, Repr

namespace Reading

/-- A sign that says what becomes of the last line ends. -/
def chomping? : Reading (Option Chomping) := do
  match ← peek? with
  | some '+' =>
    skip 1
    return some .keep
  | some '-' =>
    skip 1
    return some .strip
  | _ => return none

/-- A digit that gives the indentation; it may not be zero. -/
def increment? : Reading (Option Nat) := do
  match ← peek? with
  | some c =>
    if c.isDigit then
      if c = '0' then reject
      skip 1
      return some (c.toNat - '0'.toNat)
    else return none
  | none => return none

/-- The sign and the digit, in any order. -/
def blockHeader : Reading (Chomping × Option Nat) := do
  let header ← match ← chomping? with
    | some k => do pure (k, ← increment?)
    | none => do
      let n ← increment?
      let k ← if n.isSome then chomping? else pure none
      pure (k.getD .clip, n)
  expectFieldEnd
  return header

/-- The line ends before the first line, and the deepest indentation among them. -/
def leadingBreaks : Nat → Nat → Reading (List Char × Nat)
  | 0, deepest => return ([], deepest)
  | fuel + 1, deepest => do
    if (← peek?) == some ' ' then
      skip 1
      leadingBreaks fuel (max deepest (← get).column)
    else
      match ← takeBreak with
      | some b =>
        let r ← leadingBreaks fuel deepest
        return (b :: r.1, r.2)
      | none => return ([], deepest)

/-- Passes over spaces up to the given column. -/
def skipIndentation (indent : Nat) : Reading Unit := do
  let c ← get
  skip (min (c.rest.takeWhile (· == ' ')).length (indent - c.column))

/-- Line ends in a row, each with the indentation after it. -/
def blockBreaks (indent : Nat) : Nat → Reading (List Char)
  | 0 => return []
  | fuel + 1 => do
    skipIndentation indent
    match ← takeBreak with
    | some b => return b :: (← blockBreaks indent fuel)
    | none => return []

/-- The next line belongs to the scalar. -/
def atBlockLine (indent : Nat) : Reading Bool := do
  let c ← get
  return c.column == indent && c.peek?.isSome

/-- The lines of a block scalar, the last line end and the line ends after it. -/
def blockLines (folded : Bool) (indent : Nat) :
    Nat → Reading (List Char × Option Char × List Char)
  | 0 => return ([], none, [])
  | fuel + 1 => do
    let spaced := (← get).peek?.any isSpacing
    let line ← takeWhile fun c => !isBreak c
    let lineEnd ← takeBreak
    let breaks ← blockBreaks indent (← get).fuel
    if ← atBlockLine indent then
      let folds := folded && lineEnd == some '\n' && !spaced && !(← get).peek?.any isSpacing
      let between :=
        if folds then (if breaks.isEmpty then [' '] else []) else lineEnd.toList
      let r ← blockLines folded indent fuel
      return (line ++ between ++ breaks ++ r.1, r.2)
    else return (line, lineEnd, breaks)

/-- A block scalar inside a collection with the given indentation. -/
def block (folded : Bool) (parent : Int) : Reading Token := do
  skip 1
  let (chomp, increment) ← blockHeader
  skipLineRest
  let least := (max (parent + 1) 1).toNat
  let fuel := (← get).fuel
  let (first, indent) ← match increment with
    | some n => do
      let indent := least + n - 1
      pure (← blockBreaks indent fuel, indent)
    | none => do
      let r ← leadingBreaks fuel 0
      pure (r.1, max least r.2)
  if ← atBlockLine indent then
    let (body, lineEnd, breaks) ← blockLines folded indent fuel
    let last := if chomp = .strip then [] else lineEnd.toList
    let after := if chomp = .keep then breaks else []
    return .scalar (String.ofList (first ++ body ++ last ++ after)) false
  else
    return .scalar (String.ofList (if chomp = .keep then first else [])) false

end Reading

end RefSite.Yaml
