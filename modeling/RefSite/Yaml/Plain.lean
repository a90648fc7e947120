import RefSite.Yaml.Cursor
import RefSite.Yaml.Token

namespace RefSite.Yaml

/-- The marks of flow collections. -/
def isFlowMark (c : Char) : Bool :=
  c = ',' || c = '[' || c = ']' || c = '\x7b' || c = '\x7d'

/-- The characters in front of the place where a plain word ends. -/
def plainWord (inFlow : Bool) : List Char → List Char
  | [] => []
  | c :: cs =>
    let endsAtColon := c = ':' && (cs.head?.all fun d =>
      isBreak d || isSpacing d || (inFlow && isFlowMark d))
    if isBreak c || isSpacing c || endsAtColon || (inFlow && (isFlowMark c || c = '?')) then []
    else c :: plainWord inFlow cs

/-- The next character can start a plain scalar. -/
def startsPlain (inFlow : Bool) (c : Cursor) : Bool :=
  match c.peek? with
  | none => false
  | some ch =>
    (!isBreak ch && !isSpacing ch && !"-?:,[]\x7b\x7d#&*!|>\x27\x22%@\x60".toList.contains ch) ||
      (!c.isGapAt 1 && (ch == '-' || (!inFlow && (ch == '?' || ch == ':'))))

namespace Reading

/-- Line ends in a row, with the spaces between them; nothing if a separator follows one. -/
def plainBreaks : Nat → Reading (Option (List Char))
  | 0 => return some []
  | fuel + 1 => do
    skipWhile (· == ' ')
    match ← takeBreak with
    | none => return some []
    | some b =>
      if (← get).atSeparator then return none
      return (← plainBreaks fuel).map (b :: ·)

/-- The spacing between two words, and whether there was a line end in it; nothing if a separator
follows a line end. -/
def plainSpacing : Reading (Option (List Char) × Bool) := do
  let blanks ← takeWhile (· == ' ')
  match ← takeBreak with
  | none => return (some blanks, false)
  | some b =>
    if (← get).atSeparator then return (none, true)
    match ← plainBreaks (← get).fuel with
    | none => return (none, true)
    | some more =>
      if b != '\n' then return (some (b :: more), true)
      else if more.isEmpty then return (some [' '], true)
      else return (some more, true)

/-- Words and the spacing before each, and whether the last spacing had a line end in it. -/
def plainWords (inFlow : Bool) (indent : Int) (before : List Char) (ended : Bool) :
    Nat → Reading (List Char × Bool)
  | 0 => return ([], ended)
  | fuel + 1 => do
    if (← peek?) == some '#' then return ([], ended)
    let word := plainWord inFlow (← get).rest
    if word.isEmpty then return ([], ended)
    skip word.length
    let (spacing, broke) ← plainSpacing
    let c ← get
    match spacing with
    | some (s :: ss) =>
      if c.peek? == some '#' || (!inFlow && decide ((c.column : Int) < indent)) then
        return (before ++ word, broke)
      let r ← plainWords inFlow indent (s :: ss) broke fuel
      return (before ++ word ++ r.1, r.2)
    | _ => return (before ++ word, broke)

/-- A plain scalar inside a collection with the given indentation, and whether it ended after a
line end. -/
def plain (inFlow : Bool) (parent : Int) : Reading (Token × Bool) := do
  let r ← plainWords inFlow (parent + 1) [] false (← get).fuel
  return (.scalar (String.ofList r.1) true, r.2)

end Reading

end RefSite.Yaml
