import RefSite.Yaml.Block
import RefSite.Yaml.Plain
import RefSite.Yaml.Quoted

namespace RefSite.Yaml

/-- A place where a key may have started. -/
structure KeyStart where
  token : Nat
  /-- Nothing but a key can stand here. -/
  required : Bool
  index : Nat
  line : Nat
  column : Nat

/-- How far a text has been split, and what is open. -/
structure Scanner where
  cursor : Cursor
  /-- The number of open flow collections. -/
  flow : Nat := 0
  /-- The column of the innermost block collection, and those of the ones around it. -/
  indent : Int := -1
  outer : List Int := []
  tokens : List Token := []
  count : Nat := 0
  mayStartKey : Bool := true
  /-- At most one place for each depth of flow collections. -/
  keyStarts : List (Nat × KeyStart) := []
  finished : Bool := false

namespace Scanner

/-- The longest distance between the start of a key and its colon. -/
def keyLimit : Nat := 1024

def emit (t : Token) (s : Scanner) : Scanner :=
  { s with tokens := t :: s.tokens, count := s.count + 1 }

/-- Adds a token in front of the one with the given number. -/
def emitBefore (n : Nat) (t : Token) (s : Scanner) : Scanner :=
  { s with tokens := s.tokens.insertIdx (s.count - n) t, count := s.count + 1 }

def inFlow (s : Scanner) : Bool := 0 < s.flow

def read {α : Type} (r : Reading α) (s : Scanner) : Except Failure (α × Scanner) :=
  match r.run s.cursor with
  | .ok (a, c) => .ok (a, { s with cursor := c })
  | .error f => .error f

/-- The key cannot reach this place any more. -/
def isStale (s : Scanner) (k : KeyStart) : Bool :=
  k.line != s.cursor.line || keyLimit < s.cursor.index - k.index

/-- Forgets the keys that cannot reach this place; none of them may be required. -/
def dropStale (s : Scanner) : Except Failure Scanner :=
  if s.keyStarts.any fun k => s.isStale k.2 && k.2.required then .error .malformed
  else .ok { s with keyStarts := s.keyStarts.filter fun k => !s.isStale k.2 }

/-- Forgets the key that may have started at this depth; it may not be required. -/
def dropKey (s : Scanner) : Except Failure Scanner :=
  match s.keyStarts.lookup s.flow with
  | some k =>
    if k.required then .error .malformed
    else .ok { s with keyStarts := s.keyStarts.filter fun k => k.1 != s.flow }
  | none => .ok s

/-- Notes that a key may start here, if one may. -/
def noteKey (s : Scanner) : Except Failure Scanner := do
  if !s.mayStartKey then return s
  let required := !s.inFlow && s.indent == (s.cursor.column : Int)
  let k : KeyStart :=
    ⟨s.count, required, s.cursor.index, s.cursor.line, s.cursor.column⟩
  let s ← s.dropKey
  return { s with keyStarts := (s.flow, k) :: s.keyStarts }

/-- Closes the block collections that are indented deeper than the column. -/
def closeBlocks (column : Int) (s : Scanner) : Scanner :=
  if s.inFlow then s
  else go s.indent s.outer s
where
  go (indent : Int) (outer : List Int) (s : Scanner) : Scanner :=
    if column < indent then
      match outer with
      | [] => s
      | i :: is => go i is { s.emit .blockEnd with indent := i, outer := is }
    else s

/-- Opens a block collection at the column if it is indented deeper than the innermost one, with
the mark in front of the given token. -/
def openBlock (column n : Nat) (t : Token) (s : Scanner) : Scanner :=
  if !s.inFlow && decide (s.indent < (column : Int)) then
    { s.emitBefore n t with indent := column, outer := s.indent :: s.outer }
  else s

/-- Passes over spaces, comments and line ends. A key may start on a new line outside of flow
collections. -/
def skipGap : Nat → Scanner → Except Failure Scanner
  | 0, s => .ok s
  | fuel + 1, s => do
    let (b, s) ← s.read do
      Reading.skipWhile (· == ' ')
      Reading.skipComment
      Reading.takeBreak
    match b with
    | some _ => skipGap fuel (if s.inFlow then s else { s with mayStartKey := true })
    | none => return s

/-- Passes over a byte order mark at the very start. -/
def skipMark (s : Scanner) : Scanner :=
  if s.cursor.index = 0 && s.cursor.peek? == some byteOrderMark then
    { s with cursor := s.cursor.next }
  else s

def scanEnd (s : Scanner) : Except Failure Scanner := do
  let s ← (s.closeBlocks (-1)).dropKey
  return { s.emit .streamEnd with mayStartKey := false, keyStarts := [], finished := true }

def scanDirective (s : Scanner) : Except Failure Scanner := do
  let s ← (s.closeBlocks (-1)).dropKey
  let (d, s) ← s.read Reading.directive
  return { s.emit (.directive d) with mayStartKey := false }

/-- The start or end of a document. -/
def scanSeparator (t : Token) (s : Scanner) : Except Failure Scanner := do
  let s ← (s.closeBlocks (-1)).dropKey
  let (_, s) ← s.read (Reading.skip 3)
  return { s.emit t with mayStartKey := false }

/-- The start of a flow collection, which may itself be a key. -/
def scanFlowStart (t : Token) (s : Scanner) : Except Failure Scanner := do
  let s ← s.noteKey
  let (_, s) ← s.read (Reading.skip 1)
  return { s.emit t with mayStartKey := true, flow := s.flow + 1 }

/-- The end of a flow collection. Where none is open, the mark is out of place among the tokens. -/
def scanFlowEnd (t : Token) (s : Scanner) : Except Failure Scanner := do
  let s ← s.dropKey
  let (_, s) ← s.read (Reading.skip 1)
  return { s.emit t with mayStartKey := false, flow := s.flow - 1 }

/-- A comma between the entries of a flow collection. -/
def scanFlowEntry (s : Scanner) : Except Failure Scanner := do
  let s ← s.dropKey
  let (_, s) ← s.read (Reading.skip 1)
  return { s.emit .flowEntry with mayStartKey := true }

/-- The dash of a block sequence. -/
def scanBlockEntry (s : Scanner) : Except Failure Scanner := do
  if !s.inFlow && !s.mayStartKey then throw .malformed
  let s ← (s.openBlock s.cursor.column s.count .blockSequenceStart).dropKey
  let (_, s) ← s.read (Reading.skip 1)
  return { s.emit .blockEntry with mayStartKey := true }

def scanKey (s : Scanner) : Except Failure Scanner := do
  if !s.inFlow && !s.mayStartKey then throw .malformed
  let s ← (s.openBlock s.cursor.column s.count .blockMappingStart).dropKey
  let (_, s) ← s.read (Reading.skip 1)
  return { s.emit .key with mayStartKey := !s.inFlow }

/-- A colon, after a key without a mark or after one with a mark. -/
def scanValue (s : Scanner) : Except Failure Scanner := do
  match s.keyStarts.lookup s.flow with
  | some k =>
    let s := { s with keyStarts := s.keyStarts.filter fun k => k.1 != s.flow }
    let s := (s.emitBefore k.token .key).openBlock k.column k.token .blockMappingStart
    let (_, s) ← s.read (Reading.skip 1)
    return { s.emit .value with mayStartKey := false }
  | none =>
    if !s.inFlow && !s.mayStartKey then throw .malformed
    let s ← (s.openBlock s.cursor.column s.count .blockMappingStart).dropKey
    let (_, s) ← s.read (Reading.skip 1)
    return { s.emit .value with mayStartKey := !s.inFlow }

/-- A token that may be a key or stand in front of one, and after which no key may start. -/
def scanWord (r : Reading Token) (s : Scanner) : Except Failure Scanner := do
  let s ← s.noteKey
  let (t, s) ← s.read r
  return { s.emit t with mayStartKey := false }

/-- A block scalar. A key may start after it. -/
def scanBlockScalar (folded : Bool) (s : Scanner) : Except Failure Scanner := do
  let s ← s.dropKey
  let (t, s) ← s.read (Reading.block folded s.indent)
  return { s.emit t with mayStartKey := true }

/-- A plain scalar. A key may start after it if it ended with a line end. -/
def scanPlain (s : Scanner) : Except Failure Scanner := do
  let s ← s.noteKey
  let ((t, broke), s) ← s.read (Reading.plain s.inFlow s.indent)
  return { s.emit t with mayStartKey := broke }

/-- The next token, decided by the next character. -/
def scanNext (s : Scanner) : Except Failure Scanner := do
  let s ← skipGap s.cursor.fuel s.skipMark
  let s ← s.dropStale
  let s := s.closeBlocks s.cursor.column
  let c := s.cursor
  let some ch := c.peek? | s.scanEnd
  let atMargin := c.column == 0
  if atMargin && ch == '%' then s.scanDirective
  else if atMargin && c.atSeparator then
    s.scanSeparator (if ch == '-' then .documentStart else .documentEnd)
  else if ch == '[' then s.scanFlowStart .flowSequenceStart
  else if ch == '\x7b' then s.scanFlowStart .flowMappingStart
  else if ch == ']' then s.scanFlowEnd .flowSequenceEnd
  else if ch == '\x7d' then s.scanFlowEnd .flowMappingEnd
  else if ch == ',' then s.scanFlowEntry
  else if ch == '-' && c.isGapAt 1 then s.scanBlockEntry
  else if ch == '?' && (s.inFlow || c.isGapAt 1) then s.scanKey
  else if ch == ':' && (s.inFlow || c.isGapAt 1) then s.scanValue
  else if ch == '*' then s.scanWord (return .alias (← Reading.anchorName))
  else if ch == '&' then s.scanWord (return .anchor (← Reading.anchorName))
  else if ch == '!' then s.scanWord Reading.tag
  else if ch == '|' && !s.inFlow then s.scanBlockScalar false
  else if ch == '>' && !s.inFlow then s.scanBlockScalar true
  else if ch == '\x27' then s.scanWord (Reading.quoted false)
  else if ch == '\x22' then s.scanWord (Reading.quoted true)
  else if startsPlain s.inFlow c then s.scanPlain
  else throw .malformed

/-- The number of tokens that are settled: none of them may still turn out to be a key. -/
def settledCount (s : Scanner) : Nat := (s.keyStarts.map fun k => k.2.token).foldl min s.count

/-- The settled tokens in order, and after them the fault that ends the text. -/
def brokenOff (s : Scanner) (f : Failure) : List Token :=
  s.tokens.reverse.take s.settledCount ++ [.broken f]

/-- All tokens that can be read, in order. A fault counts as soon as a token beyond the settled ones
is asked for. -/
def scanAll : Nat → Scanner → List Token
  | 0, s => s.brokenOff .malformed
  | fuel + 1, s =>
    match s.scanNext.bind fun s => if s.finished then .ok s else s.dropStale with
    | .error f => s.brokenOff f
    | .ok s => if s.finished then s.tokens.reverse else scanAll fuel s

end Scanner

def tokens (s : String) : List Token :=
  let cs := s.toList
  if cs.all isAllowed then Scanner.scanAll (cs.length + 2) { cursor := .ofText cs }
  else [.broken .malformed]

end RefSite.Yaml
