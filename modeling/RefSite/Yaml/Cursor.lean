import RefSite.Failure

namespace RefSite.Yaml

/-- The characters that end a line. -/
def isBreak (c : Char) : Bool :=
  c = '\n' || c = '\r' || c.toNat = 0x85 || c.toNat = 0x2028 || c.toNat = 0x2029

def isSpacing (c : Char) : Bool := c = ' ' || c = '\t'

/-- Characters that a text may hold: no controls but the line ends and the tab, and no
noncharacters. -/
def isAllowed (c : Char) : Bool :=
  let n := c.toNat
  n = 0x9 || n = 0xa || n = 0xd || n = 0x85 || (0x20 ≤ n && n ≤ 0x7e) ||
    (0xa0 ≤ n && n ≤ 0xd7ff) || (0xe000 ≤ n && n ≤ 0xfffd) || 0x10000 ≤ n

/-- The byte order mark, which takes no column. -/
def byteOrderMark : Char := Char.ofNat 0xfeff

/-- What is left of the text, and where in it that is. -/
structure Cursor where
  rest : List Char
  /-- The length of the whole text. -/
  size : Nat
  index : Nat := 0
  line : Nat := 0
  column : Nat := 0

namespace Cursor

def next (c : Cursor) : Cursor :=
  match c.rest with
  | [] => c
  | ch :: cs =>
    if isBreak ch && !(ch == '\r' && cs.head? == some '\n') then
      { c with rest := cs, index := c.index + 1, line := c.line + 1, column := 0 }
    else
      let column := if ch = byteOrderMark then c.column else c.column + 1
      { c with rest := cs, index := c.index + 1, column }

def advance : Nat → Cursor → Cursor
  | 0, c => c
  | n + 1, c => advance n c.next

def ofText (cs : List Char) : Cursor := { rest := cs, size := cs.length }

/-- Enough steps to read on to the end of the text, one character at a time. -/
def fuel (c : Cursor) : Nat := c.size + 1

def peek? (c : Cursor) : Option Char := c.rest.head?

def peekAt? (c : Cursor) (n : Nat) : Option Char := (c.rest.drop n).head?

/-- At the end of the text or of a line. -/
def atLineEnd (c : Cursor) : Bool := c.peek?.all isBreak

/-- The character `n` places further on is the end of the text, a line end, a space or a tab. -/
def isGapAt (c : Cursor) (n : Nat) : Bool := (c.peekAt? n).all fun ch => isBreak ch || isSpacing ch

/-- The next character is the end of the text, a line end or a space. -/
def atFieldEnd (c : Cursor) : Bool := c.peek?.all fun ch => isBreak ch || ch == ' '

/-- Three dashes or three dots that stand alone. -/
def atSeparator (c : Cursor) : Bool :=
  (c.rest.take 3 == ['-', '-', '-'] || c.rest.take 3 == ['.', '.', '.']) && c.isGapAt 3

end Cursor

/-- Steps that read a text and may find it malformed. -/
abbrev Reading := StateT Cursor (Except Failure)

namespace Reading

/-- The text is not well-formed. -/
def reject {α : Type} : Reading α := throw .malformed

def peek? : Reading (Option Char) := return (← get).peek?

def skip (n : Nat) : Reading Unit := modify (Cursor.advance n)

/-- Takes the characters up to the first one that does not satisfy `p`. -/
def takeWhile (p : Char → Bool) : Reading (List Char) := do
  let cs := (← get).rest.takeWhile p
  skip cs.length
  return cs

/-- Passes over the characters up to the first one that does not satisfy `p`. -/
def skipWhile (p : Char → Bool) : Reading Unit := discard (takeWhile p)

/-- Takes a line end if there is one. All but the two separators count as a line feed. -/
def takeBreak : Reading (Option Char) := do
  let c ← get
  match c.peek? with
  | none => return none
  | some ch =>
    if !isBreak ch then return none
    else if ch = '\r' && c.peekAt? 1 == some '\n' then
      skip 2
      return some '\n'
    else
      skip 1
      return some (if ch.toNat = 0x2028 || ch.toNat = 0x2029 then ch else '\n')

/-- Passes over a comment, if one starts here. -/
def skipComment : Reading Unit := do
  if (← peek?) == some '#' then skipWhile fun c => !isBreak c

/-- Passes over spaces and a comment to the end of the line, and over the line end. -/
def skipLineRest : Reading Unit := do
  skipWhile (· == ' ')
  skipComment
  if !(← get).atLineEnd then reject
  discard takeBreak

/-- The place is one of those where a field has to end. -/
def expectFieldEnd : Reading Unit := do
  if !(← get).atFieldEnd then reject

end Reading

end RefSite.Yaml
