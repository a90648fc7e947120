import RefSite.Yaml.Words

namespace RefSite.Yaml

/-- The character that a letter after a backslash stands for. -/
def escapeMeaning? (c : Char) : Option Char :=
  match c with
  | '0' => some '\x00'
  | 'a' => some '\x07'
  | 'b' => some '\x08'
  | 't' => some '\t'
  | '\t' => some '\t'
  | 'n' => some '\n'
  | 'v' => some '\x0b'
  | 'f' => some '\x0c'
  | 'r' => some '\r'
  | 'e' => some '\x1b'
  | ' ' => some ' '
  | '\x22' => some '\x22'
  | '\\' => some '\\'
  | '/' => some '/'
  | 'N' => some (Char.ofNat 0x85)
  | '_' => some (Char.ofNat 0xa0)
  | 'L' => some (Char.ofNat 0x2028)
  | 'P' => some (Char.ofNat 0x2029)
  | _ => none

/-- The number of hexadecimal digits after a letter that announces a character code. -/
def codeLength? (c : Char) : Option Nat :=
  match c with
  | 'x' => some 2
  | 'u' => some 4
  | 'U' => some 8
  | _ => none

def isQuotedPlain (c : Char) : Bool :=
  !isBreak c && !isSpacing c && c != '\x27' && c != '\x22' && c != '\\'

namespace Reading

/-- The character of a code. Half of a surrogate pair is none, also where the other half follows. -/
def charOfCode (n : Nat) : Reading Char := do
  if 0x80000000 ≤ n then throw .numberTooLarge
  if 0x10ffff < n then throw .impossibleScalar
  if 0xd800 ≤ n && n ≤ 0xdfff then throw .surrogate
  return Char.ofNat n

/-- Line ends in a row, each with the spacing after it; a separator may not be among them. -/
def quotedBreaks : Nat → Reading (List Char)
  | 0 => return []
  | fuel + 1 => do
    if (← get).atSeparator then reject
    skipWhile isSpacing
    match ← takeBreak with
    | some b => return b :: (← quotedBreaks fuel)
    | none => return []

/-- The rest of an escape after its backslash. -/
def escape : Reading (List Char) := do
  let some c ← peek? | reject
  match escapeMeaning? c with
  | some m =>
    skip 1
    return [m]
  | none =>
    match codeLength? c with
    | some n =>
      skip 1
      return [← charOfCode (← hexNumber n)]
    | none =>
      if isBreak c then
        discard takeBreak
        quotedBreaks (← get).fuel
      else reject

/-- The characters up to the next spacing, line end or closing quote. -/
def quotedWord (double : Bool) : Nat → Reading (List Char)
  | 0 => return []
  | fuel + 1 => do
    let cs ← takeWhile isQuotedPlain
    let c ← get
    match c.peek? with
    | some '\x27' =>
      if double then
        skip 1
        return cs ++ '\x27' :: (← quotedWord double fuel)
      else if c.peekAt? 1 == some '\x27' then
        skip 2
        return cs ++ '\x27' :: (← quotedWord double fuel)
      else return cs
    | some '\x22' =>
      if double then return cs
      else
        skip 1
        return cs ++ '\x22' :: (← quotedWord double fuel)
    | some '\\' =>
      skip 1
      let e ← if double then escape else pure ['\\']
      return cs ++ e ++ (← quotedWord double fuel)
    | _ => return cs

/-- Spacing and line ends between words; the text may not end here. -/
def quotedSpacing : Reading (List Char) := do
  let blanks ← takeWhile isSpacing
  if (← peek?).isNone then reject
  match ← takeBreak with
  | none => return blanks
  | some b =>
    let more ← quotedBreaks (← get).fuel
    if b != '\n' then return b :: more
    else if more.isEmpty then return [' ']
    else return more

/-- Words and spacing up to the closing quote. -/
def quotedRest (double : Bool) : Nat → Reading (List Char)
  | 0 => reject
  | fuel + 1 => do
    let word ← quotedWord double (← get).fuel
    if (← peek?) == some (if double then '\x22' else '\x27') then
      skip 1
      return word
    else
      let spacing ← quotedSpacing
      return word ++ spacing ++ (← quotedRest double fuel)

def quoted (double : Bool) : Reading Token := do
  skip 1
  let cs ← quotedRest double (← get).fuel
  return .scalar (String.ofList cs) false

end Reading

end RefSite.Yaml
