import RefSite.Text.Digits
import RefSite.Yaml.Cursor
import RefSite.Yaml.Token

namespace RefSite.Yaml

/-- The characters of anchor names and tag handles. -/
def isWordChar (c : Char) : Bool := c.isAlphanum || c = '-' || c = '_'

/-- The characters of tags; a percent sign starts an escape. -/
def isTagChar (c : Char) : Bool :=
  c.isAlphanum || "-;/?:@&=+$,_.!~*\x27()[]%".toList.contains c

/-- The value of a hexadecimal digit. -/
def hexValue? (c : Char) : Option Nat :=
  if '0' ≤ c && c ≤ '9' then some (c.toNat - '0'.toNat)
  else if 'a' ≤ c && c ≤ 'f' then some (c.toNat - 'a'.toNat + 10)
  else if 'A' ≤ c && c ≤ 'F' then some (c.toNat - 'A'.toNat + 10)
  else none

namespace Reading

/-- Reads exactly `n` hexadecimal digits. -/
def hexNumber (n : Nat) : Reading Nat := do
  match ((← get).rest.take n).mapM hexValue? with
  | some ds =>
    if ds.length < n then reject
    skip n
    return ds.foldl (fun v d => 16 * v + d) 0
  | none => reject

/-- The name after the sign of an anchor or alias. -/
def anchorName : Reading String := do
  skip 1
  let name ← takeWhile isWordChar
  if name.isEmpty then reject
  let c ← get
  if c.isGapAt 0 || "?:,]\x7d%@\x60".toList.contains (c.peek?.getD ' ') then
    return String.ofList name
  else reject

/-- Bytes given as a percent sign and two digits each. -/
def escapedBytes : Nat → Reading (List UInt8)
  | 0 => return []
  | fuel + 1 => do
    if (← peek?) == some '%' then
      skip 1
      let b ← hexNumber 2
      return UInt8.ofNat b :: (← escapedBytes fuel)
    else return []

/-- The parts of a tag, with runs of escapes decoded. -/
def tagParts : Nat → Reading (List Char)
  | 0 => return []
  | fuel + 1 => do
    let cs ← takeWhile fun c => isTagChar c && c != '%'
    if (← peek?) == some '%' then
      let bytes ← escapedBytes (← get).fuel
      match String.fromUTF8? ⟨bytes.toArray⟩ with
      | some s => return cs ++ s.toList ++ (← tagParts fuel)
      | none => reject
    else return cs

/-- A tag without its handle; it may not be empty. -/
def tagName : Reading String := do
  let start := (← get).index
  let cs ← tagParts (← get).fuel
  if (← get).index = start then reject
  return String.ofList cs

/-- A tag handle: one or two exclamation marks, the second after a word. -/
def tagHandle : Reading String := do
  if (← peek?) != some '!' then reject
  skip 1
  if (← peek?) == some ' ' then return "!"
  let word ← takeWhile isWordChar
  if (← peek?) != some '!' then reject
  skip 1
  return String.ofList ('!' :: word ++ ['!'])

/-- A second exclamation mark follows before the tag ends. -/
def hasHandle (cs : List Char) : Bool :=
  (cs.takeWhile fun c => !isBreak c && c != ' ').contains '!'

/-- A tag: given in full between angle brackets, a single mark, or a handle and a name. -/
def tag : Reading Token := do
  let c ← get
  let t ← if c.peekAt? 1 == some '<' then do
      skip 2
      let name ← tagName
      if (← peek?) != some '>' then reject
      skip 1
      pure (Token.tag none name)
    else if c.isGapAt 1 then do
      skip 1
      pure (Token.tag none "!")
    else if hasHandle (c.rest.drop 1) then do
      let handle ← tagHandle
      pure (Token.tag (some handle) (← tagName))
    else do
      skip 1
      pure (Token.tag (some "!") (← tagName))
  expectFieldEnd
  return t

/-- A number in a directive, within the limit for digits. -/
def directiveNumber : Reading Nat := do
  let ds := (← get).rest.takeWhile Char.isDigit
  if ds.isEmpty then reject
  if Text.digitLimit < ds.length then throw .impossibleScalar
  skip ds.length
  return ds.foldl (fun n d => 10 * n + (d.toNat - '0'.toNat)) 0

/-- A directive, up to the end of its line. -/
def directive : Reading Directive := do
  skip 1
  let name ← takeWhile isWordChar
  if name.isEmpty then reject
  expectFieldEnd
  let d ← if name = "YAML".toList then do
      skipWhile (· == ' ')
      let major ← directiveNumber
      if (← peek?) != some '.' then reject
      skip 1
      discard directiveNumber
      expectFieldEnd
      pure (Directive.version major)
    else if name = "TAG".toList then do
      skipWhile (· == ' ')
      let handle ← tagHandle
      if (← peek?) != some ' ' then reject
      skipWhile (· == ' ')
      let meaning ← tagName
      expectFieldEnd
      pure (Directive.tagHandle handle meaning)
    else do
      skipWhile fun c => !isBreak c
      pure Directive.other
  skipLineRest
  return d

end Reading

end RefSite.Yaml
