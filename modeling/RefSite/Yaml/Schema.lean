import RefSite.Number.Shortest
import RefSite.Text.Digits
import RefSite.Value.Calendar
import RefSite.Files.Path

namespace RefSite.Yaml

inductive Tag where
  | null
  | bool
  | int
  | float
  | timestamp
  | str
  | seq
  | map
  /-- The key under which mappings are merged in. -/
  | merge
  /-- The key of a default value. -/
  | default
  | other (name : String)
  deriving DecidableEq, Repr, Inhabited

namespace Tag

/-- The type with the given name in full. -/
def ofName (name : String) : Tag :=
  let standard : List (String × Tag) :=
    [("null", null), ("bool", bool), ("int", int), ("float", float), ("timestamp", timestamp),
      ("str", str), ("seq", seq), ("map", map), ("merge", merge), ("value", default)]
  match standard.find? fun p => "tag:yaml.org,2002:" ++ p.1 == name with
  | some p => p.2
  | none => other name

end Tag

/-- The three usual spellings of a word: lower case, capitalised, upper case. -/
def spellings (w : String) : List String :=
  let upper := w.toList.map Char.toUpper
  [w, String.ofList (upper.take 1 ++ w.toList.drop 1), String.ofList upper]

/-- The words for truth and for falsehood. -/
def truthWords : List (String × Bool) :=
  [("yes", true), ("no", false), ("true", true), ("false", false), ("on", true), ("off", false)]

/-- What is left after a sign, if there is one. -/
def afterSign : List Char → List Char
  | '-' :: cs => cs
  | '+' :: cs => cs
  | cs => cs

def isDigitOrUnderscore (c : Char) : Bool := c.isDigit || c = '_'

/-- The text is a mark followed by one character or more that all satisfy `p`. -/
def isMarked (mark : List Char) (p : Char → Bool) (cs : List Char) : Bool :=
  mark.isPrefixOf cs && !(cs.drop mark.length).isEmpty && (cs.drop mark.length).all p

/-- A number in base 60 after its first part: each further part is below 60. -/
def isSexagesimalTail (parts : List (List Char)) : Bool :=
  !parts.isEmpty && parts.all fun p =>
    match p with
    | [d] => d.isDigit
    | [d, e] => '0' ≤ d && d ≤ '5' && e.isDigit
    | _ => false

/-- The scalar is spelled like a whole number: binary, octal, decimal, hexadecimal or base 60. -/
def isIntSpelling (text : List Char) : Bool :=
  let cs := afterSign text
  let parts := splitAt ':' cs
  let startsDecimal (p : List Char) : Bool := match p with
    | c :: ds => c.isDigit && c != '0' && ds.all isDigitOrUnderscore
    | [] => false
  isMarked ['0', 'b'] (fun c => c = '0' || c = '1' || c = '_') cs ||
    isMarked ['0'] (fun c => ('0' ≤ c && c ≤ '7') || c = '_') cs ||
    cs == ['0'] || startsDecimal cs ||
    isMarked ['0', 'x'] (fun c => c.isDigit || ('a' ≤ c && c ≤ 'f') || ('A' ≤ c && c ≤ 'F') ||
      c = '_') cs ||
    (startsDecimal (parts.headD []) && isSexagesimalTail (parts.drop 1))

/-- An exponent with its mark and sign. -/
def isExponent : List Char → Bool
  | m :: s :: ds => (m = 'e' || m = 'E') && (s = '+' || s = '-') && !ds.isEmpty && ds.all Char.isDigit
  | _ => false

/-- What may come after the point of a number. -/
def isFraction (cs : List Char) : Bool :=
  let rest := cs.dropWhile isDigitOrUnderscore
  rest.isEmpty || isExponent rest

/-- The text is a digit followed by digits and underscores. -/
def startsDigits : List Char → Bool
  | c :: cs => c.isDigit && cs.all isDigitOrUnderscore
  | [] => false

/-- The scalar is spelled like a number with a point, in base 10 or 60, or like a special number. -/
def isFloatSpelling (text : List Char) : Bool :=
  let cs := afterSign text
  let whole := cs.takeWhile (· != '.')
  let parts := splitAt ':' whole
  match cs.dropWhile (· != '.') with
  | [] => false
  | _ :: after =>
    (startsDigits whole && isFraction after) ||
      (text.head? == some '.' && after.head?.any Char.isDigit && isFraction after) ||
      (startsDigits (parts.headD []) && isSexagesimalTail (parts.drop 1) &&
        after.all isDigitOrUnderscore) ||
      (whole.isEmpty && (spellings "inf").contains (String.ofList after)) ||
      (text.head? == some '.' && ["nan", "NaN", "NAN"].contains (String.ofList after))

/-- At most two digits, and what comes after them. -/
def twoDigits (cs : List Char) : List Char × List Char :=
  let ds := (cs.take 2).takeWhile Char.isDigit
  (ds, cs.drop ds.length)

def number (ds : List Char) : Nat := ds.foldl (fun n d => 10 * n + (d.toNat - '0'.toNat)) 0

/-- A day and what comes after it, with the digits of month and day. -/
def day? (cs : List Char) : Option (Day × Bool × List Char) :=
  let y := cs.take 4
  match cs.drop 4 with
  | '-' :: cs =>
    let m := twoDigits cs
    match m.2 with
    | '-' :: cs =>
      let d := twoDigits cs
      if y.length = 4 && y.all Char.isDigit && !m.1.isEmpty && !d.1.isEmpty then
        some (⟨number y, number m.1, number d.1⟩, m.1.length = 2 && d.1.length = 2, d.2)
      else none
    | _ => none
  | _ => none

/-- A distance from universal time, after the spacing in front of it, in seconds. -/
def offset? (cs : List Char) : Option (Option Int) :=
  match cs.dropWhile fun c => c = ' ' || c = '\t' with
  | [] => if cs.isEmpty then some none else none
  | ['Z'] => some (some 0)
  | s :: cs =>
    let h := twoDigits cs
    if (s = '+' || s = '-') && !h.1.isEmpty then
      let signed (n : Nat) : Int := if s = '-' then -(n : Int) else n
      match h.2 with
      | [] => some (some (signed (3600 * number h.1)))
      | ':' :: ms =>
        if ms.length = 2 && ms.all Char.isDigit then
          some (some (signed (3600 * number h.1 + 60 * number ms)))
        else none
      | _ => none
    else none

/-- Six digits of a fraction, as millionths. -/
def micros (ds : List Char) : Nat :=
  number ((ds ++ List.replicate 6 '0').take 6)

/-- A time of a day, after the mark or spacing in front of it. -/
def moment? (d : Day) (cs : List Char) : Option Moment :=
  let h := twoDigits cs
  match h.2 with
  | ':' :: m₁ :: m₂ :: ':' :: s₁ :: s₂ :: cs =>
    if !h.1.isEmpty && [m₁, m₂, s₁, s₂].all Char.isDigit then
      let fraction := match cs with
        | '.' :: cs => (cs.takeWhile Char.isDigit, cs.dropWhile Char.isDigit)
        | cs => ([], cs)
      (offset? fraction.2).map fun o =>
        ⟨d, number h.1, number [m₁, m₂], number [s₁, s₂], micros fraction.1, o⟩
    else none
  | _ => none

/-- A day or a moment by its spelling; neither need exist. -/
def timestamp? (cs : List Char) : Option (Day × Option Moment) :=
  match day? cs with
  | none => none
  | some (d, _, []) => some (d, none)
  | some (d, _, c :: cs) =>
    if c = 'T' || c = 't' then (moment? d cs).map fun m => (d, some m)
    else if c = ' ' || c = '\t' then
      (moment? d (cs.dropWhile fun c => c = ' ' || c = '\t')).map fun m => (d, some m)
    else none

/-- The scalar is spelled like a day, in full, or like a moment. -/
def isTimestampSpelling (cs : List Char) : Bool :=
  match timestamp? cs with
  | some (_, some _) => true
  | some (_, none) => (day? cs).any fun r => r.2.1
  | none => false

/-- The text without a line feed at its end. -/
def withoutFinalFeed (cs : List Char) : List Char :=
  if cs.getLast? == some '\n' then cs.dropLast else cs

/-- The type that a single mark gives; it has no values. -/
def indicatorTag : Tag := .other "tag:yaml.org,2002:yaml"

/-- The type of a scalar that is not empty, by its spelling. -/
def spelledTag (cs : List Char) : Tag :=
  let s := String.ofList cs
  if (truthWords.flatMap fun w => spellings w.1).contains s then .bool
  else if isFloatSpelling cs then .float
  else if isIntSpelling cs then .int
  else if s = "<<" then .merge
  else if s = "~" || (spellings "null").contains s then .null
  else if isTimestampSpelling cs then .timestamp
  else if s = "=" then .default
  else if ["!", "&", "*"].contains s then indicatorTag
  else .str

/-- The type of a plain scalar. A line feed at its end does not count. -/
def plainTag (s : String) : Tag :=
  if s = "" then .null else spelledTag (withoutFinalFeed s.toList)

end RefSite.Yaml
