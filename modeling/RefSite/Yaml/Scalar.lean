import RefSite.Text.LowerCase
import RefSite.Value.Elements
import RefSite.Yaml.Schema

namespace RefSite.Yaml

def withoutUnderscores (s : String) : List Char := s.toList.filter (· != '_')

/-- The digits of a number in a base of up to 16, if that is what they are. -/
def baseDigits? (base : Nat) (cs : List Char) : Option (List Nat) :=
  let digit? (c : Char) : Option Nat :=
    let d? := match Text.digitValue? c with
      | some d => some d
      | none =>
        if 'a' ≤ c && c ≤ 'f' then some (c.toNat - 'a'.toNat + 10)
        else if 'A' ≤ c && c ≤ 'F' then some (c.toNat - 'A'.toNat + 10)
        else none
    d?.bind fun d => if d < base then some d else none
  if cs.isEmpty then none else cs.mapM digit?

/-- The number without a mark of its base, which may be given a second time. -/
def withoutBaseMark (base : Nat) (cs : List Char) : List Char :=
  let marks : List Char := if base = 2 then ['b', 'B'] else if base = 8 then ['o', 'O'] else ['x', 'X']
  match cs with
  | '0' :: c :: ds => if marks.contains c then ds else cs
  | cs => cs

/-- The whole number that a text spells in base 2, 8 or 16, with blanks and a sign around it. -/
def intInBase? (base : Nat) (cs : List Char) : Option Int :=
  let cs := Text.trimBoth Text.isNumberBlank cs
  let n? := (baseDigits? base (withoutBaseMark base (afterSign cs))).map (Text.ofDigits base)
  n?.map fun n => if cs.head? == some '-' then -(n : Int) else n

/-- Parts of a number in base 60, the most significant first. -/
def sexagesimal (parts : List Int) : Int := parts.foldl (fun n d => 60 * n + d) 0

/-- The result, or the fault of a scalar that spells no number. -/
def orImpossible {α : Type} : Option α → Except Failure α
  | some a => .ok a
  | none => .error .impossibleScalar

/-- A whole number without its sign. -/
def unsignedInt (cs : List Char) : Except Failure Int :=
  match cs with
  | [] => .error .emptyNumber
  | ['0'] => .ok 0
  | '0' :: 'b' :: ds => orImpossible (intInBase? 2 ds)
  | '0' :: 'x' :: ds => orImpossible (intInBase? 16 ds)
  | '0' :: _ => orImpossible (intInBase? 8 cs)
  | cs =>
    if cs.contains ':' then
      let parts := (splitAt ':' cs).map fun p => Text.int? (String.ofList p)
      orImpossible ((parts.mapM id).map sexagesimal)
    else orImpossible (Text.int? (String.ofList cs))

def intScalar (s : String) : Except Failure Int :=
  let cs := withoutUnderscores s
  (unsignedInt (afterSign cs)).map fun n => if cs.head? == some '-' then -n else n

/-- The text with ASCII digits for those of other scripts, and without blanks around it. -/
def plainDigits (cs : List Char) : String :=
  String.ofList ((Text.trimBoth Text.isNumberBlank cs).map fun c =>
    match Text.digitValue? c with
    | some d => Char.ofNat ('0'.toNat + d)
    | none => c)

/-- A sum in base 60 with its least significant part first, rounded after every step. The weight of
every part has to be a finite number. -/
def sexagesimalSum (base : Nat) (sum : Binary64) : List Binary64 → Except Failure Binary64
  | [] => .ok sum
  | d :: ds =>
    match Binary64.ofNat? base with
    | some weight => sexagesimalSum (base * 60) (sum.add (d.mul weight)) ds
    | none => .error .numberTooLarge

/-- The spelling of the one value that is no number. -/
def nanSpelling : List Char := ".nan".toList

def unsignedFloat (cs : List Char) : Except Failure Binary64 :=
  if cs = ".inf".toList then .ok (Binary64.infinity false)
  else if cs = nanSpelling then .ok Binary64.nan
  else if cs.contains ':' then
    match (splitAt ':' cs).mapM fun p => Binary64.read? (plainDigits p) with
    | some ds => sexagesimalSum 1 (Binary64.zero false) ds.reverse
    | none => .error .impossibleScalar
  else orImpossible (Binary64.read? (plainDigits cs))

/-- The characters of a number with a point that count. -/
def floatChars (s : String) : List Char := (Text.lower (String.ofList (withoutUnderscores s))).toList

def floatScalar (s : String) : Except Failure Binary64 :=
  let cs := floatChars s
  match cs with
  | [] => .error .emptyNumber
  | c :: _ => (unsignedFloat (afterSign cs)).map fun x => if c = '-' then x.negate else x

/-- The scalar stands for the one value that is no number, and not for another such value. -/
def isSharedNaN (s : String) : Bool := afterSign (floatChars s) == nanSpelling

/-- A day or a moment, which has to exist. A line feed after it does not count. -/
def timestampScalar (s : String) : Except Failure Value :=
  match timestamp? (withoutFinalFeed s.toList) with
  | some (d, none) => if d.exists? then .ok (.day d) else .error .impossibleScalar
  | some (_, some m) => if m.exists? then .ok (.moment m) else .error .impossibleScalar
  | none => .error .notTime

def scalarValue (tag : Tag) (s : String) : Except Failure Value :=
  match tag with
  | .null => .ok .null
  | .bool =>
    match truthWords.lookup (Text.lower s) with
    | some b => .ok (.bool b)
    | none => .error .unknownTruthValue
  | .int => (intScalar s).map .int
  | .float => (floatScalar s).map .float
  | .timestamp => timestampScalar s
  | .str => .ok (.text s)
  | _ => .error .malformed

end RefSite.Yaml
