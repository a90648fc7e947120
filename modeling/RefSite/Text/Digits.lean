import RefSite.Text.Blank

namespace RefSite.Text

/-- The zero of each run of ten decimal digits in Unicode 14. -/
def digitZeros : List Nat :=
  [0x30, 0x660, 0x6f0, 0x7c0, 0x966, 0x9e6, 0xa66, 0xae6, 0xb66, 0xbe6, 0xc66, 0xce6, 0xd66,
   0xde6, 0xe50, 0xed0, 0xf20, 0x1040, 0x1090, 0x17e0, 0x1810, 0x1946, 0x19d0, 0x1a80, 0x1a90,
   0x1b50, 0x1bb0, 0x1c40, 0x1c50, 0xa620, 0xa8d0, 0xa900, 0xa9d0, 0xa9f0, 0xaa50, 0xabf0,
   0xff10, 0x104a0, 0x10d30, 0x11066, 0x110f0, 0x11136, 0x111d0, 0x112f0, 0x11450, 0x114d0,
   0x11650, 0x116c0, 0x11730, 0x118e0, 0x11950, 0x11c50, 0x11d50, 0x11da0, 0x16a60, 0x16ac0,
   0x16b50, 0x1d7ce, 0x1d7d8, 0x1d7e2, 0x1d7ec, 0x1d7f6, 0x1e140, 0x1e2f0, 0x1e950, 0x1fbf0]

/-- The value of a decimal digit of any script. -/
def digitValue? (c : Char) : Option Nat :=
  (digitZeros.find? fun z => z ≤ c.toNat && c.toNat < z + 10).map (c.toNat - ·)

/-- Blanks that may stand around a number: of ASCII, the space and the five layout controls. -/
def isNumberBlank (c : Char) : Bool :=
  isBlank c && !(0x1c ≤ c.toNat && c.toNat ≤ 0x1f)

/-- The digits that follow a digit, where an underscore must stand between two digits. -/
def digitsAfter (acc : List Nat) : List Char → Option (List Nat)
  | [] => some acc.reverse
  | '_' :: c :: cs => (digitValue? c).bind fun d => digitsAfter (d :: acc) cs
  | c :: cs => (digitValue? c).bind fun d => digitsAfter (d :: acc) cs

def digits? : List Char → Option (List Nat)
  | [] => none
  | c :: cs => (digitValue? c).bind fun d => digitsAfter [d] cs

/-- The number with the given digits. -/
def ofDigits (base : Nat) (ds : List Nat) : Nat := ds.foldl (fun n d => base * n + d) 0

/-- The longest run of digits that is read or written as a number. -/
def digitLimit : Nat := 4300

/-- The unsigned number a text spells, within the limit. -/
def nat? (cs : List Char) : Option Nat :=
  (digits? cs).bind fun ds => if ds.length ≤ digitLimit then some (ofDigits 10 ds) else none

/-- The whole number a text spells: blanks around it, at most one sign, digits. -/
def int? (s : String) : Option Int :=
  match trimBoth isNumberBlank s.toList with
  | '-' :: cs => (nat? cs).map fun n => -(n : Int)
  | '+' :: cs => (nat? cs).map fun n => (n : Int)
  | cs => (nat? cs).map fun n => (n : Int)

example : int? "1_000" = some 1000 ∧ int? "1__0" = none := by decide +kernel

/-- The decimal form of a whole number, within the limit. -/
def ofInt? (n : Int) : Option String :=
  if n.natAbs < Nat.pow 10 digitLimit then some (toString n) else none

end RefSite.Text
