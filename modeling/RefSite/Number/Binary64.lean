/-! Binary floating-point numbers of 64 bits: their exact values, and the nearest one to a given
ratio of whole numbers. All arithmetic is exact and rounds once, a half going to the even side. -/
namespace RefSite

structure Binary64 where
  bits : UInt64
  deriving DecidableEq, Repr, Inhabited

namespace Binary64

/-- What the bits stand for; a finite number is `± m * 2 ^ q`. -/
inductive Meaning where
  | nan
  | infinite (negative : Bool)
  | finite (negative : Bool) (m : Nat) (q : Int)
  deriving DecidableEq, Repr

def twoTo (k : Nat) : Nat := Nat.pow 2 k

def tenTo (k : Nat) : Nat := Nat.pow 10 k

/-- The exponent of the least positive number. -/
def leastExponent : Int := -1074

/-- The number of bits after the leading one. -/
def fractionBits : Nat := 52

def meaning (x : Binary64) : Meaning :=
  let n := x.bits.toNat
  let negative := twoTo 63 ≤ n
  let exponent : Nat := n / twoTo fractionBits % twoTo 11
  let fraction : Nat := n % twoTo fractionBits
  if exponent = 2047 then (if fraction = 0 then .infinite negative else .nan)
  else if exponent = 0 then .finite negative fraction leastExponent
  else .finite negative (twoTo fractionBits + fraction) (leastExponent + (exponent - 1 : Nat))

/-- The bits with the given sign and magnitude. -/
def ofMagnitude (negative : Bool) (n : Nat) : Binary64 :=
  ⟨UInt64.ofNat (if negative then twoTo 63 + n else n)⟩

def infinityBits : Nat := 2047 * twoTo fractionBits

def nan : Binary64 := ofMagnitude false (infinityBits + twoTo 51)

def infinity (negative : Bool) : Binary64 := ofMagnitude negative infinityBits

def zero (negative : Bool) : Binary64 := ofMagnitude negative 0

/-- The whole number nearest to `num / den`, a half going to the even side. -/
def roundDiv (num den : Nat) : Nat :=
  let q := num / den
  let r := num % den
  if 2 * r < den then q
  else if den < 2 * r then q + 1
  else if q % 2 = 0 then q else q + 1

/-- `num * 2 ^ k / den` as a ratio of whole numbers. -/
def scaled (num den : Nat) (k : Int) : Nat × Nat :=
  if 0 ≤ k then (num * twoTo k.toNat, den) else (num, den * twoTo (-k).toNat)

/-- The greatest `e` with `2 ^ e ≤ num / den`, for positive `num` and `den`. -/
def floorLog2 (num den : Nat) : Int :=
  let e : Int := (num.log2 : Int) - (den.log2 : Int)
  let s := scaled num den (-e)
  if s.2 ≤ s.1 then e else e - 1

/-- The magnitude bits of `m * 2 ^ q`, where `m` is at most `2 ^ 53`. -/
def packed (m : Nat) (q : Int) : Nat :=
  if m < twoTo fractionBits then m
  else min infinityBits ((q - leastExponent).toNat * twoTo fractionBits + m)

/-- The number nearest to `± num / den`. -/
def ofRatio (negative : Bool) (num den : Nat) : Binary64 :=
  if num = 0 then zero negative
  else
    let q := max (floorLog2 num den - fractionBits) leastExponent
    let s := scaled num den (-q)
    ofMagnitude negative (packed (roundDiv s.1 s.2) q)

/-- The number nearest to `± m * 2 ^ q`. -/
def ofDyadic (negative : Bool) (m : Nat) (q : Int) : Binary64 :=
  let s := scaled m 1 q
  ofRatio negative s.1 s.2

/-- A decimal whose leading digit is beyond this exponent is infinite or zero. -/
def decimalLimit : Int := 400

/-- The number nearest to `± digits * 10 ^ e`. -/
def ofDecimal (negative : Bool) (digits : Nat) (e : Int) : Binary64 :=
  let top := ((Nat.toDigits 10 digits).length : Int) + e
  if digits = 0 then zero negative
  else if decimalLimit < top then infinity negative
  else if top < -decimalLimit then zero negative
  else if 0 ≤ e then ofRatio negative (digits * tenTo e.toNat) 1
  else ofRatio negative digits (tenTo (-e).toNat)

def ofNat (n : Nat) : Binary64 := ofRatio false n 1

def negate (x : Binary64) : Binary64 := ⟨x.bits ^^^ 0x8000000000000000⟩

/-- Neither sign of zero counts as a value. -/
def isZero (x : Binary64) : Bool :=
  match x.meaning with
  | .finite _ 0 _ => true
  | _ => false

def isNaN (x : Binary64) : Bool := x.meaning = .nan

def mul (x y : Binary64) : Binary64 :=
  match x.meaning, y.meaning with
  | .nan, _ => nan
  | _, .nan => nan
  | .infinite s, .infinite t => infinity (s != t)
  | .infinite s, .finite t n _ => if n = 0 then nan else infinity (s != t)
  | .finite s m _, .infinite t => if m = 0 then nan else infinity (s != t)
  | .finite s m q, .finite t n r => ofDyadic (s != t) (m * n) (q + r)

/-- A whole number with a sign of its own. -/
def signed (negative : Bool) (n : Nat) : Int := if negative then -n else n

/-- The sum of two numbers. Only two negative zeros have a negative zero for their sum. -/
def add (x y : Binary64) : Binary64 :=
  match x.meaning, y.meaning with
  | .nan, _ => nan
  | _, .nan => nan
  | .infinite s, .infinite t => if s = t then infinity s else nan
  | .infinite s, .finite _ _ _ => infinity s
  | .finite _ _ _, .infinite t => infinity t
  | .finite s m q, .finite t n r =>
    let low := min q r
    let sum := signed s (m * twoTo (q - low).toNat) + signed t (n * twoTo (r - low).toNat)
    if sum = 0 then zero (s && t) else ofDyadic (decide (sum < 0)) sum.natAbs low

/-- The number nearest to a natural number; none if that is infinite. -/
def ofNat? (n : Nat) : Option Binary64 :=
  let x := ofNat n
  if x = infinity false then none else some x

/-- The number cut toward zero; none for infinities and for what is no number. -/
def truncate? (x : Binary64) : Option Int :=
  match x.meaning with
  | .finite negative m q =>
    let s := scaled m 1 q
    let n : Int := (s.1 / s.2 : Nat)
    some (if negative then -n else n)
  | _ => none

/-- The number is exactly the given whole number. -/
def equalsInt (x : Binary64) (n : Int) : Bool :=
  match x.meaning with
  | .finite negative m q =>
    let s := scaled m 1 q
    s.1 == n.natAbs * s.2 && (m == 0 || negative == decide (n < 0))
  | _ => false

/-- Numeric equality: both zeros are equal, and what is no number equals nothing. -/
def sameNumber (x y : Binary64) : Bool :=
  !x.isNaN && !y.isNaN && (x == y || (x.isZero && y.isZero))

end Binary64

end RefSite
