import RefSite.Number.Binary64

namespace RefSite.Binary64

structure Decimal where
  digits : Nat
  e : Int
  deriving DecidableEq, Repr

/-- The bounds of the numbers that round to `m * 2 ^ q`, and the number itself, as multiples of
`2 ^ (q - 2)`. Below a power of two the neighbours are twice as close. -/
def bounds (m : Nat) (q : Int) : Nat × Nat × Nat :=
  let below := if m = twoTo fractionBits ∧ leastExponent < q then 4 * m - 1 else 4 * m - 2
  (below, 4 * m, 4 * m + 2)

/-- `n * 2 ^ k` against `d * 10 ^ e`, as a pair of whole numbers in the same order. -/
def common (n : Nat) (k : Int) (d : Nat) (e : Int) : Nat × Nat :=
  let s := scaled n 1 k
  if 0 ≤ e then (s.1, d * tenTo e.toNat * s.2) else (s.1 * tenTo (-e).toNat, d * s.2)

/-- The decimal rounds to `m * 2 ^ q`; the bounds themselves do when `m` is even. -/
def readsBack (m : Nat) (q : Int) (d : Decimal) : Bool :=
  let b := bounds m q
  let low := common b.1 (q - 2) d.digits d.e
  let high := common b.2.2 (q - 2) d.digits d.e
  if m % 2 = 0 then low.1 ≤ low.2 && high.2 ≤ high.1 else low.1 < low.2 && high.2 < high.1

/-- The greatest `k` with `10 ^ k ≤ m * 2 ^ q`, for positive `m`. -/
def leadingExponent (m : Nat) (q : Int) : Int :=
  let s := scaled m 1 q
  let k : Int := ((Nat.toDigits 10 s.1).length : Int) - ((Nat.toDigits 10 s.2).length : Int)
  let c := common m q 1 k
  if c.2 ≤ c.1 then k else k - 1

/-- The decimals with unit `10 ^ e` next to `m * 2 ^ q`, the nearer one first; of two equally near
the even one is first. -/
def neighbours (m : Nat) (q e : Int) : List Decimal :=
  let c := common m q 1 e
  let d := c.1 / c.2
  let r := c.1 % c.2
  if 2 * r < c.2 ∨ (2 * r = c.2 ∧ d % 2 = 0) then [⟨d, e⟩, ⟨d + 1, e⟩] else [⟨d + 1, e⟩, ⟨d, e⟩]

/-- The decimal with fewest digits that reads back, and of those the nearest. Seventeen digits
always suffice. -/
def shortest (m : Nat) (q : Int) : Decimal :=
  let k := leadingExponent m q
  let grids := (List.range 17).map fun i => k - (i : Nat)
  match (grids.flatMap (neighbours m q)).find? (readsBack m q) with
  | some d => d
  | none => ⟨m, 0⟩

def significant (n : Nat) : List Char :=
  ((Nat.toDigits 10 n).reverse.dropWhile (· == '0')).reverse

def exponentText (e : Int) : List Char :=
  let ds := Nat.toDigits 10 e.natAbs
  (if e < 0 then '-' else '+') :: (if ds.length < 2 then '0' :: ds else ds)

/-- Numbers from `10 ^ -4` and below `10 ^ 16` are written in full and always with a point; others
with one digit before the point and an exponent. -/
def layout (d : Decimal) : List Char :=
  let all := Nat.toDigits 10 d.digits
  let ds := significant d.digits
  let lead : Int := d.e + all.length - 1
  if -4 ≤ lead ∧ lead < 16 then
    if lead < 0 then '0' :: '.' :: List.replicate (-lead - 1).toNat '0' ++ ds
    else
      let whole := lead.toNat + 1
      let before := ds.take whole ++ List.replicate (whole - ds.length) '0'
      let after := ds.drop whole
      before ++ '.' :: (if after.isEmpty then ['0'] else after)
  else
    match ds with
    | [] => ['0', '.', '0']
    | [c] => c :: 'e' :: exponentText lead
    | c :: cs => c :: '.' :: cs ++ 'e' :: exponentText lead

def text (x : Binary64) : String :=
  match x.meaning with
  | .nan => "nan"
  | .infinite negative => if negative then "-inf" else "inf"
  | .finite negative m q =>
    let body := if m = 0 then ['0', '.', '0'] else layout (shortest m q)
    String.ofList (if negative then '-' :: body else body)

/-- The digits in front of the first character that is no digit, and the rest. -/
def leadingDigits (cs : List Char) : List Nat × List Char :=
  ((cs.takeWhile Char.isDigit).map fun c => c.toNat - '0'.toNat, cs.dropWhile Char.isDigit)

/-- An exponent after its mark: at most one sign and at least one digit. -/
def exponent? (cs : List Char) : Option Int :=
  let unsigned (cs : List Char) : Option Int :=
    if cs.isEmpty || !cs.all Char.isDigit then none
    else some ((leadingDigits cs).1.foldl (fun n d => 10 * n + d) 0 : Nat)
  match cs with
  | '-' :: cs => (unsigned cs).map (- ·)
  | '+' :: cs => unsigned cs
  | cs => unsigned cs

/-- An unsigned decimal: digits with at most one point, and an exponent or none. -/
def unsignedDecimal? (negative : Bool) (cs : List Char) : Option Binary64 :=
  let whole := leadingDigits cs
  let fraction := match whole.2 with
    | '.' :: cs => leadingDigits cs
    | cs => ([], cs)
  let ds := whole.1 ++ fraction.1
  let n := ds.foldl (fun n d => 10 * n + d) 0
  if ds.isEmpty then none
  else match fraction.2 with
    | [] => some (ofDecimal negative n (-fraction.1.length))
    | 'e' :: cs => (exponent? cs).map fun e => ofDecimal negative n (e - fraction.1.length)
    | _ => none

/-- The number a text in lower case spells: a sign, then a decimal, `inf`, `infinity` or `nan`. -/
def read? (s : String) : Option Binary64 :=
  let unsigned (negative : Bool) (cs : List Char) : Option Binary64 :=
    if cs = "inf".toList ∨ cs = "infinity".toList then some (infinity negative)
    else if cs = "nan".toList then some nan
    else unsignedDecimal? negative cs
  match s.toList with
  | '-' :: cs => unsigned true cs
  | '+' :: cs => unsigned false cs
  | cs => unsigned false cs

end RefSite.Binary64
