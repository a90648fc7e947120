import Mathlib
import RefSite.Value.Text

namespace RefSite

namespace Binary64

/-- The number that a finite one is exactly. -/
def ratio? (x : Binary64) : Option ℚ :=
  match x.meaning with
  | .finite negative m q => some ((if negative then -1 else 1) * (m * 2 ^ q))
  | _ => none

/-- A power of two times a whole number is the ratio that it is scaled to. -/
theorem cast_scaled (m : ℕ) (q : ℤ) :
    ((scaled m 1 q).1 : ℚ) / ((scaled m 1 q).2 : ℚ) = m * 2 ^ q := by
  have hpower (n : ℕ) : (twoTo n : ℚ) = 2 ^ n := by
    rw [twoTo, Nat.pow_eq, Nat.cast_pow, Nat.cast_ofNat]
  unfold scaled
  split
  · next hq =>
    obtain ⟨n, rfl⟩ := Int.eq_ofNat_of_zero_le hq
    rw [Int.toNat_natCast, Nat.cast_mul, hpower, Nat.cast_one, div_one, zpow_natCast]
  · next hq =>
    obtain ⟨n, hn⟩ := Int.eq_ofNat_of_zero_le (Int.neg_nonneg_of_nonpos (Int.le_of_not_le hq))
    rw [Nat.one_mul, hn, Int.toNat_natCast, hpower, div_eq_mul_inv, ← zpow_natCast, ← zpow_neg,
      ← hn, neg_neg]

theorem truncate_of_ratio {x : Binary64} {r : ℚ} (h : x.ratio? = some r) (hr : 1 ≤ r) :
    x.truncate? = some ⌊r⌋ := by
  unfold ratio? at h
  unfold truncate?
  cases hx : x.meaning with
  | nan =>
    rw [hx] at h
    exact nomatch h
  | infinite _ =>
    rw [hx] at h
    exact nomatch h
  | finite negative m q =>
    rw [hx] at h
    have hpos : (0 : ℚ) ≤ m * 2 ^ q := by positivity
    cases negative with
    | true =>
      have hneg : r = -1 * (m * 2 ^ q) := (Option.some.inj h).symm
      linarith
    | false =>
      -- the whole number is the quotient of the ratio that the number is scaled to
      have hr : r = m * 2 ^ q := by
        rw [← one_mul (m * 2 ^ q : ℚ)]
        exact (Option.some.inj h).symm
      rw [hr, ← cast_scaled, Rat.floor_natCast_div_natCast, ← Int.natCast_div]
      rfl

end Binary64

namespace Value

/-- The number that a value is, where it is a finite one; a truth value counts as 0 or 1. -/
def number? : Value → Option ℚ
  | bool b => some (if b then 1 else 0)
  | int n => some n
  | float x => x.ratio?
  | _ => none

/-- A number of at least one is read as its whole part. -/
theorem toInt_of_number {v : Value} {r : ℚ} (h : v.number? = some r) (hr : 1 ≤ r) :
    v.toInt = .ok ⌊r⌋ := by
  cases v with
  | bool b =>
    obtain rfl := Option.some.inj h
    cases b <;> simp [toInt]
  | int n =>
    obtain rfl := Option.some.inj h
    rw [Int.floor_intCast, toInt]
  | float x =>
    have htruncate := Binary64.truncate_of_ratio h hr
    rw [toInt, htruncate]
  | _ => exact nomatch h

end Value

end RefSite
