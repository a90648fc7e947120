import RefSite.Proofs.Value.Numbers

namespace RefSite.Binary64

variable {x y : Binary64} {s t : Bool} {m n j k : ℕ} {q r : ℤ}

/-- How a finite number lies in its bits. Those after the sign count `k` times all mantissas of 52
bits and then on to `m`, and a number is normal unless its exponent is the least one. -/
structure IsPacked (x : Binary64) (s : Bool) (m k : ℕ) : Prop where
  bits : x.bits.toNat = (if s then 2 ^ 63 else 0) + (k * 2 ^ 52 + m)
  lt : m < 2 ^ 53
  normal : 2 ^ 52 ≤ m ∨ k = 0

/-- What the bits of a number stand for, by its sign, exponent and fraction. -/
theorem meaning_eq (x : Binary64) :
    x.meaning =
      if x.bits.toNat / 2 ^ 52 % 2 ^ 11 = 2047 then
        if x.bits.toNat % 2 ^ 52 = 0 then .infinite (2 ^ 63 ≤ x.bits.toNat) else .nan
      else if x.bits.toNat / 2 ^ 52 % 2 ^ 11 = 0 then
        .finite (2 ^ 63 ≤ x.bits.toNat) (x.bits.toNat % 2 ^ 52) leastExponent
      else
        .finite (2 ^ 63 ≤ x.bits.toNat) (2 ^ 52 + x.bits.toNat % 2 ^ 52)
          (leastExponent + (x.bits.toNat / 2 ^ 52 % 2 ^ 11 - 1 : ℕ)) := rfl

theorem isPacked_of_finite (h : x.meaning = .finite s m q) :
    ∃ k : ℕ, q = leastExponent + k ∧ x.IsPacked s m k := by
  have hlt : x.bits.toNat < 2 ^ 64 := x.bits.toNat_lt
  rw [meaning_eq] at h
  split at h
  · split at h <;> exact nomatch h
  · split at h
    · next hzero =>
      simp only [Meaning.finite.injEq] at h
      obtain ⟨rfl, rfl, rfl⟩ := h
      refine ⟨0, by simp, ?_, by omega, .inr rfl⟩
      simp only [decide_eq_true_eq]
      split <;> omega
    · next hpos =>
      simp only [Meaning.finite.injEq] at h
      obtain ⟨rfl, rfl, rfl⟩ := h
      refine ⟨_, rfl, ?_, by omega, .inl (by omega)⟩
      simp only [decide_eq_true_eq]
      split <;> omega

theorem bits_of_infinite (h : x.meaning = .infinite s) :
    x.bits.toNat = (if s then 2 ^ 63 else 0) + 2047 * 2 ^ 52 := by
  have hlt : x.bits.toNat < 2 ^ 64 := x.bits.toNat_lt
  rw [meaning_eq] at h
  split at h
  · split at h
    · simp only [Meaning.infinite.injEq] at h
      subst h
      simp only [decide_eq_true_eq]
      split <;> omega
    · exact nomatch h
  · split at h <;> exact nomatch h

theorem eq_of_bits (h : x.bits.toNat = y.bits.toNat) : x = y := by
  obtain ⟨a⟩ := x
  obtain ⟨b⟩ := y
  exact congrArg mk (UInt64.toNat_inj.1 h)

/-- Mantissas of 53 bits that are normal say how far they are shifted. -/
theorem mantissa_unique (hm : m < 2 ^ 53) (hn : 2 ^ 52 ≤ n ∨ k = 0) (hjk : j ≤ k)
    (h : m * 2 ^ j = n * 2 ^ k) : m = n ∧ j = k := by
  obtain ⟨d, rfl⟩ := Nat.exists_eq_add_of_le hjk
  have hshift : m = n * 2 ^ d := by
    have hpow : 0 < 2 ^ j := Nat.two_pow_pos j
    apply Nat.eq_of_mul_eq_mul_right hpow
    rw [h, Nat.pow_add]
    ring
  cases d with
  | zero => exact ⟨by simpa using hshift, rfl⟩
  | succ d =>
    -- shifted once more, a normal mantissa would have more than 53 bits
    have hnormal : 2 ^ 52 ≤ n := hn.resolve_right (by omega)
    have hd : 1 ≤ 2 ^ d := Nat.one_le_two_pow
    have hbig : 2 ^ 52 * (1 * 2) ≤ n * (2 ^ d * 2) :=
      Nat.mul_le_mul hnormal (Nat.mul_le_mul_right 2 hd)
    rw [Nat.pow_succ] at hshift
    omega

theorem IsPacked.eq (hx : x.IsPacked s m j) (hy : y.IsPacked s n k)
    (h : m * 2 ^ j = n * 2 ^ k) : x = y := by
  have hparts : m = n ∧ j = k := by
    rcases le_total j k with hjk | hkj
    · exact mantissa_unique hx.lt hy.normal hjk h
    · obtain ⟨hm, hj⟩ := mantissa_unique hy.lt hx.normal hkj h.symm
      exact ⟨hm.symm, hj.symm⟩
  obtain ⟨rfl, rfl⟩ := hparts
  apply eq_of_bits
  rw [hx.bits, hy.bits]

/-- Finite numbers of one sign that have the same magnitude are the same. -/
theorem eq_of_magnitude (hx : x.meaning = .finite s m q) (hy : y.meaning = .finite s n r)
    (h : (m : ℚ) * 2 ^ q = n * 2 ^ r) : x = y := by
  obtain ⟨j, rfl, hpx⟩ := isPacked_of_finite hx
  obtain ⟨k, rfl, hpy⟩ := isPacked_of_finite hy
  have htwo : (2 : ℚ) ≠ 0 := two_ne_zero
  have hleast : (2 : ℚ) ^ leastExponent ≠ 0 := zpow_ne_zero _ htwo
  have hscaled : (m : ℚ) * 2 ^ j = n * 2 ^ k := by
    apply mul_left_cancel₀ hleast
    calc (2 : ℚ) ^ leastExponent * (m * 2 ^ j)
        = m * 2 ^ (leastExponent + j) := by rw [zpow_add₀ htwo, zpow_natCast]; ring
      _ = n * 2 ^ (leastExponent + k) := h
      _ = (2 : ℚ) ^ leastExponent * (n * 2 ^ k) := by rw [zpow_add₀ htwo, zpow_natCast]; ring
  apply hpx.eq hpy
  exact_mod_cast hscaled

/-- A fraction or an infinity. -/
inductive Amount where
  | number (a : ℚ)
  | infinity (negative : Bool)

def amount? (x : Binary64) : Option Amount :=
  match x.meaning with
  | .infinite s => some (.infinity s)
  | _ => x.ratio?.map .number

theorem amount_of_finite (h : x.meaning = .finite s m q) :
    x.amount? = some (.number ((if s then -1 else 1) * (m * 2 ^ q))) := by
  simp only [amount?, ratio?, h, Option.map_some]

theorem amount_eq_number_iff {a : ℚ} : x.amount? = some (.number a) ↔
    ∃ s m q, x.meaning = .finite s m q ∧ a = (if s then -1 else 1) * (m * 2 ^ q : ℚ) := by
  unfold amount? ratio?
  cases x.meaning with
  | nan => simp
  | infinite s => simp
  | finite s m q => simp [eq_comm]

theorem amount_eq_infinity_iff : x.amount? = some (.infinity s) ↔ x.meaning = .infinite s := by
  unfold amount? ratio?
  cases x.meaning with
  | nan => simp
  | infinite t => simp
  | finite t m q => simp

theorem isNaN_iff : x.isNaN = true ↔ x.amount? = none := by
  unfold isNaN amount? ratio?
  cases x.meaning with
  | nan => simp
  | infinite t => simp
  | finite t m q => simp

theorem isZero_iff : x.isZero = true ↔ x.amount? = some (.number 0) := by
  have hpow (q : ℤ) : (2 : ℚ) ^ q ≠ 0 := zpow_ne_zero q two_ne_zero
  rw [amount_eq_number_iff, isZero]
  constructor
  · intro h
    split at h
    · next s q hx => exact ⟨s, 0, q, hx, by simp⟩
    · exact nomatch h
  · rintro ⟨s, m, q, hx, h⟩
    have hm : m = 0 := by cases s <;> simpa [hpow] using h.symm
    subst hm
    simp only [hx]

/-- A magnitude with a sign is a number exactly if it is its absolute value and has its sign, where
zero may have both. -/
theorem signed_eq_iff {a b : ℚ} (ha : 0 ≤ a) :
    (a = |b| ∧ (a = 0 ∨ s = decide (b < 0))) ↔ (if s then -1 else 1) * a = b := by
  constructor
  · rintro ⟨rfl, hzero | rfl⟩
    · rw [hzero, mul_zero, abs_eq_zero.1 hzero]
    · by_cases hb : b < 0
      · simp [hb, abs_of_neg hb]
      · simp [hb, abs_of_nonneg (not_lt.1 hb)]
  · rintro rfl
    cases s with
    | false => simpa [abs_of_nonneg ha] using .inr ha
    | true =>
      refine ⟨by simp [abs_of_nonneg ha], ?_⟩
      rcases ha.eq_or_lt with hzero | hpos
      · exact .inl hzero.symm
      · exact .inr (by simpa using hpos)

/-- Finite numbers that are the same fraction are the same, but for the sign of zero. -/
theorem eq_or_isZero_of_number {a : ℚ} (hx : x.amount? = some (.number a))
    (hy : y.amount? = some (.number a)) : x = y ∨ x.isZero = true ∧ y.isZero = true := by
  by_cases ha : a = 0
  · subst ha
    exact .inr ⟨isZero_iff.2 hx, isZero_iff.2 hy⟩
  · left
    obtain ⟨s, m, q, hmx, hax⟩ := amount_eq_number_iff.1 hx
    obtain ⟨t, n, r, hmy, hay⟩ := amount_eq_number_iff.1 hy
    have hm : (0 : ℚ) ≤ m * 2 ^ q := by positivity
    have hn : (0 : ℚ) ≤ n * 2 ^ r := by positivity
    obtain ⟨hmabs, hs⟩ := (signed_eq_iff hm).2 hax.symm
    obtain ⟨hnabs, ht⟩ := (signed_eq_iff hn).2 hay.symm
    have habs : |a| ≠ 0 := abs_ne_zero.2 ha
    have hst : s = t := by
      rw [hs.resolve_left (hmabs ▸ habs), ht.resolve_left (hnabs ▸ habs)]
    subst hst
    exact eq_of_magnitude hmx hmy (hmabs.trans hnabs.symm)

theorem sameNumber_iff : x.sameNumber y = true ↔ ∃ a, x.amount? = some a ∧ y.amount? = some a := by
  simp only [sameNumber, Bool.and_eq_true, Bool.or_eq_true, Bool.not_eq_true', beq_iff_eq,
    ← Bool.not_eq_true, isNaN_iff, Option.ne_none_iff_exists']
  constructor
  · rintro ⟨⟨⟨a, hx⟩, -⟩, rfl | ⟨hzx, hzy⟩⟩
    · exact ⟨a, hx, hx⟩
    · exact ⟨_, isZero_iff.1 hzx, isZero_iff.1 hzy⟩
  · rintro ⟨a, hx, hy⟩
    refine ⟨⟨⟨a, hx⟩, a, hy⟩, ?_⟩
    cases a with
    | number a => exact eq_or_isZero_of_number hx hy
    | infinity s =>
      left
      apply eq_of_bits
      rw [bits_of_infinite (amount_eq_infinity_iff.1 hx),
        bits_of_infinite (amount_eq_infinity_iff.1 hy)]

theorem scaled_pos (m : ℕ) (q : ℤ) : 0 < (scaled m 1 q).2 := by
  unfold scaled
  split
  · exact Nat.one_pos
  · rw [Nat.one_mul]
    exact Nat.two_pow_pos _

theorem equalsInt_iff {z : ℤ} : x.equalsInt z = true ↔ x.amount? = some (.number z) := by
  unfold equalsInt
  split
  · next s m q hx =>
    have hpow : (2 : ℚ) ^ q ≠ 0 := zpow_ne_zero q two_ne_zero
    have hnonneg : (0 : ℚ) ≤ m * 2 ^ q := by positivity
    have hden : ((scaled m 1 q).2 : ℚ) ≠ 0 := by exact_mod_cast (scaled_pos m q).ne'
    -- the magnitudes are compared as whole numbers, and then the signs unless both are zero
    have hmagnitude : (scaled m 1 q).1 = z.natAbs * (scaled m 1 q).2 ↔
        (m : ℚ) * 2 ^ q = |(z : ℚ)| := by
      rw [← cast_scaled, div_eq_iff hden, ← Int.cast_abs, ← Nat.cast_natAbs]
      norm_cast
    have hzero : m = 0 ↔ (m : ℚ) * 2 ^ q = 0 := by simp [hpow]
    rw [amount_of_finite hx, Option.some.injEq, Amount.number.injEq]
    simp only [Bool.and_eq_true, Bool.or_eq_true, beq_iff_eq, hmagnitude, hzero]
    have hneg : decide (z < 0) = decide ((z : ℚ) < 0) := by simp
    rw [hneg]
    exact signed_eq_iff hnonneg
  · next hx =>
    simp only [Bool.false_eq_true, false_iff]
    intro h
    obtain ⟨s, m, q, hm, -⟩ := amount_eq_number_iff.1 h
    exact hx s m q hm

end RefSite.Binary64
