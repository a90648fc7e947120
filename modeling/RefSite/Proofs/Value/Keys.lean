import RefSite.Proofs.Number.Equality

namespace RefSite.Value

/-- What a value is as a key. -/
inductive KeyForm where
  | null
  | text (s : String)
  | day (d : Day)
  | instant (known : Bool) (seconds : ℤ) (micro : ℕ)
  | amount (a : Binary64.Amount)

/-- What a value is as a key. Collections are no keys, and neither is a float that is no number. -/
def keyForm? : Value → Option KeyForm
  | null => some .null
  | text s => some (.text s)
  | day d => some (.day d)
  | moment t => some (.instant t.offset.isSome t.seconds t.micro)
  | float x => x.amount?.map .amount
  | v => v.asInt?.map fun n => .amount (.number n)

variable {v w u : Value}

/-- Two values are the same key exactly if they are keys of one form. -/
theorem sameKey_iff : v.sameKey w = true ↔ ∃ f, v.keyForm? = some f ∧ w.keyForm? = some f := by
  have hswap : (∃ f, v.keyForm? = some f ∧ w.keyForm? = some f) ↔
      ∃ f, w.keyForm? = some f ∧ v.keyForm? = some f := exists_congr fun f => and_comm
  rw [hswap]
  -- one case for each pair of kinds; only two floats need more than their definitions
  cases v <;> cases w <;>
    simp [sameKey, keyForm?, asInt?, Moment.sameInstant, Binary64.equalsInt_iff,
      Binary64.sameNumber_iff, and_assoc, -Int.cast_ite]
  exact exists_congr fun a => and_comm

theorem sameKey_comm (v w : Value) : v.sameKey w = w.sameKey v := by
  rw [Bool.eq_iff_iff, sameKey_iff, sameKey_iff]
  exact exists_congr fun f => and_comm

theorem sameKey_trans (h : u.sameKey v = true) (h' : v.sameKey w = true) :
    u.sameKey w = true := by
  obtain ⟨f, hu, hv⟩ := sameKey_iff.1 h
  obtain ⟨g, hv', hw⟩ := sameKey_iff.1 h'
  obtain rfl : f = g := Option.some.inj (hv.symm.trans hv')
  exact sameKey_iff.2 ⟨f, hu, hw⟩

/-- Whatever is the same key as one of two values that are the same key is so as the other. -/
theorem sameKey_congr (h : u.sameKey v = true) (w : Value) : w.sameKey u = w.sameKey v := by
  rw [Bool.eq_iff_iff]
  constructor
  · intro hw
    exact sameKey_trans hw h
  · intro hw
    rw [sameKey_comm] at h
    exact sameKey_trans hw h

end RefSite.Value
