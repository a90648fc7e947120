import RefSite.Proofs.Value.Keys

namespace RefSite.Entries

variable {es fs : Entries} {k l v : Value}

def keys (es : Entries) : List Value := es.map Prod.fst

/-- The keys are those of a mapping. Each can be a key, which neither a collection can nor a float
that is no number, and no two are the same. -/
structure HasKeys (es : Entries) : Prop where
  areKeys : ∀ k ∈ keys es, k.sameKey k = true
  distinct : (keys es).Pairwise fun k l => k.sameKey l = false

instance (es : Entries) : Decidable (HasKeys es) :=
  decidable_of_iff
    ((∀ k ∈ keys es, k.sameKey k = true) ∧ (keys es).Pairwise fun k l => k.sameKey l = false)
    ⟨fun h => ⟨h.1, h.2⟩, fun h => ⟨h.areKeys, h.distinct⟩⟩

theorem hasKeys_nil : HasKeys [] := by decide

theorem HasKeys.tail {e : Value × Value} (h : HasKeys (e :: es)) : HasKeys es :=
  ⟨fun k hk => h.areKeys k (List.mem_cons_of_mem _ hk), (List.pairwise_cons.1 h.distinct).2⟩

theorem find_cons (k v : Value) (es : Entries) (l : Value) :
    find? ((k, v) :: es) l = if k.sameKey l then some v else find? es l := by
  by_cases h : k.sameKey l <;> simp [find?, h]

theorem find_congr (h : k.sameKey l = true) (es : Entries) : find? es k = find? es l := by
  simp only [find?, Value.sameKey_congr h]

theorem find_eq_none_iff : find? es k = none ↔ ∀ l ∈ keys es, l.sameKey k = false := by
  simp [find?, keys]

theorem mem_of_find (h : find? es k = some v) : ∃ e ∈ es, e.1.sameKey k = true ∧ e.2 = v := by
  obtain ⟨e, he, rfl⟩ := Option.map_eq_some_iff.1 h
  exact ⟨e, List.mem_of_find?_eq_some he, by simpa using List.find?_some he, rfl⟩

/-- No key of the rest of a mapping is found under the first one. -/
theorem find_of_distinct (h : (keys ((k, v) :: es)).Pairwise fun k l => k.sameKey l = false)
    (hl : k.sameKey l = true) : find? es l = none := by
  rw [← find_congr hl, find_eq_none_iff]
  intro m hm
  rw [Value.sameKey_comm]
  exact (List.pairwise_cons.1 h).1 m hm

theorem find_insert_same (h : k.sameKey l = true) (es : Entries) (v : Value) :
    find? (insert es k v) l = some v := by
  induction es with
  | nil => rw [insert, find_cons, if_pos h]
  | cons e es ih =>
    obtain ⟨m, w⟩ := e
    rw [insert]
    by_cases hm : m.sameKey k = true
    · rw [if_pos hm, find_cons, if_pos (Value.sameKey_trans hm h)]
    · have hml : ¬ m.sameKey l = true := by
        rwa [← Value.sameKey_congr h]
      rw [if_neg hm, find_cons, if_neg hml, ih]

theorem find_insert_other (h : k.sameKey l = false) (es : Entries) (v : Value) :
    find? (insert es k v) l = find? es l := by
  have hk : ¬ k.sameKey l = true := by simp [h]
  induction es with
  | nil => rw [insert, find_cons, if_neg hk]
  | cons e es ih =>
    obtain ⟨m, w⟩ := e
    rw [insert]
    by_cases hm : m.sameKey k = true
    · have hml : ¬ m.sameKey l = true := by
        intro hml
        rw [Value.sameKey_comm] at hm
        exact hk (Value.sameKey_trans hm hml)
      rw [if_pos hm, find_cons, find_cons, if_neg hml, if_neg hml]
    · rw [if_neg hm, find_cons, find_cons, ih]

/-- A key that is set keeps its place and its form, or comes last. -/
theorem keys_insert (es : Entries) (k v : Value) :
    keys (insert es k v) = if (find? es k).isSome then keys es else keys es ++ [k] := by
  induction es with
  | nil => rfl
  | cons e es ih =>
    obtain ⟨m, w⟩ := e
    rw [insert, find_cons]
    by_cases hm : m.sameKey k = true
    · rw [if_pos hm, if_pos hm]
      rfl
    · rw [if_neg hm, if_neg hm]
      change m :: keys (insert es k v) = _
      rw [ih]
      split <;> rfl

/-- Two mappings are the same if they have the same keys in the same order and the same under each
of them. -/
theorem eq_of_keys_of_find (hes : HasKeys es) (hkeys : keys es = keys fs)
    (hfind : ∀ k, find? es k = find? fs k) : es = fs := by
  induction es generalizing fs with
  | nil => exact (List.map_eq_nil_iff.1 hkeys.symm).symm
  | cons e es ih =>
    obtain ⟨k, v⟩ := e
    cases fs with
    | nil => exact nomatch hkeys
    | cons f fs =>
      obtain ⟨l, w⟩ := f
      obtain ⟨rfl, htail⟩ : k = l ∧ keys es = keys fs := List.cons.inj hkeys
      have hfs : (keys ((k, w) :: fs)).Pairwise fun k l => k.sameKey l = false := by
        rw [← hkeys]
        exact hes.distinct
      have hself : k.sameKey k = true := hes.areKeys k List.mem_cons_self
      have hvw : v = w := by
        have hk := hfind k
        rw [find_cons, find_cons, if_pos hself, if_pos hself] at hk
        exact Option.some.inj hk
      -- the first key hides nothing below it, as no other key is the same
      have hrest : ∀ m, find? es m = find? fs m := by
        intro m
        by_cases hm : k.sameKey m = true
        · rw [find_of_distinct hes.distinct hm, find_of_distinct hfs hm]
        · have h := hfind m
          rwa [find_cons, find_cons, if_neg hm, if_neg hm] at h
      rw [hvw, ih hes.tail htail hrest]

/-- The entries are those of a mapping: no key comes twice, and what is under a key is laid out. -/
structure IsMapping (es : Entries) : Prop where
  distinct : es.Pairwise fun a b => a.1.sameKey b.1 = false
  laidOut : ∀ e ∈ es, e.2.isSpent = false

instance (es : Entries) : Decidable (IsMapping es) :=
  decidable_of_iff ((es.Pairwise fun a b => a.1.sameKey b.1 = false) ∧ ∀ e ∈ es, e.2.isSpent = false)
    ⟨fun h => ⟨h.1, h.2⟩, fun h => ⟨h.distinct, h.laidOut⟩⟩

theorem isMapping_nil : IsMapping [] := ⟨.nil, fun _ h => nomatch h⟩

/-- What stands under a key is laid out, and so is nothing. -/
theorem IsMapping.field_laidOut (hes : IsMapping es) (key : String) :
    (es.field key).isSpent = false := by
  cases hv : find? es (.text key) with
  | none => rw [field, get?, hv]; rfl
  | some v =>
    obtain ⟨e, he, -, rfl⟩ := mem_of_find hv
    rw [field, get?, hv]
    exact hes.laidOut e he

end RefSite.Entries
