import RefSite.Config.KeyPath
import RefSite.Proofs.Value.Mappings

namespace RefSite

namespace Value

/-- The entries of a value that is a mapping. -/
def entries? (v : Value) : Option Entries :=
  match v.body with
  | map es => some es
  | _ => none

theorem body_of_entries {v : Value} {es : Entries} (h : v.entries? = some es) :
    v.body = map es := by
  unfold entries? at h
  split at h
  · next hv => rw [hv, Option.some.inj h]
  · exact nomatch h

end Value

namespace Entries

variable {es inner : Entries} {k : Value} {p q path : List Value}

theorem mappingAt_eq (es : Entries) (path : List Value) :
    mappingAt? es path = (at? es path).bind Value.entries? := by
  unfold mappingAt?
  cases at? es path with
  | none => rfl
  | some v =>
    simp only [Option.map_some, Option.bind_some, Value.entries?]
    cases v.body <;> rfl

theorem at_cons_of_ne_nil (es : Entries) (k : Value) (h : path ≠ []) :
    at? es (k :: path) = ((find? es k).bind Value.entries?).bind (at? · path) := by
  cases path with
  | nil => exact absurd rfl h
  | cons l path =>
    rw [at?]
    · cases find? es k with
      | none => rfl
      | some v =>
        simp only [Option.map_some, Option.bind_some, Value.entries?]
        cases v.body <;> rfl
    · exact h

theorem mappingAt_singleton (es : Entries) (k : Value) :
    mappingAt? es [k] = (find? es k).bind Value.entries? := by
  rw [mappingAt_eq, at_singleton]

theorem mappingAt_cons (es : Entries) (k : Value) (path : List Value) :
    mappingAt? es (k :: path) = ((find? es k).bind Value.entries?).bind (mappingAt? · path) := by
  cases path with
  | nil =>
    rw [mappingAt_singleton]
    cases (find? es k).bind Value.entries? with
    | none => rfl
    | some inner => exact (mappingAt_nil inner).symm
  | cons l path =>
    rw [mappingAt_eq, at_cons_of_ne_nil es k (List.cons_ne_nil l path)]
    simp only [mappingAt_eq, Option.bind_assoc]

/-- A path goes on below a key that leads to a mapping. -/
theorem mappingAt_under (hk : mappingAt? es [k] = some inner) (path : List Value) :
    mappingAt? es (k :: path) = mappingAt? inner path := by
  rw [mappingAt_singleton] at hk
  rw [mappingAt_cons, hk, Option.bind_some]

theorem at_under (hk : mappingAt? es [k] = some inner) (h : path ≠ []) :
    at? es (k :: path) = at? inner path := by
  rw [mappingAt_singleton] at hk
  rw [at_cons_of_ne_nil es k h, hk, Option.bind_some]

theorem mappingAt_append (es : Entries) (p q : List Value) :
    mappingAt? es (p ++ q) = (mappingAt? es p).bind (mappingAt? · q) := by
  induction p generalizing es with
  | nil => rw [mappingAt_nil]; rfl
  | cons k p ih =>
    rw [List.cons_append, mappingAt_cons, mappingAt_cons]
    simp only [ih, Option.bind_assoc]

theorem at_concat (es : Entries) (path : List Value) (k : Value) :
    at? es (path ++ [k]) = (mappingAt? es path).bind (find? · k) := by
  induction path generalizing es with
  | nil => rw [List.nil_append, at_singleton, mappingAt_nil]; rfl
  | cons l path ih =>
    have hne : path ++ [k] ≠ [] := List.concat_ne_nil k path
    rw [List.cons_append, at_cons_of_ne_nil es l hne, mappingAt_cons]
    simp only [ih, Option.bind_assoc]

/-- Every proper beginning of the path leads to a mapping. -/
def LeadsThrough (es : Entries) (path : List Value) : Prop :=
  ∀ p, p <+: path → p ≠ path → (mappingAt? es p).isSome = true

theorem leadsThrough_under (hk : mappingAt? es [k] = some inner) :
    LeadsThrough es (k :: path) ↔ LeadsThrough inner path := by
  constructor
  · intro h p hp hne
    rw [← mappingAt_under hk]
    exact h (k :: p) (List.cons_prefix_cons.2 ⟨rfl, hp⟩) fun heq => hne (List.cons.inj heq).2
  · intro h p hp hne
    cases p with
    | nil => rw [mappingAt_nil]; rfl
    | cons l p =>
      obtain ⟨rfl, hrest⟩ := List.cons_prefix_cons.1 hp
      rw [mappingAt_under hk]
      exact h p hrest fun heq => hne (congrArg (l :: ·) heq)

theorem leadsThrough_concat (es : Entries) (path : List Value) (k : Value) :
    LeadsThrough es (path ++ [k]) ↔ (mappingAt? es path).isSome = true := by
  constructor
  · intro h
    exact h path (List.prefix_append path [k]) (by simp)
  · intro h p hp hne
    obtain ⟨q, rfl⟩ := (List.prefix_concat_iff.1 hp).resolve_left hne
    rw [mappingAt_append] at h
    exact Option.isSome_of_isSome_bind h

theorem leadsThrough_singleton (es : Entries) (k : Value) : LeadsThrough es [k] := by
  apply (leadsThrough_concat es [] k).2
  rw [mappingAt_nil]
  rfl

/-- Every mapping that a path of keys leads to has the keys of a mapping. -/
def IsWellKeyed (es : Entries) : Prop :=
  ∀ path inner, mappingAt? es path = some inner → HasKeys inner

theorem IsWellKeyed.of_entries (h : HasKeys es)
    (hbelow : ∀ e ∈ es, ∀ inner, e.2.entries? = some inner → IsWellKeyed inner) :
    IsWellKeyed es := by
  intro path inner hp
  cases path with
  | nil =>
    rw [mappingAt_nil] at hp
    rwa [← Option.some.inj hp]
  | cons k path =>
    rw [mappingAt_cons, Option.bind_eq_some_iff] at hp
    obtain ⟨first, hfirst, hp⟩ := hp
    obtain ⟨v, hv, hfirst⟩ := Option.bind_eq_some_iff.1 hfirst
    obtain ⟨e, he, -, rfl⟩ := mem_of_find hv
    exact hbelow e he first hfirst path inner hp

theorem isWellKeyed_nil : IsWellKeyed [] := .of_entries hasKeys_nil fun _ he => nomatch he

theorem IsWellKeyed.hasKeys (h : IsWellKeyed es) : HasKeys es := h [] es (mappingAt_nil es)

theorem IsWellKeyed.below (h : IsWellKeyed es) (hp : mappingAt? es p = some inner) :
    IsWellKeyed inner := by
  intro q es' hq
  apply h (p ++ q)
  rw [mappingAt_append, hp]
  exact hq

end Entries

end RefSite
