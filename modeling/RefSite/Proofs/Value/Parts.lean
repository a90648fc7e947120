import RefSite.Proofs.Computations
import RefSite.Value.Elements

/-! The parts of a value, and those that keep it from being read. Reading descends into parts, so
what hinders the reading of a part hinders that of the whole. -/
namespace RefSite

def Failure.IsModelFault (f : Failure) : Prop := ∃ fault, f = .model fault

namespace Value

/-- A value stands in another one, at any depth, or is the other one. -/
inductive IsPart (w : Value) : Value → Prop where
  | self : IsPart w w
  | item {items : List Value} {v : Value} (h : v ∈ items) (hw : IsPart w v) : IsPart w (list items)
  | key {es : Entries} {e : Value × Value} (h : e ∈ es) (hw : IsPart w e.1) : IsPart w (map es)
  | entry {es : Entries} {e : Value × Value} (h : e ∈ es) (hw : IsPart w e.2) : IsPart w (map es)
  | knot {n : Nat} {v : Value} (hw : IsPart w v) : IsPart w (knot n v)

/-- The fields that are read element by element when they count as given. -/
def elementKeys : List String :=
  ["entryPoints", "members", "modifiers", "parameters", "summary", "nodes"]

/-- Something in a value keeps it from being read, with a failure that is no fault of a model. The
value holds itself; a field has no elements where there have to be some; the number of an overload
is infinite; or a number has too many digits to be written. -/
inductive Hinders (v : Value) : Failure → Prop where
  | endless {n : Nat} {w : Value} (h : IsPart (knot n w) v) : Hinders v .endless
  | noElements {es : Entries} {key : String} (h : IsPart (map es) v) (hkey : key ∈ elementKeys)
      (hgiven : (es.field key).truthy = true) (hnone : (es.field key).elements? = none) :
      Hinders v .noElements
  | noRemarks {es : Entries} (h : IsPart (map es) v) (hgiven : es.field "remarks" ≠ null)
      (hnone : (es.field "remarks").elements? = none) : Hinders v .noElements
  | infiniteNumber {es : Entries} {x : Binary64} (h : IsPart (map es) v)
      (hx : es.field "overloadIndex" = float x) (hn : x.isNaN = false)
      (hinfinite : x.truncate? = none) : Hinders v .infiniteNumber
  | longNumber {n : Int} (h : IsPart (int n) v) (hn : Text.ofInt? n = none) : Hinders v .longNumber

/-- A value is not read: there is a fault in the model, or something in it keeps it from being
read. -/
def ReadingFault (v : Value) (f : Failure) : Prop := f.IsModelFault ∨ v.Hinders f

variable {u v w : Value} {es : Entries} {f : Failure} {key : String}

theorem IsPart.trans (h : IsPart u v) (h' : IsPart v w) : IsPart u w := by
  induction h' with
  | self => exact h
  | item hv _ ih => exact .item hv ih
  | key he _ ih => exact .key he ih
  | entry he _ ih => exact .entry he ih
  | knot _ ih => exact .knot ih

theorem Hinders.of_isPart (h : v.Hinders f) (hv : IsPart v w) : w.Hinders f := by
  cases h with
  | endless h => exact .endless (h.trans hv)
  | noElements h hkey hgiven hnone => exact .noElements (h.trans hv) hkey hgiven hnone
  | noRemarks h hgiven hnone => exact .noRemarks (h.trans hv) hgiven hnone
  | infiniteNumber h hx hn hinfinite => exact .infiniteNumber (h.trans hv) hx hn hinfinite
  | longNumber h hn => exact .longNumber (h.trans hv) hn

theorem ReadingFault.of_isPart (h : v.ReadingFault f) (hv : IsPart v w) : w.ReadingFault f :=
  h.imp_right fun h => h.of_isPart hv

theorem ReadingFault.model (fault : ModelFault) : v.ReadingFault (.model fault) := .inl ⟨fault, rfl⟩

theorem not_hinders_null : ¬ null.Hinders f
  | .endless h | .noElements h _ _ _ | .noRemarks h _ _ | .infiniteNumber h _ _ _
  | .longNumber h _ => nomatch h

theorem not_hinders_text (s : String) : ¬ (text s).Hinders f
  | .endless h | .noElements h _ _ _ | .noRemarks h _ _ | .infiniteNumber h _ _ _
  | .longNumber h _ => nomatch h

theorem isPart_body (v : Value) : IsPart v.body v := by
  cases v with
  | knot n w => exact .knot .self
  | _ => exact .self

theorem isPart_of_get (h : Entries.get? es key = some v) : IsPart v (map es) := by
  unfold Entries.get? Entries.find? at h
  obtain ⟨e, he, rfl⟩ := Option.map_eq_some_iff.1 h
  exact .entry (List.mem_of_find?_eq_some he) .self

/-- A field is part of its mapping, unless it is left out. -/
theorem field_cases (es : Entries) (key : String) :
    es.field key = null ∨ IsPart (es.field key) (map es) := by
  unfold Entries.field
  cases h : Entries.get? es key with
  | none => exact .inl rfl
  | some v => exact .inr (isPart_of_get h)

theorem ReadingFault.of_field (h : (es.field key).ReadingFault f) : (map es).ReadingFault f := by
  obtain hnull | hpart := field_cases es key
  · rw [hnull] at h
    exact .inl (h.resolve_right not_hinders_null)
  · exact h.of_isPart hpart

/-- What reads a field reads a part of its mapping. -/
theorem meets_field {α : Type} {wanted : α → Prop} {x : Except Failure α}
    (h : Meets (es.field key).ReadingFault wanted x) : Meets (map es).ReadingFault wanted x :=
  h.mono fun _ => .of_field

/-- The elements of a value are parts of it, but for the characters of a text. -/
theorem isPart_of_mem_elements {xs : List Value} (h : v.elements? = some xs) (hw : w ∈ xs) :
    IsPart w v ∨ ∃ s, w = text s := by
  fun_induction elements? v with
  | case1 items =>
    cases h
    exact .inl (.item hw .self)
  | case2 s =>
    cases h
    obtain ⟨c, -, rfl⟩ := List.mem_map.1 hw
    exact .inr ⟨_, rfl⟩
  | case3 entries =>
    cases h
    obtain ⟨e, he, rfl⟩ := List.mem_map.1 hw
    exact .inl (.key he .self)
  | case4 n v ih => exact (ih h).imp_left .knot
  | case5 => cases h

theorem ReadingFault.of_element {xs : List Value} (h : w.ReadingFault f)
    (hx : v.elements? = some xs) (hw : w ∈ xs) : v.ReadingFault f := by
  obtain hpart | ⟨s, rfl⟩ := isPart_of_mem_elements hx hw
  · exact h.of_isPart hpart
  · exact .inl (h.resolve_right (not_hinders_text s))

/-- A number in the value has too many digits to be written. -/
def HasLongNumber (v : Value) : Prop := ∃ n, IsPart (int n) v ∧ Text.ofInt? n = none

theorem HasLongNumber.of_isPart (h : v.HasLongNumber) (hv : IsPart v w) : w.HasLongNumber := by
  obtain ⟨n, hn, hlong⟩ := h
  exact ⟨n, hn.trans hv, hlong⟩

mutual

theorem hasLongNumber_of_shownWithin (outer : List Nat) (v : Value)
    (h : shownWithin outer v = none) : v.HasLongNumber := by
  cases v with
  | int n =>
    rw [shownWithin] at h
    exact ⟨n, .self, h⟩
  | list items =>
    rw [shownWithin, Option.map_eq_none_iff] at h
    obtain ⟨v, hv, hlong⟩ := hasLongNumber_of_shownItems outer items h
    exact hlong.of_isPart (.item hv .self)
  | map es =>
    rw [shownWithin, Option.map_eq_none_iff] at h
    obtain ⟨e, he, hlong | hlong⟩ := hasLongNumber_of_shownEntries outer es h
    · exact hlong.of_isPart (.key he .self)
    · exact hlong.of_isPart (.entry he .self)
  | knot n v =>
    rw [shownWithin] at h
    split at h
    · exact nomatch h
    · exact (hasLongNumber_of_shownWithin _ v h).of_isPart (.knot .self)
  | null | bool _ | float _ | text _ | day _ | moment _ =>
    simp only [shownWithin, reduceCtorEq] at h

theorem hasLongNumber_of_shownItems (outer : List Nat) (vs : List Value)
    (h : shownItems outer vs = none) : ∃ v ∈ vs, v.HasLongNumber := by
  cases vs with
  | nil =>
    rw [shownItems] at h
    exact nomatch h
  | cons v vs =>
    rw [shownItems] at h
    cases hv : shownWithin outer v with
    | none => exact ⟨v, List.mem_cons_self, hasLongNumber_of_shownWithin _ v hv⟩
    | some s =>
      cases hvs : shownItems outer vs with
      | none =>
        obtain ⟨w, hw, hlong⟩ := hasLongNumber_of_shownItems _ vs hvs
        exact ⟨w, List.mem_cons_of_mem _ hw, hlong⟩
      | some ss =>
        rw [hv, hvs] at h
        exact nomatch h

theorem hasLongNumber_of_shownEntries (outer : List Nat) (es : List (Value × Value))
    (h : shownEntries outer es = none) :
    ∃ e ∈ es, e.1.HasLongNumber ∨ e.2.HasLongNumber := by
  match es, h with
  | [], h =>
    rw [shownEntries] at h
    exact nomatch h
  | (k, v) :: es, h =>
    rw [shownEntries] at h
    cases hk : shownWithin outer k with
    | none => exact ⟨_, List.mem_cons_self, .inl (hasLongNumber_of_shownWithin _ k hk)⟩
    | some s =>
      cases hv : shownWithin outer v with
      | none => exact ⟨_, List.mem_cons_self, .inr (hasLongNumber_of_shownWithin _ v hv)⟩
      | some t =>
        cases hes : shownEntries outer es with
        | none =>
          obtain ⟨e, he, hlong⟩ := hasLongNumber_of_shownEntries _ es hes
          exact ⟨e, List.mem_cons_of_mem _ he, hlong⟩
        | some ss =>
          rw [hk, hv, hes] at h
          exact nomatch h

end

theorem hasLongNumber_of_shown (h : v.shown? = none) : v.HasLongNumber :=
  hasLongNumber_of_shownWithin _ _ h

theorem hasLongNumber_of_written (h : v.written? = none) : v.HasLongNumber := by
  unfold written? at h
  split at h
  · exact nomatch h
  · exact nomatch h
  · exact nomatch h
  · exact hasLongNumber_of_shown h

theorem not_hasLongNumber_null : ¬ null.HasLongNumber := by
  rintro ⟨n, hn, -⟩
  exact nomatch hn

theorem not_hasLongNumber_text (s : String) : ¬ (text s).HasLongNumber := by
  rintro ⟨n, hn, -⟩
  exact nomatch hn

/-- A value is not written: a number in it has too many digits. -/
def WritingFault (v : Value) (f : Failure) : Prop := f = .longNumber ∧ v.HasLongNumber

theorem WritingFault.readingFault (h : v.WritingFault f) : v.ReadingFault f := by
  obtain ⟨rfl, n, hn, hlong⟩ := h
  exact .inr (.longNumber hn hlong)

theorem writes (v : Value) : Meets v.WritingFault (fun _ => True) v.write := by
  unfold write
  split
  · trivial
  · next h => exact ⟨rfl, hasLongNumber_of_written h⟩

theorem writesOr (v : Value) (other : String) :
    Meets v.WritingFault (fun _ => True) (v.writeOr other) := by
  unfold writeOr
  split
  · exact v.writes
  · trivial

/-- A value is refused with the given failure, or it cannot be shown. -/
theorem refusal_cases (v : Value) (f : Failure) : v.refusal f = f ∨ v.WritingFault (v.refusal f) := by
  unfold refusal
  split
  · exact .inl rfl
  · next h =>
    have hnone : v.shown? = none := by simpa using h
    exact .inr ⟨rfl, hasLongNumber_of_shown hnone⟩

theorem meets_write (v : Value) : Meets v.ReadingFault (fun _ => True) v.write :=
  v.writes.mono fun _ => WritingFault.readingFault

theorem meets_writeOr (v : Value) (other : String) :
    Meets v.ReadingFault (fun _ => True) (v.writeOr other) :=
  (v.writesOr other).mono fun _ => WritingFault.readingFault

/-- A value is refused with a fault of the model, or it cannot be shown. -/
theorem readingFault_refusal (v : Value) (fault : ModelFault) :
    v.ReadingFault (v.refusal (.model fault)) := by
  obtain h | h := v.refusal_cases (.model fault)
  · rw [h]
    exact .model fault
  · exact h.readingFault

theorem hinders_of_isSpent (h : v.isSpent = true) : v.Hinders .endless := by
  unfold isSpent at h
  split at h
  · exact .endless .self
  · exact .endless .self
  · exact nomatch h

/-- Faults of reading one of the values are faults of reading the whole. -/
def Spans (v : Value) (xs : List Value) : Prop :=
  ∀ x ∈ xs, ∀ f, x.ReadingFault f → v.ReadingFault f

/-- The elements of a value are not read: one of them is not, or there are none. -/
def ElementFault (v : Value) (f : Failure) : Prop :=
  v.ReadingFault f ∨ f = .noElements ∧ v.elements? = none

theorem ElementFault.of_given (h : (es.field key).ElementFault f) (hkey : key ∈ elementKeys)
    (hgiven : (es.field key).truthy = true) : (map es).ReadingFault f := by
  obtain h | ⟨rfl, hnone⟩ := h
  · exact .of_field h
  · exact .inr (.noElements .self hkey hgiven hnone)

theorem ElementFault.of_remarks (h : (es.field "remarks").ElementFault f)
    (hgiven : es.field "remarks" ≠ null) : (map es).ReadingFault f := by
  obtain h | ⟨rfl, hnone⟩ := h
  · exact .of_field h
  · exact .inr (.noRemarks .self hgiven hnone)

theorem meets_elements (v : Value) : Meets v.ElementFault v.Spans v.elements := by
  unfold elements
  split
  · next h => exact .inl (.inr (hinders_of_isSpent h))
  · split
    · next xs hx => exact fun x hmem f hf => hf.of_element hx hmem
    · next h => exact .inr ⟨rfl, h⟩

theorem meets_givenElements_field (hkey : key ∈ elementKeys) :
    Meets (map es).ReadingFault (map es).Spans (es.field key).givenElements := by
  unfold givenElements
  split
  · next h =>
    have hm := meets_elements (es.field key)
    cases hx : (es.field key).elements with
    | ok xs =>
      rw [hx] at hm
      exact fun x hmem f hf => .of_field (hm x hmem f hf)
    | error f =>
      rw [hx] at hm
      exact hm.of_given hkey h
  · exact fun x hx => nomatch hx

theorem meets_entriesOr (v : Value) (fault : ModelFault) :
    Meets v.ReadingFault (fun es => ∀ f, (map es).ReadingFault f → v.ReadingFault f)
      (v.entriesOr (.model fault)) := by
  unfold entriesOr
  split
  · next h => exact .inr (hinders_of_isSpent h)
  · split
    · next es hes =>
      have hpart : IsPart (map es) v := by
        rw [← hes]
        exact isPart_body v
      exact fun f hf => hf.of_isPart hpart
    · exact readingFault_refusal v fault

end Value

end RefSite
