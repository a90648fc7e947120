import RefSite.Value.Depth
import RefSite.Value.Write

/-! The parts of a value where data asks for some: the elements of a list and the entries of a
mapping. Where a value that holds itself is no longer laid out, reading on would never end. -/
namespace RefSite.Value

def elements (v : Value) : Except Failure (List Value) :=
  if v.isSpent then .error .endless
  else
    match v.elements? with
    | some xs => .ok xs
    | none => .error .noElements

/-- The elements of a value, none when it does not count as given. -/
def givenElements (v : Value) : Except Failure (List Value) :=
  if v.truthy then v.elements else .ok []

/-- The entries of a value that has to be a mapping, and else a failure that shows the value. -/
def entriesOr (v : Value) (f : Failure) : Except Failure Entries :=
  if v.isSpent then .error .endless
  else
    match v.body with
    | map es => .ok es
    | _ => .error (v.refusal f)

theorem elements_list (xs : List Value) : (list xs).elements = .ok xs := rfl

theorem givenElements_list (xs : List Value) : (list xs).givenElements = .ok xs := by
  cases xs <;> rfl

theorem entriesOr_map (es : Entries) (f : Failure) : (map es).entriesOr f = .ok es := rfl

theorem depthAll_of_elements {v : Value} {xs : List Value} (h : v.elements = .ok xs) :
    depthAll xs ≤ v.depth := by
  unfold elements at h
  split at h
  · exact nomatch h
  · split at h
    · next ys hy =>
      obtain rfl : ys = xs := by simpa using h
      exact depth_elements_le hy
    · exact nomatch h

theorem depthAll_of_givenElements {v : Value} {xs : List Value} (h : v.givenElements = .ok xs) :
    depthAll xs ≤ v.depth := by
  unfold givenElements at h
  split at h
  · exact depthAll_of_elements h
  · obtain rfl : [] = xs := by simpa using h
    exact Nat.zero_le _

/-- Entries are nested less deeply than the mapping. -/
theorem depthEntries_of_entriesOr {v : Value} {f : Failure} {es : Entries}
    (h : v.entriesOr f = .ok es) : depthEntries es < v.depth := by
  unfold entriesOr at h
  by_cases hs : v.isSpent = true
  · rw [if_pos hs] at h
    cases h
  · rw [if_neg hs] at h
    cases hb : v.body with
    | map fs =>
      rw [hb] at h
      obtain rfl : fs = es := by simpa using h
      rw [← depth_body v, hb, depth]
      exact Nat.lt_succ_self _
    | _ =>
      rw [hb] at h
      cases h

end RefSite.Value
