import RefSite.Value.Basic

namespace RefSite.Value

mutual

def depth : Value → Nat
  | list items => depthAll items + 1
  | map entries => depthEntries entries + 1
  | knot _ v => depth v
  | _ => 0

def depthAll : List Value → Nat
  | [] => 0
  | v :: vs => max (depth v) (depthAll vs)

def depthEntries : List (Value × Value) → Nat
  | [] => 0
  | (k, v) :: es => max (max (depth k) (depth v)) (depthEntries es)

end

theorem depth_body (v : Value) : v.body.depth = v.depth := by
  cases v <;> simp [body, depth]

theorem depth_le_depthAll {v : Value} {vs : List Value} (h : v ∈ vs) : v.depth ≤ depthAll vs := by
  induction vs with
  | nil => simp at h
  | cons w ws ih =>
    rw [depthAll]
    rcases List.mem_cons.1 h with rfl | h
    · exact Nat.le_max_left _ _
    · exact Nat.le_trans (ih h) (Nat.le_max_right _ _)

theorem depthAll_le {n : Nat} {vs : List Value} (h : ∀ v ∈ vs, v.depth ≤ n) :
    depthAll vs ≤ n := by
  induction vs with
  | nil => exact Nat.zero_le _
  | cons w ws ih =>
    rw [depthAll]
    exact Nat.max_le.2 ⟨h w List.mem_cons_self, ih fun v hv => h v (List.mem_cons_of_mem _ hv)⟩

theorem depth_le_depthEntries {e : Value × Value} {es : List (Value × Value)} (h : e ∈ es) :
    e.1.depth ≤ depthEntries es ∧ e.2.depth ≤ depthEntries es := by
  induction es with
  | nil => simp at h
  | cons x xs ih =>
    obtain ⟨k, v⟩ := x
    rw [depthEntries]
    rcases List.mem_cons.1 h with rfl | h
    · exact ⟨Nat.le_trans (Nat.le_max_left _ _) (Nat.le_max_left _ _),
        Nat.le_trans (Nat.le_max_right _ _) (Nat.le_max_left _ _)⟩
    · exact ⟨Nat.le_trans (ih h).1 (Nat.le_max_right _ _),
        Nat.le_trans (ih h).2 (Nat.le_max_right _ _)⟩

theorem depth_field_le (es : Entries) (key : String) : (es.field key).depth ≤ depthEntries es := by
  unfold Entries.field Entries.get? Entries.find?
  cases h : List.find? (fun e => e.1.sameKey (.text key)) es with
  | none => simp [depth]
  | some e => simpa using (depth_le_depthEntries (List.mem_of_find?_eq_some h)).2

/-- Elements are nested no deeper than what they are elements of. -/
theorem depth_elements_le {v : Value} {xs : List Value} (h : v.elements? = some xs) :
    depthAll xs ≤ v.depth := by
  fun_induction elements? v with
  | case1 items =>
    obtain rfl : items = xs := by simpa using h
    simp [depth]
  | case2 s =>
    obtain rfl := by simpa using h
    exact depthAll_le fun v hv => by
      obtain ⟨c, _, rfl⟩ := List.mem_map.1 hv
      simp [depth]
  | case3 entries =>
    obtain rfl : entries.map Prod.fst = xs := by simpa using h
    refine depthAll_le fun v hv => ?_
    obtain ⟨e, he, rfl⟩ := List.mem_map.1 hv
    rw [depth]
    exact Nat.le_succ_of_le (depth_le_depthEntries he).1
  | case4 _ v ih =>
    rw [depth]
    exact ih h
  | case5 => exact nomatch h

end RefSite.Value
