import Mathlib.Data.List.Perm.Subperm
import Mathlib.Logic.Relation
import RefSite.Proofs.Item.ParentLinks

/-! Items that are taken in again and again. Lists keep an item that has got another parent since,
so they say more than parents do; but a parent always lists the item, and only what is in no list
has none. As long as no item is above itself, the way up from an item ends at one that is in no
list. -/
namespace RefSite.Store

variable {s : Store} {d : Declaration} {h k m p : Handle} {ms : List Handle}

/-- Stores that are put together from nothing. Items are made with existing items for members, in
any number and also repeated, and existing items are taken in by others or by themselves. -/
inductive Reached : Store → Prop where
  | empty : Reached {}
  | create {s : Store} {ms : List Handle} (hs : Reached s) (d : Declaration)
      (hms : ∀ m ∈ ms, m < s.cells.length) : Reached (s.create d ms).1
  | addMember {s : Store} {p m : Handle} (hs : Reached s) (hp : p < s.cells.length)
      (hm : m < s.cells.length) : Reached (s.addMember p m)

/-- Parents list their items, and every item in a list has a parent. -/
structure IsTruthful (s : Store) : Prop where
  listed : ∀ {m p}, s.parent? m = some p → s.Lists p m
  parented : ∀ {p m}, s.Lists p m → ∃ q, s.parent? m = some q

theorem isTruthful_empty : IsTruthful {} where
  listed := fun h => nomatch h
  parented := fun ⟨_, hc, _⟩ => nomatch hc

theorem IsTruthful.create (hs : s.IsTruthful) (d : Declaration)
    (hms : ∀ m ∈ ms, m < s.cells.length) : (s.create d ms).1.IsTruthful := by
  constructor
  · intro m p hp
    rw [parent_create hms] at hp
    rw [lists_create]
    split at hp
    · next hmem => exact .inr ⟨(Option.some.inj hp).symm, hmem⟩
    · exact .inl (hs.listed hp)
  · intro p m hl
    rw [parent_create hms]
    split
    · exact ⟨_, rfl⟩
    · next hmem =>
      obtain hl | ⟨-, hmem'⟩ := lists_create.1 hl
      · exact hs.parented hl
      · exact absurd hmem' hmem

theorem IsTruthful.addMember (hs : s.IsTruthful) (hp : p < s.cells.length)
    (hm : m < s.cells.length) : (s.addMember p m).IsTruthful := by
  have hp' : (s.get? p).isSome = true := exists_iff_lt.2 hp
  have hm' : (s.get? m).isSome = true := exists_iff_lt.2 hm
  constructor
  · intro k q hq
    rw [parent_addMember hm'] at hq
    rw [lists_addMember hp']
    split at hq
    · next he => exact .inr ⟨(Option.some.inj hq).symm, he.symm⟩
    · exact .inl (hs.listed hq)
  · intro q k hl
    rw [parent_addMember hm']
    split
    · exact ⟨_, rfl⟩
    · next hne =>
      obtain hl | ⟨-, he⟩ := (lists_addMember hp').1 hl
      · exact hs.parented hl
      · exact absurd he.symm hne

theorem Reached.isTruthful (hs : s.Reached) : s.IsTruthful := by
  induction hs with
  | empty => exact isTruthful_empty
  | create _ d hms ih => exact ih.create d hms
  | addMember _ hp hm ih => exact ih.addMember hp hm

theorem IsTruthful.parent_eq_none_iff (hs : s.IsTruthful) (m : Handle) :
    s.parent? m = none ↔ ∀ p, ¬ s.Lists p m := by
  constructor
  · intro hnone p hl
    obtain ⟨q, hq⟩ := hs.parented hl
    rw [hnone] at hq
    exact nomatch hq
  · intro hunlisted
    cases hp : s.parent? m with
    | none => rfl
    | some p => exact absurd (hs.listed hp) (hunlisted p)

/-- The second item is the parent of the first. -/
def HasParent (s : Store) (m p : Handle) : Prop := s.parent? m = some p

/-- No item is above itself. -/
def IsAcyclic (s : Store) : Prop := ∀ h, ¬ Relation.TransGen s.HasParent h h

theorem isAcyclic_of_lt (hlt : ∀ m p, s.HasParent m p → p < m) : s.IsAcyclic := by
  have hless {h k : Handle} (hup : Relation.TransGen s.HasParent h k) : k < h := by
    induction hup with
    | single hp => exact hlt _ _ hp
    | tail _ hp ih => exact Nat.lt_trans (hlt _ _ hp) ih
  exact fun h hup => Nat.lt_irrefl h (hless hup)

theorem chainUp_of_lt (hh : h < s.cells.length) (fuel : Nat) :
    s.chainUp (fuel + 1) h = h :: ((s.parent? h).map (s.chainUp fuel)).getD [] := by
  obtain ⟨c, hc⟩ := Option.isSome_iff_exists.1 (exists_iff_lt.2 hh)
  rw [chainUp_succ hc, parent?, hc, Option.bind_some]

theorem chainUp_of_le (hh : s.cells.length ≤ h) (fuel : Nat) : s.chainUp fuel h = [] := by
  have hnone : s.get? h = none := List.getElem?_eq_none hh
  cases fuel with
  | zero => rfl
  | succ fuel => rw [chainUp, hnone]

theorem lt_of_mem_chainUp {fuel : Nat} (hk : k ∈ s.chainUp fuel h) : k < s.cells.length := by
  induction fuel generalizing h with
  | zero => exact nomatch hk
  | succ fuel ih =>
    by_cases hh : h < s.cells.length
    · rw [chainUp_of_lt hh] at hk
      obtain rfl | hk := List.mem_cons.1 hk
      · exact hh
      · cases hp : s.parent? h with
        | none =>
          rw [hp] at hk
          exact nomatch hk
        | some p =>
          rw [hp] at hk
          exact ih hk
    · rw [chainUp_of_le (Nat.le_of_not_lt hh)] at hk
      exact nomatch hk

/-- The way up starts at the item and goes from items to their parents. -/
theorem isChain_chainUp (s : Store) (fuel : Nat) (h : Handle) :
    (∀ k ∈ (s.chainUp fuel h).head?, k = h) ∧ (s.chainUp fuel h).IsChain s.HasParent := by
  induction fuel generalizing h with
  | zero => exact ⟨by simp [chainUp], List.isChain_nil⟩
  | succ fuel ih =>
    by_cases hh : h < s.cells.length
    · rw [chainUp_of_lt hh]
      refine ⟨fun k hk => (Option.some.inj hk).symm, ?_⟩
      cases hp : s.parent? h with
      | none => exact List.isChain_singleton h
      | some p =>
        obtain ⟨hhead, hchain⟩ := ih p
        refine hchain.cons fun k hk => ?_
        rw [hhead k hk]
        exact hp
    · rw [chainUp_of_le (Nat.le_of_not_lt hh)]
      exact ⟨by simp, List.isChain_nil⟩

/-- Where no item is above itself, the way up repeats none, so that it is no longer than the store.
-/
theorem IsAcyclic.length_chainUp_le (ha : s.IsAcyclic) (fuel : Nat) (h : Handle) :
    (s.chainUp fuel h).length ≤ s.cells.length := by
  have hchain : (s.chainUp fuel h).IsChain (Relation.TransGen s.HasParent) :=
    (isChain_chainUp s fuel h).2.imp fun _ _ hp => .single hp
  have hnodup : (s.chainUp fuel h).Nodup := by
    refine (List.isChain_iff_pairwise.1 hchain).imp fun {a b} hup => ?_
    rintro rfl
    exact ha a hup
  -- so the way up fits into the store
  have hsub : s.chainUp fuel h ⊆ List.range s.cells.length :=
    fun k hk => List.mem_range.2 (lt_of_mem_chainUp hk)
  calc (s.chainUp fuel h).length ≤ (List.range s.cells.length).length :=
        (List.subperm_of_subset hnodup hsub).length_le
    _ = s.cells.length := List.length_range

theorem take_chainUp (s : Store) (fuel : Nat) (h : Handle) :
    (s.chainUp (fuel + 1) h).take fuel = s.chainUp fuel h := by
  induction fuel generalizing h with
  | zero => rfl
  | succ fuel ih =>
    by_cases hh : h < s.cells.length
    · rw [chainUp_of_lt hh, chainUp_of_lt hh, List.take_succ_cons]
      cases s.parent? h with
      | none => rw [Option.map_none, Option.map_none, Option.getD_none, List.take_nil]
      | some p => exact congrArg (h :: ·) (ih p)
    · rw [chainUp_of_le (Nat.le_of_not_lt hh), chainUp_of_le (Nat.le_of_not_lt hh), List.take_nil]

/-- A way up that is shorter than it might be ends at an item without a parent. -/
theorem IsTruthful.last_of_chainUp (hs : s.IsTruthful) {fuel : Nat} (hh : h < s.cells.length)
    (hshort : (s.chainUp fuel h).length < fuel) :
    ∃ root, (s.chainUp fuel h).getLast? = some root ∧ s.parent? root = none := by
  induction fuel generalizing h with
  | zero => exact absurd hshort (Nat.not_lt_zero _)
  | succ fuel ih =>
    rw [chainUp_of_lt hh] at hshort ⊢
    cases hp : s.parent? h with
    | none => exact ⟨h, rfl, hp⟩
    | some p =>
      rw [hp, List.length_cons] at hshort
      obtain ⟨c, hc, -⟩ := hs.listed hp
      have hlt : p < s.cells.length := exists_iff_lt.1 (Option.isSome_iff_exists.2 ⟨c, hc⟩)
      obtain ⟨root, hlast, hroot⟩ := ih hlt (Nat.lt_of_succ_lt_succ hshort)
      refine ⟨root, ?_, hroot⟩
      rw [Option.map_some, Option.getD_some, List.getLast?_cons, hlast]
      rfl

/-- Where no item is above itself, a hierarchy starts at an item without a parent. -/
theorem IsTruthful.exists_leadsTo (hs : s.IsTruthful) (ha : s.IsAcyclic)
    (hh : h < s.cells.length) :
    ∃ root, s.parent? root = none ∧ s.LeadsTo root h (s.hierarchy h) := by
  have hlength := ha.length_chainUp_le (s.cells.length + 1) h
  -- one more step up would find nothing more
  have hup : s.chainUp (s.cells.length + 1) h = s.chainUp s.cells.length h := by
    rw [← take_chainUp s s.cells.length h, List.take_of_length_le hlength]
  obtain ⟨root, hlast, hroot⟩ := hs.last_of_chainUp hh (Nat.lt_succ_of_le hlength)
  obtain ⟨-, hchain⟩ := isChain_chainUp s (s.cells.length + 1) h
  refine ⟨root, hroot, ?_⟩
  rw [hierarchy, ← hup]
  constructor
  · rw [List.head?_reverse, hlast]
  · rw [List.getLast?_reverse, chainUp_of_lt hh, List.head?_cons]
  · exact List.isChain_reverse.2 (hchain.imp fun _ _ hp => hs.listed hp)

/-- Parents stay truthful however items are taken in. The parent of an item lists it, and an item
has no parent exactly if it is in no list. So, as long as no item is above itself, the hierarchy of
an item starts at one that is in no list, ends at the item, and goes from items to members. -/
theorem parents_stay_truthful (hs : s.Reached) :
    (∀ m p, s.parent? m = some p → s.Lists p m) ∧
      (∀ m, s.parent? m = none ↔ ∀ p, ¬ s.Lists p m) ∧
      (s.IsAcyclic → ∀ h < s.cells.length, ∃ root, (∀ p, ¬ s.Lists p root) ∧
        s.LeadsTo root h (s.hierarchy h)) := by
  have htruthful := hs.isTruthful
  refine ⟨fun m p => htruthful.listed, htruthful.parent_eq_none_iff, fun ha h hh => ?_⟩
  obtain ⟨root, hroot, hleads⟩ := htruthful.exists_leadsTo ha hh
  exact ⟨root, (htruthful.parent_eq_none_iff root).1 hroot, hleads⟩

/-- A class, a method, an interface that is made with the method twice, and then the class takes in
the method and the interface. -/
def rearranged : Store :=
  let s := ({} : Store).create { kind := .known .classDecl, name := "Dial" } []
  let s := s.1.create { kind := .known .method, name := "turn" } []
  let s := s.1.create { kind := .known .interface, name := "Knob" } [1, 1]
  (s.1.addMember 0 1).addMember 0 2

/-- The method is still listed by the interface, but its hierarchy leads through the class, which
took it in last. -/
theorem hierarchy_of_rearranged :
    rearranged.Reached ∧ rearranged.IsAcyclic ∧ rearranged.Lists 2 1 ∧
      rearranged.hierarchy 1 = [0, 1] ∧ (∀ p, ¬ rearranged.Lists p 0) ∧
      rearranged.LeadsTo 0 1 (rearranged.hierarchy 1) := by
  have hreached : rearranged.Reached :=
    ((((Reached.empty.create _ (by decide)).create _ (by decide)).create _ (by decide)).addMember
      (by decide) (by decide)).addMember (by decide) (by decide)
  have hacyclic : rearranged.IsAcyclic := by
    refine isAcyclic_of_lt fun m p hp => ?_
    match m with
    | 0 => exact nomatch hp
    | 1 | 2 =>
      cases hp
      decide
    | m + 3 => exact nomatch hp
  have hchain : rearranged.hierarchy 1 = [0, 1] := by decide
  obtain ⟨-, -, hleads⟩ := parents_stay_truthful hreached
  obtain ⟨root, hunlisted, hroot⟩ := hleads hacyclic 1 (by decide)
  obtain rfl : 0 = root := by
    have hstart := hroot.start
    rw [hchain] at hstart
    exact Option.some.inj hstart
  exact ⟨hreached, hacyclic, ⟨_, rfl, by decide⟩, hchain, hunlisted, hroot⟩

end RefSite.Store
