import Mathlib.Data.List.Chain
import Mathlib.Data.List.Nodup
import RefSite.Item.Store

/-! Parents and lists of a store that is put together step by step. As long as every item is taken
in once, by an item that was made before it, parents and lists say the same: the way up from an item
leads through those that list it, and no item has two positions. -/
namespace RefSite.Store

variable {s : Store} {d : Declaration} {c : Cell} {h k m p root : Handle}

def parent? (s : Store) (h : Handle) : Option Handle := (s.get? h).bind Cell.parent

/-- The first item lists the second. -/
def Lists (s : Store) (h m : Handle) : Prop := ∃ c, s.get? h = some c ∧ m ∈ c.members

/-- Every item that is listed is listed once, by its parent, and was made after its parent. -/
structure IsTidy (s : Store) : Prop where
  parent : ∀ {h m}, s.Lists h m → s.parent? m = some h
  listed : ∀ {h m}, s.parent? m = some h → s.Lists h m
  later : ∀ {h m}, s.parent? m = some h → h < m
  once : ∀ {h c}, s.get? h = some c → c.members.Nodup

theorem get_setParents (s : Store) (p : Handle) (ms : List Handle) (k : Handle) :
    (ms.foldl (fun s m => s.setParent p m) s).get? k =
      (s.get? k).map fun c => if k ∈ ms then { c with parent := some p } else c := by
  induction ms generalizing s with
  | nil => simp
  | cons m ms ih =>
    have hone : (s.setParent p m).get? k =
        (s.get? k).map fun c => if m = k then { c with parent := some p } else c := by
      unfold get? setParent modify
      exact List.getElem?_modify ..
    rw [List.foldl_cons, ih, hone, Option.map_map]
    congr 1
    funext c
    by_cases hk : m = k
    · subst hk
      by_cases hms : m ∈ ms <;> simp [hms]
    · simp [hk, Ne.symm hk]

theorem get_create (s : Store) (d : Declaration) (ms : List Handle) (k : Handle) :
    (s.create d ms).1.get? k =
      (if k = s.cells.length then some { self := d, members := ms } else s.get? k).map fun c =>
        if k ∈ ms then { c with parent := some s.cells.length } else c := by
  have hnew : (⟨s.cells ++ [{ self := d, members := ms }]⟩ : Store).get? k =
      if k = s.cells.length then some { self := d, members := ms } else s.get? k := by
    unfold get?
    by_cases hk : k = s.cells.length
    · rw [if_pos hk, hk, List.getElem?_concat_length]
    · rw [if_neg hk]
      by_cases hlt : k < s.cells.length
      · exact List.getElem?_append_left hlt
      · have hlong : (s.cells ++ [({ self := d, members := ms } : Cell)]).length ≤ k := by
          rw [List.length_append, List.length_singleton]
          exact Nat.lt_of_le_of_ne (Nat.le_of_not_lt hlt) (Ne.symm hk)
        rw [List.getElem?_eq_none hlong, List.getElem?_eq_none (Nat.le_of_not_lt hlt)]
  rw [create, get_setParents, hnew]

theorem get_addMember (s : Store) (p m k : Handle) :
    (s.addMember p m).get? k = (s.get? k).map fun c =>
      ⟨c.self, if m = k then some p else c.parent,
        if p = k then c.members ++ [m] else c.members⟩ := by
  unfold get? addMember setParent modify
  rw [List.getElem?_modify, List.getElem?_modify]
  cases s.cells[k]? with
  | none => rfl
  | some c => by_cases hm : m = k <;> by_cases hp : p = k <;> simp [hm, hp]

theorem exists_iff_lt : (s.get? h).isSome = true ↔ h < s.cells.length := by
  rw [get?, Option.isSome_iff_ne_none, ne_eq, List.getElem?_eq_none_iff, not_le]

theorem get_length (s : Store) : s.get? s.cells.length = none :=
  List.getElem?_eq_none (Nat.le_refl _)

/-- A new item is the parent of its members. -/
theorem parent_create {ms : List Handle} (hms : ∀ m ∈ ms, m < s.cells.length) (d : Declaration)
    (k : Handle) : (s.create d ms).1.parent? k =
      if k ∈ ms then some s.cells.length else s.parent? k := by
  unfold parent?
  rw [get_create]
  by_cases hk : k ∈ ms
  · have hlt : k < s.cells.length := hms k hk
    obtain ⟨c, hc⟩ := Option.isSome_iff_exists.1 (exists_iff_lt.2 hlt)
    rw [if_neg (Nat.ne_of_lt hlt), hc, if_pos hk, Option.map_some, if_pos hk, Option.bind_some]
  · rw [if_neg hk]
    simp only [if_neg hk, Option.map_id']
    split
    · next hnew =>
      rw [hnew, get_length]
      rfl
    · rfl

theorem lists_create {ms : List Handle} :
    (s.create d ms).1.Lists h m ↔ s.Lists h m ∨ h = s.cells.length ∧ m ∈ ms := by
  have hnone : ¬ s.Lists s.cells.length m := by
    rintro ⟨c, hc, -⟩
    rw [get_length] at hc
    exact nomatch hc
  unfold Lists at hnone ⊢
  rw [get_create]
  by_cases hh : h = s.cells.length
  · subst hh
    rw [if_pos rfl, Option.map_some]
    constructor
    · rintro ⟨c, hc, hm⟩
      cases hc
      split at hm <;> exact .inr ⟨rfl, hm⟩
    · rintro (hl | ⟨-, hm⟩)
      · exact absurd hl hnone
      · refine ⟨_, rfl, ?_⟩
        split <;> exact hm
  · rw [if_neg hh]
    constructor
    · rintro ⟨c, hc, hm⟩
      obtain ⟨c', hc', rfl⟩ := Option.map_eq_some_iff.1 hc
      refine .inl ⟨c', hc', ?_⟩
      split at hm <;> exact hm
    · rintro (⟨c, hc, hm⟩ | ⟨he, -⟩)
      · refine ⟨_, Option.map_eq_some_iff.2 ⟨c, hc, rfl⟩, ?_⟩
        split <;> exact hm
      · exact absurd he hh

theorem parent_addMember (hm : (s.get? m).isSome = true) :
    (s.addMember p m).parent? k = if m = k then some p else s.parent? k := by
  unfold parent?
  rw [get_addMember]
  split
  · next hk =>
    subst hk
    obtain ⟨c, hc⟩ := Option.isSome_iff_exists.1 hm
    rw [hc]
    rfl
  · cases s.get? k <;> rfl

theorem lists_addMember (hp : (s.get? p).isSome = true) :
    (s.addMember p m).Lists h k ↔ s.Lists h k ∨ h = p ∧ k = m := by
  unfold Lists
  rw [get_addMember]
  constructor
  · rintro ⟨c, hc, hk⟩
    obtain ⟨c', hc', rfl⟩ := Option.map_eq_some_iff.1 hc
    by_cases hph : p = h
    · rw [if_pos hph, List.mem_append, List.mem_singleton] at hk
      exact hk.imp (fun hk => ⟨c', hc', hk⟩) fun hk => ⟨hph.symm, hk⟩
    · rw [if_neg hph] at hk
      exact .inl ⟨c', hc', hk⟩
  · rintro (⟨c, hc, hk⟩ | ⟨rfl, rfl⟩)
    · refine ⟨_, Option.map_eq_some_iff.2 ⟨c, hc, rfl⟩, ?_⟩
      dsimp only
      split
      · exact List.mem_append_left _ hk
      · exact hk
    · obtain ⟨c, hc⟩ := Option.isSome_iff_exists.1 hp
      refine ⟨_, Option.map_eq_some_iff.2 ⟨c, hc, rfl⟩, ?_⟩
      rw [if_pos rfl]
      exact List.mem_append_right _ (List.mem_singleton.2 rfl)

theorem isTidy_empty : IsTidy {} where
  parent := fun ⟨_, hc, _⟩ => nomatch hc
  listed := fun h => nomatch h
  later := fun h => nomatch h
  once := fun h => nomatch h

theorem IsTidy.create (hs : s.IsTidy) (d : Declaration) : (s.create d []).1.IsTidy := by
  have hparent (k : Handle) : (s.create d []).1.parent? k = s.parent? k := by
    rw [parent_create (by simp), if_neg List.not_mem_nil]
  have hlists {h m : Handle} : (s.create d []).1.Lists h m ↔ s.Lists h m := by
    simp [lists_create]
  constructor
  · intro h m hl
    rw [hparent]
    exact hs.parent (hlists.1 hl)
  · intro h m hp
    rw [hparent] at hp
    exact hlists.2 (hs.listed hp)
  · intro h m hp
    rw [hparent] at hp
    exact hs.later hp
  · intro h c hc
    rw [get_create] at hc
    simp only [List.not_mem_nil, if_false, Option.map_id'] at hc
    split at hc
    · cases hc
      exact List.nodup_nil
    · exact hs.once hc

/-- An item without a parent is taken in by one that was made before it. -/
theorem IsTidy.addMember (hs : s.IsTidy) (hm : m < s.cells.length) (hroot : s.parent? m = none)
    (hlater : p < m) : (s.addMember p m).IsTidy := by
  have hsome : (s.get? m).isSome = true := exists_iff_lt.2 hm
  have hp : (s.get? p).isSome = true := exists_iff_lt.2 (Nat.lt_trans hlater hm)
  have hunlisted (h : Handle) : ¬ s.Lists h m := fun hl => nomatch hroot.symm.trans (hs.parent hl)
  have hne {h k : Handle} (hl : s.Lists h k) : m ≠ k := fun he => hunlisted h (he ▸ hl)
  -- only the new member has another parent, and only the list of its new parent is another one
  constructor
  · intro h k hl
    rw [parent_addMember hsome]
    obtain hl | ⟨rfl, rfl⟩ := (lists_addMember hp).1 hl
    · rw [if_neg (hne hl)]
      exact hs.parent hl
    · exact if_pos rfl
  · intro h k hk
    rw [parent_addMember hsome] at hk
    rw [lists_addMember hp]
    split at hk
    · next he => exact .inr ⟨(Option.some.inj hk).symm, he.symm⟩
    · exact .inl (hs.listed hk)
  · intro h k hk
    rw [parent_addMember hsome] at hk
    split at hk
    · next he =>
      rw [← Option.some.inj hk, ← he]
      exact hlater
    · exact hs.later hk
  · intro h c hc
    rw [get_addMember] at hc
    obtain ⟨c', hc', rfl⟩ := Option.map_eq_some_iff.1 hc
    have honce : c'.members.Nodup := hs.once hc'
    dsimp only
    split
    · have hnew : m ∉ c'.members := fun hmem => hunlisted h ⟨c', hc', hmem⟩
      rw [← List.concat_eq_append]
      exact honce.concat hnew
    · exact honce

theorem chainUp_succ (hc : s.get? h = some c) (fuel : Nat) :
    s.chainUp (fuel + 1) h = h :: (c.parent.map (s.chainUp fuel)).getD [] := by
  rw [chainUp, hc]
  cases hp : c.parent <;> simp [hp]

/-- Parents have smaller numbers, so the way up from an item is no longer than its number. -/
theorem IsTidy.chainUp_eq (hs : s.IsTidy) (hh : h < s.cells.length) {fuel fuel' : Nat}
    (hfuel : h < fuel) (hfuel' : h < fuel') : s.chainUp fuel h = s.chainUp fuel' h := by
  induction fuel generalizing h fuel' with
  | zero => exact absurd hfuel (Nat.not_lt_zero h)
  | succ fuel ih =>
    obtain ⟨fuel', rfl⟩ := Nat.exists_eq_add_one_of_ne_zero (Nat.ne_zero_of_lt hfuel')
    obtain ⟨c, hc⟩ := Option.isSome_iff_exists.1 (exists_iff_lt.2 hh)
    rw [chainUp_succ hc, chainUp_succ hc]
    cases hp : c.parent with
    | none => rfl
    | some p =>
      have hlater : p < h := hs.later (by rw [parent?, hc]; exact hp)
      have hup : s.chainUp fuel p = s.chainUp fuel' p :=
        ih (Nat.lt_trans hlater hh) (Nat.lt_of_lt_of_le hlater (Nat.le_of_lt_succ hfuel))
          (Nat.lt_of_lt_of_le hlater (Nat.le_of_lt_succ hfuel'))
      rw [Option.map_some, Option.map_some, hup]

theorem hierarchy_of_root (hh : h < s.cells.length) (hroot : s.parent? h = none) :
    s.hierarchy h = [h] := by
  obtain ⟨n, hn⟩ := Nat.exists_eq_add_one_of_ne_zero (Nat.ne_zero_of_lt hh)
  obtain ⟨c, hc⟩ := Option.isSome_iff_exists.1 (exists_iff_lt.2 hh)
  have hp : c.parent = none := by
    rw [parent?, hc] at hroot
    exact hroot
  rw [hierarchy, hn, chainUp_root hc hp]
  rfl

/-- The hierarchy of an item is that of its parent, with the item after it. -/
theorem IsTidy.hierarchy_of_parent (hs : s.IsTidy) (hh : h < s.cells.length)
    (hparent : s.parent? h = some p) : s.hierarchy h = s.hierarchy p ++ [h] := by
  obtain ⟨n, hn⟩ := Nat.exists_eq_add_one_of_ne_zero (Nat.ne_zero_of_lt hh)
  obtain ⟨c, hc⟩ := Option.isSome_iff_exists.1 (exists_iff_lt.2 hh)
  have hp : c.parent = some p := by
    rw [parent?, hc] at hparent
    exact hparent
  have hlater : p < h := hs.later hparent
  have hle : h ≤ n := Nat.le_of_lt_succ (Nat.lt_of_lt_of_eq hh hn)
  have hup : s.chainUp n p = s.chainUp s.cells.length p :=
    hs.chainUp_eq (Nat.lt_trans hlater hh) (Nat.lt_of_lt_of_le hlater hle)
      (Nat.lt_trans hlater hh)
  calc s.hierarchy h = (h :: s.chainUp n p).reverse := by
        rw [hierarchy, hn, chainUp_succ hc, hp]
        rfl
    _ = s.hierarchy p ++ [h] := by
        rw [hup, List.reverse_cons]
        rfl

/-- A chain of items from the first item to the last in which each lists the next. -/
structure LeadsTo (s : Store) (first last : Handle) (l : List Handle) : Prop where
  start : l.head? = some first
  stop : l.getLast? = some last
  steps : l.IsChain s.Lists

theorem LeadsTo.concat {l : List Handle} (hl : s.LeadsTo root h l) (hm : s.Lists h m) :
    s.LeadsTo root m (l ++ [m]) where
  start := by
    rw [List.head?_append, hl.start]
    rfl
  stop := List.getLast?_concat
  steps := by
    refine hl.steps.append (List.isChain_singleton m) fun a ha b hb => ?_
    rw [hl.stop] at ha
    cases ha
    cases hb
    exact hm

/-- When only one item has no parent, every hierarchy starts there. -/
theorem IsTidy.leadsTo_hierarchy (hs : s.IsTidy)
    (hroot : ∀ k < s.cells.length, s.parent? k = none → k = root) (hh : h < s.cells.length) :
    s.LeadsTo root h (s.hierarchy h) := by
  induction h using Nat.strongRecOn with
  | ind h ih =>
    cases hp : s.parent? h with
    | none =>
      rw [hierarchy_of_root hh hp, hroot h hh hp]
      exact ⟨rfl, rfl, List.isChain_singleton root⟩
    | some p =>
      have hlater : p < h := hs.later hp
      rw [hs.hierarchy_of_parent hh hp]
      exact (ih p hlater (Nat.lt_trans hlater hh)).concat (hs.listed hp)

/-- The item at a position: at each step, the member of the given number. -/
def memberAt? (s : Store) (h : Handle) : List Nat → Option Handle
  | [] => some h
  | k :: ks => ((s.get? h).bind fun c => c.members[k]?).bind fun m => s.memberAt? m ks

theorem memberAt_concat (s : Store) (h : Handle) (x : List Nat) (k : Nat) :
    s.memberAt? h (x ++ [k]) =
      (s.memberAt? h x).bind fun m => (s.get? m).bind fun c => c.members[k]? := by
  induction x generalizing h with
  | nil =>
    rw [List.nil_append, memberAt?, memberAt?, Option.bind_some]
    cases (s.get? h).bind fun c => c.members[k]? <;> rfl
  | cons l x ih =>
    rw [List.cons_append, memberAt?, memberAt?]
    cases (s.get? h).bind fun c => c.members[l]? with
    | none => rfl
    | some m => exact ih m

theorem exists_of_memberAt_concat {x : List Nat} (hm : s.memberAt? h (x ++ [k]) = some m) :
    ∃ p c, s.memberAt? h x = some p ∧ s.get? p = some c ∧ c.members[k]? = some m := by
  rw [memberAt_concat] at hm
  obtain ⟨p, hp, hm⟩ := Option.bind_eq_some_iff.1 hm
  obtain ⟨c, hc, hm⟩ := Option.bind_eq_some_iff.1 hm
  exact ⟨p, c, hp, hc, hm⟩

/-- No item has two positions below one without a parent. -/
theorem IsTidy.position_unique (hs : s.IsTidy) (hroot : s.parent? root = none) {x y : List Nat}
    (hx : s.memberAt? root x = some m) (hy : s.memberAt? root y = some m) : x = y := by
  have hbelow {z : List Nat} {k : Nat} : s.memberAt? root (z ++ [k]) ≠ some root := by
    intro hz
    obtain ⟨p, c, -, hc, hmem⟩ := exists_of_memberAt_concat hz
    have hparent : s.parent? root = some p := hs.parent ⟨c, hc, List.mem_of_getElem? hmem⟩
    exact nomatch hroot.symm.trans hparent
  -- the parent of an item tells the position but for its last number
  induction x using List.reverseRecOn generalizing y m with
  | nil =>
    obtain rfl : root = m := Option.some.inj hx
    obtain rfl | ⟨z, k, rfl⟩ := List.eq_nil_or_concat' y
    · rfl
    · exact absurd hy hbelow
  | append_singleton x k ih =>
    obtain rfl | ⟨z, l, rfl⟩ := List.eq_nil_or_concat' y
    · obtain rfl : root = m := Option.some.inj hy
      exact absurd hx hbelow
    · obtain ⟨p, c, hp, hc, hmem⟩ := exists_of_memberAt_concat hx
      obtain ⟨q, c', hq, hc', hmem'⟩ := exists_of_memberAt_concat hy
      have hparent : s.parent? m = some p := hs.parent ⟨c, hc, List.mem_of_getElem? hmem⟩
      have hparent' : s.parent? m = some q := hs.parent ⟨c', hc', List.mem_of_getElem? hmem'⟩
      obtain rfl : p = q := Option.some.inj (hparent.symm.trans hparent')
      obtain rfl : c = c' := Option.some.inj (hc.symm.trans hc')
      obtain ⟨hlt, -⟩ := List.getElem?_eq_some_iff.1 hmem
      have hkl : k = l := (List.getElem?_inj hlt (hs.once hc)).1 (hmem.trans hmem'.symm)
      rw [ih hp hq, hkl]

/-- The items of a store form one tree. Every member of an item has it for its parent, and no item
has two positions below the root; the hierarchy of every item starts at the root, ends at the item,
and goes from items to members. -/
structure IsTree (s : Store) (root : Handle) : Prop where
  parent : ∀ {h m c}, s.get? h = some c → m ∈ c.members →
    ∃ c', s.get? m = some c' ∧ c'.parent = some h
  position : ∀ {x y m}, s.memberAt? root x = some m → s.memberAt? root y = some m → x = y
  hierarchy : ∀ {h}, (s.get? h).isSome = true → s.LeadsTo root h (s.hierarchy h)

theorem IsTidy.isTree (hs : s.IsTidy) (hroot : s.parent? root = none)
    (honly : ∀ k < s.cells.length, s.parent? k = none → k = root) : s.IsTree root where
  parent := by
    intro h m c hc hm
    have hparent : s.parent? m = some h := hs.parent ⟨c, hc, hm⟩
    exact Option.bind_eq_some_iff.1 hparent
  position := by
    intro x y m hx hy
    exact hs.position_unique hroot hx hy
  hierarchy := by
    intro h hh
    exact hs.leadsTo_hierarchy honly (exists_iff_lt.1 hh)

end RefSite.Store
