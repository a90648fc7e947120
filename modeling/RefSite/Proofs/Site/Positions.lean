import RefSite.Proofs.Site.Correspondence

/-! Positions in a tree. The position of an item is the list of the numbers of the members that lead
to it. Two items that look the same stand at different positions, and it is the position that decides
which page an item has and which page lists it. -/
namespace RefSite

namespace Item

/-- The item at a position below another one. -/
def at? : Item → List Nat → Option Item
  | i, [] => some i
  | i, n :: x => i.members[n]?.bind fun m => m.at? x

/-- The item with another one put in at a position below it. -/
def replaceAt : Item → List Nat → Item → Item
  | _, [], new => new
  | i, n :: x, new => mk i.self (i.members.modify n fun m => m.replaceAt x new)

theorem exists_of_at_cons {i j : Item} {n : Nat} {x : List Nat} (h : i.at? (n :: x) = some j) :
    ∃ m, i.members[n]? = some m ∧ m.at? x = some j :=
  Option.bind_eq_some_iff.1 h

theorem length_members_replaceAt (i new : Item) (n : Nat) (x : List Nat) :
    (i.replaceAt (n :: x) new).members.length = i.members.length :=
  List.length_modify _ _ _

theorem members_replaceAt_self {i j : Item} {n : Nat} (h : i.members[n]? = some j) (x : List Nat)
    (new : Item) : (i.replaceAt (n :: x) new).members[n]? = some (j.replaceAt x new) := by
  rw [replaceAt, members, List.getElem?_modify_eq, h]
  rfl

theorem members_replaceAt_of_ne {n k : Nat} (h : n ≠ k) (i : Item) (x : List Nat) (new : Item) :
    (i.replaceAt (n :: x) new).members[k]? = i.members[k]? := by
  rw [replaceAt, members, List.getElem?_modify_ne _ _ h]

end Item

namespace Placed

/-- The place of the item at a position below another one. -/
def at? : Placed → List Nat → Option Placed
  | p, [] => some p
  | p, n :: x => p.members[n]?.bind fun m => m.at? x

/-- The members with their positions below the item. -/
def numbered (p : Placed) : List (List Nat × Placed) := p.members.zipIdx.map fun m => ([m.2], m.1)

/-- The item whose members a page lists, with its position below the item of the page: for a package
its first entry point, and otherwise the item itself. -/
def lister? (page : Kind) (p : Placed) : Option (List Nat × Placed) :=
  match page with
  | .package => p.numbered.find? fun a => a.2.self.is .entryPoint
  | _ => some ([], p)

/-- The members that a page lists, with their positions below the item of the page. -/
def listedAt (page : Kind) (p : Placed) : List (List Nat × Placed) :=
  match p.lister? page with
  | none => []
  | some (y, l) => l.numbered.map fun a => (y ++ a.1, a.2)

/-- The page of the item has a row for the item at a position below it. -/
def RowAt (p : Placed) (y : List Nat) (m : Placed) : Prop :=
  ∃ k, p.self.kind.kind? = some k ∧ (y, m) ∈ p.listedAt k ∧ (Section.forMember? k m.self).isSome

/-- The page of the item tabulates the members of the item at a position below it. -/
def TabulatesAt (p : Placed) (y : List Nat) : Prop :=
  ∃ k l, p.self.kind.kind? = some k ∧ Section.allOn k ≠ [] ∧ p.lister? k = some (y, l)

/-- The item at a position below the root has a page: it is the root, or a page has a row for it
and is not that of an enumeration. -/
inductive PageAt (root : Placed) : List Nat → Placed → Prop where
  | root : PageAt root [] root
  | row {y z : List Nat} {p m : Placed} (hp : PageAt root y p) (hm : p.RowAt z m)
      (henum : p.self.is .enum = false) : PageAt root (y ++ z) m

/-- The page has a row for the item at a position below the root. -/
def RowPageAt (root : Placed) (x : List Nat) (q : Placed) : Prop :=
  ∃ y z m, root.PageAt y q ∧ q.RowAt z m ∧ y ++ z = x

/-- The page tabulates the members of the item at a position below the root. -/
def TablePageAt (root : Placed) (x : List Nat) (q : Placed) : Prop :=
  ∃ y z, root.PageAt y q ∧ q.TabulatesAt z ∧ y ++ z = x

variable {root p q q' m : Placed} {k : Kind} {x y z : List Nat}

theorem map_snd_numbered (p : Placed) : p.numbered.map Prod.snd = p.members := by
  rw [numbered, List.map_map]
  exact List.zipIdx_map_fst 0 p.members

theorem exists_of_mem_numbered {a : List Nat × Placed} (h : a ∈ p.numbered) :
    ∃ n, a.1 = [n] ∧ p.members[n]? = some a.2 := by
  obtain ⟨m, hm, rfl⟩ := List.mem_map.1 h
  exact ⟨m.2, rfl, List.mem_zipIdx_iff_getElem?.1 hm⟩

theorem lister_of_ne_package (hk : k ≠ .package) (p : Placed) : p.lister? k = some ([], p) := by
  cases k <;> first | exact absurd rfl hk | rfl

theorem map_snd_lister_package (p : Placed) :
    (p.lister? .package).map Prod.snd = p.entryPoints.head? := by
  rw [entryPoints, List.head?_filter, ← map_snd_numbered, List.find?_map]
  rfl

/-- What a page lists are the members of an item. -/
theorem listed_eq (k : Kind) (p : Placed) :
    p.listed k = ((p.lister? k).map fun a => a.2.members).getD [] := by
  by_cases hk : k = .package
  · subst hk
    rw [listed_package, ← map_snd_lister_package, Option.map_map]
    rfl
  · rw [listed_of_ne_package hk, lister_of_ne_package hk]
    rfl

theorem map_snd_listedAt (k : Kind) (p : Placed) : (p.listedAt k).map Prod.snd = p.listed k := by
  rw [listed_eq, listedAt]
  cases p.lister? k with
  | none => rfl
  | some a =>
    rw [Option.map_some, Option.getD_some, ← map_snd_numbered, List.map_map]
    rfl

/-- The children of an item are the listed members with rows, unless it is an enumeration. -/
theorem children_eq_map_listedAt (hk : p.self.kind.kind? = some k) (henum : k ≠ .enum) :
    p.children = ((p.listedAt k).filter fun a => (Section.forMember? k a.2.self).isSome).map
      Prod.snd := by
  have hchildren : p.children = (p.listed k).filter fun m => (Section.forMember? k m.self).isSome := by
    unfold children
    rw [hk]
    cases k <;> first | exact absurd rfl henum | rfl
  rw [hchildren, ← map_snd_listedAt, List.filter_map]
  rfl

theorem at_append (p : Placed) (y z : List Nat) :
    p.at? (y ++ z) = (p.at? y).bind fun q => q.at? z := by
  induction y generalizing p with
  | nil => rfl
  | cons n y ih => simp only [List.cons_append, at?, ih, Option.bind_assoc]

theorem at_of_mem_numbered {a : List Nat × Placed} (h : a ∈ p.numbered) : p.at? a.1 = some a.2 := by
  obtain ⟨n, hn, hm⟩ := exists_of_mem_numbered h
  rw [hn, at?, hm]
  rfl

/-- Pages list the members of their own item, and those of packages the members of an entry point. -/
theorem lister_cases {l : Placed} (h : p.lister? k = some (z, l)) :
    (k ≠ .package ∧ z = [] ∧ l = p) ∨
      ∃ n, z = [n] ∧ p.at? z = some l ∧ l.self.is .entryPoint = true := by
  by_cases hk : k = .package
  · subst hk
    have hmem := List.mem_of_find?_eq_some h
    obtain ⟨n, hn, -⟩ := exists_of_mem_numbered hmem
    have hentry : l.self.is .entryPoint = true :=
      List.find?_some (p := fun a : List Nat × Placed => a.2.self.is .entryPoint) h
    exact .inr ⟨n, hn, at_of_mem_numbered hmem, hentry⟩
  · rw [lister_of_ne_package hk] at h
    cases h
    exact .inl ⟨hk, rfl, rfl⟩

theorem at_lister {l : Placed} (h : p.lister? k = some (z, l)) : p.at? z = some l := by
  obtain ⟨-, rfl, rfl⟩ | ⟨-, -, hat, -⟩ := lister_cases h
  · rfl
  · exact hat

theorem exists_of_mem_listedAt (h : (z, m) ∈ p.listedAt k) :
    ∃ w l n, p.lister? k = some (w, l) ∧ z = w ++ [n] ∧ l.at? [n] = some m := by
  rw [listedAt] at h
  cases hl : p.lister? k with
  | none =>
    rw [hl] at h
    exact nomatch h
  | some a =>
    obtain ⟨w, l⟩ := a
    rw [hl] at h
    obtain ⟨b, hb, he⟩ := List.mem_map.1 h
    cases he
    obtain ⟨n, hn, -⟩ := exists_of_mem_numbered hb
    exact ⟨w, l, n, rfl, by rw [hn], hn ▸ at_of_mem_numbered hb⟩

theorem RowAt.at_eq (h : p.RowAt z m) : p.at? z = some m := by
  obtain ⟨k, -, hm, -⟩ := h
  obtain ⟨w, l, n, hl, rfl, hat⟩ := exists_of_mem_listedAt hm
  rw [at_append, at_lister hl]
  exact hat

theorem PageAt.at_eq (h : root.PageAt y p) : root.at? y = some p := by
  induction h with
  | root => rfl
  | row _ hm _ ih =>
    rw [at_append, ih]
    exact hm.at_eq

theorem PageAt.unique (h : root.PageAt x q) (h' : root.PageAt x q') : q' = q :=
  Option.some.inj (h'.at_eq.symm.trans h.at_eq)

/-- The page of an entry point has no tables. -/
theorem TabulatesAt.cases (h : p.TabulatesAt z) :
    (z = [] ∧ p.self.is .entryPoint = false) ∨
      ∃ n l, z = [n] ∧ p.at? z = some l ∧ l.self.is .entryPoint = true := by
  obtain ⟨k, l, hk, hne, hl⟩ := h
  obtain ⟨-, rfl, -⟩ | ⟨n, rfl, hat, he⟩ := lister_cases hl
  · refine .inl ⟨rfl, ?_⟩
    rw [Declaration.is, KindLabel.is, hk]
    cases k <;> first | rfl | exact absurd rfl hne
  · exact .inr ⟨n, l, rfl, hat, he⟩

theorem TablePageAt.unique (h : root.TablePageAt x q) (h' : root.TablePageAt x q') : q' = q := by
  obtain ⟨y, z, hq, hz, hx⟩ := h
  obtain ⟨y', z', hq', hz', hx'⟩ := h'
  have hat (w : List Nat) : root.at? (y ++ w) = q.at? w := by rw [at_append, hq.at_eq]; rfl
  have hat' (w : List Nat) : root.at? (y' ++ w) = q'.at? w := by rw [at_append, hq'.at_eq]; rfl
  have hsame : q.at? z = q'.at? z' := by rw [← hat, ← hat', hx, hx']
  obtain ⟨rfl, hpage⟩ | ⟨n, l, rfl, hl, he⟩ := hz.cases
  · obtain ⟨rfl, -⟩ | ⟨n', l', rfl, hl', he'⟩ := hz'.cases
    · exact (Option.some.inj hsame).symm
    · -- one and the same item would be an entry point and none
      rw [hl'] at hsame
      obtain rfl : q = l' := Option.some.inj hsame
      exact absurd (hpage.symm.trans he') Bool.false_ne_true
  · obtain ⟨rfl, hpage'⟩ | ⟨n', l', rfl, -, -⟩ := hz'.cases
    · rw [hl] at hsame
      obtain rfl : l = q' := Option.some.inj hsame
      exact absurd (hpage'.symm.trans he) Bool.false_ne_true
    · obtain ⟨rfl, -⟩ := List.append_inj' (hx'.trans hx.symm) rfl
      exact hq.unique hq'

/-- A page with a row for an item tabulates the members of the item above. -/
theorem RowPageAt.tabulates (h : root.RowPageAt x q) :
    ∃ y n, x = y ++ [n] ∧ root.TablePageAt y q := by
  obtain ⟨y, z, m, hq, ⟨k, hk, hm, hrow⟩, rfl⟩ := h
  obtain ⟨w, l, n, hl, rfl, -⟩ := exists_of_mem_listedAt hm
  obtain ⟨t, ht⟩ := Option.isSome_iff_exists.1 hrow
  have hne : Section.allOn k ≠ [] := List.ne_nil_of_mem (Page.mem_allOn_of_forMember ht)
  exact ⟨y ++ w, n, (List.append_assoc ..).symm, y, w, hq, ⟨k, l, hk, hne, hl⟩, rfl⟩

theorem RowPageAt.unique (h : root.RowPageAt x q) (h' : root.RowPageAt x q') : q' = q := by
  obtain ⟨y, n, rfl, hq⟩ := h.tabulates
  obtain ⟨y', n', hx, hq'⟩ := h'.tabulates
  obtain ⟨rfl, -⟩ := List.append_inj' hx rfl
  exact hq.unique hq'

/-- The members of two items go together by their numbers. -/
theorem forall₂_numbered {P : List Nat → Placed → Placed → Prop} {i i' : Item}
    {chain chain' : List Declaration} (hlen : i'.members.length = i.members.length)
    (h : ∀ n c c', i.members[n]? = some c → i'.members[n]? = some c' →
      P [n] (c.placedBelow (chain ++ [i.self])) (c'.placedBelow (chain' ++ [i'.self]))) :
    List.Forall₂ (fun a m' => P a.1 a.2 m') (i.placedBelow chain).numbered
      (i'.placedBelow chain').members := by
  rw [numbered, Item.members_placedBelow, Item.members_placedBelow, List.forall₂_map_left_iff,
    List.forall₂_map_right_iff]
  refine List.forall₂_iff_get.2 ⟨by simp [hlen], fun n hn hn' => ?_⟩
  have hi : n < i.members.length := hlen ▸ hn'
  have hget : (i.members.map (Item.placedBelow (chain ++ [i.self]))).zipIdx.get ⟨n, hn⟩ =
      (i.members[n].placedBelow (chain ++ [i.self]), n) := by
    simp
  rw [hget]
  exact h n _ _ (List.getElem?_eq_getElem hi) (List.getElem?_eq_getElem hn')

end Placed

end RefSite
