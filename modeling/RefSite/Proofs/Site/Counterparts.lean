import RefSite.Proofs.Site.Positions
import RefSite.Proofs.Site.Shown

/-! Two trees that differ in one item. Every item of the one has a counterpart in the other, which
stands below items of the same names, and is the same item unless the one that differs is in it. -/
namespace RefSite

open List (Forall₂)

/-- The item can be put in the place of the other: it has the same name, and it has the same members
in some order. A package keeps its first entry point. -/
structure Item.StandsFor (new old : Item) : Prop where
  identity : new.self.identity = old.self.identity
  members : new.members.Perm old.members
  first : old.self.is .package = true → new.entryPoints.head? = old.entryPoints.head?

namespace Placed

/-- The second item is what becomes of the first, which stands at the position `y`, when the item
`old` at the position `x` is replaced by `new`. -/
inductive Counterpart (x : List Nat) (old new : Item) : List Nat → Placed → Placed → Prop where
  /-- The item that is replaced is in the item. -/
  | above {y z : List Nat} {chain chain' : List Declaration} {i : Item} (hx : y ++ z = x)
      (hi : i.at? z = some old)
      (hchain : chain'.map Declaration.identity = chain.map Declaration.identity) :
      Counterpart x old new y (i.placedBelow chain) ((i.replaceAt z new).placedBelow chain')
  | apart {y : List Nat} {chain chain' : List Declaration} {i : Item} (hx : ¬ y <+: x)
      (hchain : chain'.map Declaration.identity = chain.map Declaration.identity) :
      Counterpart x old new y (i.placedBelow chain) (i.placedBelow chain')

namespace Counterpart

variable {x y : List Nat} {old new : Item} {p p' : Placed} {k : Kind}

/-- The members of the item that is replaced are the same items as before. -/
theorem member (n : Nat) {chain chain' : List Declaration} (i : Item)
    (hchain : chain'.map Declaration.identity = chain.map Declaration.identity) :
    Counterpart x old new (x ++ [n]) (i.placedBelow chain) (i.placedBelow chain') := by
  refine .apart (fun hpre => ?_) hchain
  have hlen := hpre.length_le
  rw [List.length_append, List.length_singleton] at hlen
  omega

/-- What stands at the position itself is replaced. -/
theorem eq_new (h : Counterpart x old new x p p') : ∃ chain chain',
    p = old.placedBelow chain ∧ p' = new.placedBelow chain' ∧
      chain'.map Declaration.identity = chain.map Declaration.identity := by
  cases h with
  | @above z chain chain' i hx hi hchain =>
    obtain rfl : z = [] := List.append_right_eq_self.1 hx
    cases hi
    exact ⟨chain, chain', rfl, rfl, hchain⟩
  | apart hx _ => exact absurd List.prefix_rfl hx

theorem place_eq (h : Counterpart x old new y p p') (hy : y ≠ x) :
    p'.place.self = p.place.self ∧
      p'.place.above.map Declaration.identity = p.place.above.map Declaration.identity := by
  cases h with
  | @above z chain chain' i hx hi hchain =>
    rw [Item.place_placedBelow, Item.place_placedBelow]
    refine ⟨?_, hchain⟩
    cases z with
    | nil => exact absurd ((List.append_nil y).symm.trans hx) hy
    | cons n z => rfl
  | apart _ hchain =>
    rw [Item.place_placedBelow, Item.place_placedBelow]
    exact ⟨rfl, hchain⟩

theorem identity_eq (h : Counterpart x old new y p p')
    (hid : new.self.identity = old.self.identity) : p'.place.identity = p.place.identity := by
  by_cases hy : y = x
  · subst hy
    obtain ⟨chain, chain', rfl, rfl, hchain⟩ := h.eq_new
    rw [Item.place_placedBelow, Item.place_placedBelow, Place.identity, Place.identity, hchain, hid]
  · obtain ⟨hself, habove⟩ := h.place_eq hy
    rw [Place.identity, Place.identity, habove, hself]

theorem kind_eq (h : Counterpart x old new y p p')
    (hid : new.self.identity = old.self.identity) : p'.self.kind = p.self.kind :=
  Declaration.kind_of_identity (congrArg Place.self (h.identity_eq hid))

/-- The chain above the members. -/
theorem levels_eq (h : Counterpart x old new y p p')
    (hid : new.self.identity = old.self.identity) :
    p'.place.levels.map Declaration.identity = p.place.levels.map Declaration.identity := by
  rw [← Place.levels_identity, h.identity_eq hid, Place.levels_identity]

/-- The page of a counterpart shows the same of its own item, unless this is the one replaced. -/
theorem onPage_eq (h : Counterpart x old new y p p')
    (hself : y = x → new.self.onPage = old.self.onPage) : p'.place.onPage = p.place.onPage := by
  by_cases hy : y = x
  · subst hy
    have hself := hself rfl
    obtain ⟨chain, chain', rfl, rfl, hchain⟩ := h.eq_new
    rw [Item.place_placedBelow, Item.place_placedBelow, Place.onPage, Place.onPage, hchain, hself]
  · obtain ⟨hself, habove⟩ := h.place_eq hy
    rw [Place.onPage, Place.onPage, habove, hself]

/-- The row of a counterpart shows the same, unless this is the item that is replaced. -/
theorem inRow_eq (h : Counterpart x old new y p p')
    (hself : y = x → new.self.inRow = old.self.inRow) : p'.place.inRow = p.place.inRow := by
  by_cases hy : y = x
  · subst hy
    have hself := hself rfl
    obtain ⟨chain, chain', rfl, rfl, hchain⟩ := h.eq_new
    rw [Item.place_placedBelow, Item.place_placedBelow, Place.inRow, Place.inRow, hchain, hself]
  · obtain ⟨hself, habove⟩ := h.place_eq hy
    rw [Place.inRow, Place.inRow, habove, hself]

/-- Members are counterparts by their positions, except those of the item that is replaced. -/
theorem numbered (h : Counterpart x old new y p p') (hid : new.self.identity = old.self.identity)
    (hy : y ≠ x) : Forall₂ (fun a m' => Counterpart x old new (y ++ a.1) a.2 m')
      p.numbered p'.members := by
  have hlevels := h.levels_eq hid
  cases h with
  | @above z chain chain' i hx hi hchain =>
    rw [Item.place_placedBelow, Item.place_placedBelow] at hlevels
    cases z with
    | nil => exact absurd ((List.append_nil y).symm.trans hx) hy
    | cons n z =>
      -- the item that is replaced is in member number `n`, and the other members are apart from it
      obtain ⟨j, hj, hat⟩ := Item.exists_of_at_cons hi
      refine forall₂_numbered (P := fun z => Counterpart x old new (y ++ z))
        (i.length_members_replaceAt new n z) fun k c c' hc hc' => ?_
      by_cases hk : n = k
      · subst hk
        rw [Item.members_replaceAt_self hj] at hc'
        rw [hj] at hc
        cases hc
        cases hc'
        exact .above (by rw [List.append_assoc]; exact hx) hat hlevels
      · rw [Item.members_replaceAt_of_ne hk, hc] at hc'
        cases hc'
        refine .apart (fun hpre => hk ?_) hlevels
        rw [← hx, List.prefix_append_right_inj] at hpre
        exact (List.cons_prefix_cons.1 hpre).1.symm
  | @apart chain chain' i hx hchain =>
    rw [Item.place_placedBelow, Item.place_placedBelow] at hlevels
    refine forall₂_numbered (P := fun z => Counterpart x old new (y ++ z)) rfl
      fun n c c' hc hc' => ?_
    rw [hc] at hc'
    cases hc'
    exact .apart (fun hpre => hx ((List.prefix_append y [n]).trans hpre)) hlevels

/-- Pages list the members of counterparts. -/
theorem lister (h : Counterpart x old new y p p') (hs : new.StandsFor old)
    (hk : p.self.kind.kind? = some k) : (p.lister? k = none ∧ p'.listed k = []) ∨
      ∃ z l l', p.lister? k = some (z, l) ∧ p'.listed k = l'.members ∧
        Counterpart x old new (y ++ z) l l' := by
  by_cases hpackage : k = .package
  · subst hpackage
    rw [listed_package]
    by_cases hy : y = x
    · -- the first entry point is the same one, wherever it stands among the members
      subst hy
      have hlevels := h.levels_eq hs.identity
      obtain ⟨chain, chain', rfl, rfl, -⟩ := h.eq_new
      rw [Item.place_placedBelow, Item.place_placedBelow] at hlevels
      have hkind : old.self.is .package = true := by
        rw [self, Item.place_placedBelow] at hk
        simp only [Declaration.is, KindLabel.is, hk]
        rfl
      have hsnd := map_snd_lister_package (old.placedBelow chain)
      rw [entryPoints_placedBelow, List.head?_map] at hsnd ⊢
      rw [hs.first hkind]
      cases hl : (old.placedBelow chain).lister? .package with
      | none =>
        rw [hl] at hsnd
        rw [Option.map_eq_none_iff.1 hsnd.symm]
        exact .inl ⟨rfl, rfl⟩
      | some a =>
        obtain ⟨z, l⟩ := a
        rw [hl] at hsnd
        obtain ⟨e, he, hel⟩ := Option.map_eq_some_iff.1 hsnd.symm
        obtain rfl : _ = l := hel
        obtain ⟨n, hz, -⟩ := exists_of_mem_numbered (List.mem_of_find?_eq_some hl)
        obtain rfl : z = [n] := hz
        rw [he]
        exact .inr ⟨[n], _, _, rfl, rfl, .member n e hlevels⟩
    · have hmembers := h.numbered hs.identity hy
      have hfind := forall₂_find (f := fun a => a.2.self.is .entryPoint)
        (g := fun m => m.self.is .entryPoint)
        (fun a m' hm => by rw [Declaration.is, hm.kind_eq hs.identity, Declaration.is]) hmembers
      rw [entryPoints, List.head?_filter]
      obtain ⟨hl, hl'⟩ | ⟨⟨z, l⟩, l', hl, hl', hll⟩ := hfind
      · rw [hl']
        exact .inl ⟨hl, rfl⟩
      · rw [hl']
        exact .inr ⟨z, l, l', hl, rfl, hll⟩
  · refine .inr ⟨[], p, p', lister_of_ne_package hpackage p, listed_of_ne_package hpackage p', ?_⟩
    rwa [List.append_nil]

/-- What pages list are counterparts, in order unless members of the item that is replaced are
listed and these have another order. -/
theorem listedAt (h : Counterpart x old new y p p') (hs : new.StandsFor old)
    (hk : p.self.kind.kind? = some k) : ∃ ms, ms.Perm (p'.listed k) ∧
      Forall₂ (fun a m' => Counterpart x old new (y ++ a.1) a.2 m') (p.listedAt k) ms ∧
      ((∀ z l, p.lister? k = some (z, l) → y ++ z ≠ x) ∨ new.members = old.members →
        ms = p'.listed k) := by
  rw [Placed.listedAt]
  obtain ⟨hl, hl'⟩ | ⟨z, l, l', hl, hl', hll⟩ := h.lister hs hk
  · rw [hl, hl']
    exact ⟨[], .nil, .nil, fun _ => rfl⟩
  rw [hl, hl']
  have shift {ms : List Placed}
      (hms : Forall₂ (fun a m' => Counterpart x old new (y ++ z ++ a.1) a.2 m') l.numbered ms) :
      Forall₂ (fun a m' => Counterpart x old new (y ++ a.1) a.2 m')
        (l.numbered.map fun a => (z ++ a.1, a.2)) ms := by
    rw [List.forall₂_map_left_iff]
    refine hms.imp fun a m' hm => ?_
    rwa [← List.append_assoc]
  by_cases hx : y ++ z = x
  · -- the members are the same items below the new one, and only their order can be another
    subst hx
    have hlevels := hll.levels_eq hs.identity
    obtain ⟨chain, chain', rfl, rfl, -⟩ := hll.eq_new
    rw [Item.place_placedBelow, Item.place_placedBelow] at hlevels
    rw [Item.members_placedBelow]
    refine ⟨old.members.map (Item.placedBelow (chain' ++ [new.self])), hs.members.symm.map _,
      shift ?_, ?_⟩
    · have hsame : Forall₂ (fun a m' => Counterpart (y ++ z) old new (y ++ z ++ a.1) a.2 m')
          (old.placedBelow chain).numbered
          ((Item.mk new.self old.members).placedBelow chain').members :=
        forall₂_numbered (P := fun w => Counterpart (y ++ z) old new (y ++ z ++ w)) rfl
          fun n c c' hc hc' => by
            cases hc.symm.trans hc'
            exact .member n c hlevels
      rwa [Item.members_placedBelow] at hsame
    · rintro (hne | hmembers)
      · exact absurd rfl (hne z _ rfl)
      · rw [hmembers]
  · exact ⟨l'.members, .refl _, shift (hll.numbered hs.identity hx), fun _ => rfl⟩

/-- Counterparts are listed in the same way, unless the item that is replaced has a row that shows
something else. -/
theorem rowsAgree {ms : List Placed} (hid : new.self.identity = old.self.identity)
    (hk : p.self.kind.kind? = some k)
    (hms : Forall₂ (fun a m' => Counterpart x old new (y ++ a.1) a.2 m') (p.listedAt k) ms)
    (hrow : ∀ z m, p.RowAt z m → y ++ z = x → new.self.inRow = old.self.inRow) :
    Forall₂ (Page.RowsAgree k) (p.listed k) ms := by
  rw [← map_snd_listedAt, List.forall₂_map_left_iff]
  refine ((List.forall₂_and_left _ _).2 ⟨fun a ha => ha, hms⟩).imp fun a m' ha => ?_
  obtain ⟨ha, hm⟩ := ha
  exact ⟨hm.kind_eq hid, fun hsome => hm.inRow_eq fun hx => hrow a.1 a.2 ⟨k, hk, ha, hsome⟩ hx⟩

/-- The page of a counterpart says the same, unless it is the page of the item that is replaced and
shows something else of it, or has a row for this item that shows something else, or tabulates its
members in another order. -/
theorem text_eq (h : Counterpart x old new y p p') (hs : new.StandsFor old) {origin : Log.Origin}
    (c : Config) {root root' : Place} (hroot : root'.identity = root.identity)
    (hpage : y = x → new.self.onPage = old.self.onPage)
    (hrow : ∀ z m, p.RowAt z m → y ++ z = x → new.self.inRow = old.self.inRow)
    (horder : ∀ z, p.TabulatesAt z → y ++ z = x → new.members = old.members) :
    Page.text origin c root' p' = Page.text origin c root p := by
  refine Page.text_congr c hroot (h.onPage_eq hpage) fun k hk hne => ?_
  obtain ⟨ms, -, hms, hkept⟩ := h.listedAt hs hk
  have hlisted : ms = p'.listed k := by
    apply hkept
    by_cases hmembers : new.members = old.members
    · exact .inr hmembers
    · exact .inl fun z l hl hx => hmembers (horder z ⟨k, l, hk, hne, hl⟩ hx)
  subst hlisted
  exact Page.rows_congr (rowsAgree hs.identity hk hms hrow)

/-- The children of an item that has a page have counterparts, in order if the item that is
replaced keeps its members in order. -/
theorem children (h : Counterpart x old new y p p') (hs : new.StandsFor old) :
    ∃ qs, qs.Perm p'.children ∧ Forall₂ (fun q q' => ∃ z, p.RowAt z q ∧
      p.self.is .enum = false ∧ Counterpart x old new (y ++ z) q q') p.children qs ∧
      (new.members = old.members → qs = p'.children) := by
  have hkind := h.kind_eq hs.identity
  cases hk : p.self.kind.kind? with
  | none =>
    rw [Placed.children, Placed.children, hkind, hk]
    exact ⟨[], .nil, .nil, fun _ => rfl⟩
  | some k =>
    by_cases henum : k = .enum
    · subst henum
      rw [Placed.children, Placed.children, hkind, hk]
      exact ⟨[], .nil, .nil, fun _ => rfl⟩
    have hk' : p'.self.kind.kind? = some k := by rw [hkind, hk]
    have hnot : p.self.is .enum = false := by
      simp only [Declaration.is, KindLabel.is, hk]
      simpa using henum
    obtain ⟨ms, hperm, hms, horder⟩ := h.listedAt hs hk
    -- which of the listed members have rows is told by their kinds, which counterparts share
    let hasRow (m : Placed) : Bool := (Section.forMember? k m.self).isSome
    have hchildren' : p'.children = (p'.listed k).filter hasRow := by
      rw [children_eq_map_listedAt hk' henum, ← map_snd_listedAt, List.filter_map]
      rfl
    have hrows : Forall₂ (fun a m' => Counterpart x old new (y ++ a.1) a.2 m')
        ((p.listedAt k).filter fun a => hasRow a.2) (ms.filter hasRow) := by
      refine List.rel_filter (fun a m' hm => ?_) hms
      change hasRow a.2 = true ↔ hasRow m' = true
      simp only [hasRow, Page.isSome_forMember_congr (hm.kind_eq hs.identity)]
    rw [children_eq_map_listedAt hk henum, hchildren']
    refine ⟨ms.filter hasRow, hperm.filter _, ?_, fun hmem => by rw [horder (.inr hmem)]⟩
    rw [List.forall₂_map_left_iff]
    have hmem : ∀ a ∈ (p.listedAt k).filter fun a => hasRow a.2, p.RowAt a.1 a.2 := by
      intro a ha
      obtain ⟨ha, hrow⟩ := List.mem_filter.1 ha
      exact ⟨k, hk, ha, hrow⟩
    refine ((List.forall₂_and_left _ _).2 ⟨hmem, hrows⟩).imp fun a m' ha => ?_
    exact ⟨a.1, ha.1, hnot, ha.2⟩

end Counterpart

variable {x : List Nat} {old new i : Item}

theorem root_counterpart (hx : i.at? x = some old) :
    Counterpart x old new [] i.placed (i.replaceAt x new).placed := .above rfl hx rfl

theorem root_identity_eq (hx : i.at? x = some old) (hid : new.self.identity = old.self.identity) :
    (i.replaceAt x new).placed.place.identity = i.placed.place.identity :=
  (root_counterpart hx).identity_eq hid

/-- The pages of the two trees are those of counterparts, in order if the item that is replaced
keeps its members in order. -/
theorem pages_counterparts (hs : new.StandsFor old) (hx : i.at? x = some old) :
    ∃ qs, qs.Perm (i.replaceAt x new).placed.pages ∧ Forall₂ (fun q q' => ∃ y,
      i.placed.PageAt y q ∧ Counterpart x old new y q q') i.placed.pages qs ∧
      (new.members = old.members → qs = (i.replaceAt x new).placed.pages) := by
  let R (q q' : Placed) : Prop := ∃ y, i.placed.PageAt y q ∧ Counterpart x old new y q q'
  have hroot : R i.placed (i.replaceAt x new).placed := ⟨[], .root, root_counterpart hx⟩
  have hchildren (p p' : Placed) (h : R p p') : ∃ qs, qs.Perm p'.children ∧
      Forall₂ R p.children qs ∧ (new.members = old.members → qs = p'.children) := by
    obtain ⟨y, hy, hp⟩ := h
    obtain ⟨qs, hqs, hrows, horder⟩ := hp.children hs
    refine ⟨qs, hqs, hrows.imp fun q q' hq => ?_, horder⟩
    obtain ⟨z, hz, henum, hq⟩ := hq
    exact ⟨y ++ z, .row hy hz henum, hq⟩
  -- the order of the pages is only known where that of all children is
  by_cases hmembers : new.members = old.members
  · refine ⟨_, .refl _, pages_forall₂ (fun p p' h => ?_) hroot, fun _ => rfl⟩
    obtain ⟨qs, -, hqs, horder⟩ := hchildren p p' h
    rwa [horder hmembers] at hqs
  · obtain ⟨qs, hqs, hpages⟩ := pages_perm (fun p p' h => by
      obtain ⟨qs, hperm, hqs, -⟩ := hchildren p p' h
      exact ⟨qs, hperm, hqs⟩) hroot
    exact ⟨qs, hqs, hpages, fun h => absurd h hmembers⟩

end Placed

end RefSite
