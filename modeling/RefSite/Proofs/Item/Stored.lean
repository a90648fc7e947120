import RefSite.Proofs.Item.Layout
import RefSite.Proofs.Item.ParentLinks
import RefSite.Proofs.Item.Reading
import RefSite.Proofs.Item.Texts

namespace RefSite

namespace Item

open Store

variable {s : Store} {base rest : List Store.Cell} {parent : Option Handle} {d : Declaration}
  {ms : List Item} {i : Item} {h : Handle}

theorem lt_length_cells (base : List Store.Cell) (parent : Option Handle) (h : Handle) (i : Item) :
    base.length < (base ++ i.cells parent h).length := by
  rw [List.length_append, length_cells]
  exact Nat.lt_add_of_pos_right i.size_pos

mutual

theorem isTidy_cells (i : Item) (base : List Store.Cell) (hs : Store.IsTidy ⟨base⟩) :
    Store.IsTidy ⟨base ++ i.cells none base.length⟩ := by
  obtain ⟨d, ms⟩ := i
  have hnew : Store.IsTidy ⟨base ++ (mk d []).cells none base.length⟩ := hs.create d
  exact isTidy_cellsOfAll ms base d [] hnew

theorem isTidy_cellsOfAll (is : List Item) (base : List Store.Cell) (d : Declaration)
    (ms : List Item) (hs : Store.IsTidy ⟨base ++ (mk d ms).cells none base.length⟩) :
    Store.IsTidy ⟨base ++ (mk d (ms ++ is)).cells none base.length⟩ := by
  cases is with
  | nil =>
    rw [List.append_nil]
    exact hs
  | cons i is =>
    -- the member is put in behind the item, as a tree of its own, and then taken in
    let before := base ++ (mk d ms).cells none base.length
    have hi : Store.IsTidy ⟨before ++ i.cells none before.length⟩ := isTidy_cells i before hs
    have hparent : Store.parent? ⟨before ++ i.cells none before.length⟩ before.length = none := by
      have hcell := get_cells before [] none i
      rw [List.append_nil] at hcell
      rw [Store.parent?, hcell]
      rfl
    have hadd := hi.addMember (lt_length_cells before none _ i) hparent
      (lt_length_cells base none _ (mk d ms))
    have hlength : before.length = base.length + (mk d ms).size := by
      rw [List.length_append, length_cells]
    rw [hlength, addMember_cells] at hadd
    have hrest := isTidy_cellsOfAll is base d (ms ++ [i]) hadd
    rw [List.append_assoc] at hrest
    exact hrest

end

mutual

theorem parent_of_mem_cells (p h : Handle) (i : Item) :
    ∀ c ∈ i.cells (some p) h, c.parent.isSome = true := by
  obtain ⟨d, ms⟩ := i
  rw [cells]
  exact List.forall_mem_cons.2 ⟨rfl, parent_of_mem_cellsOfAll _ _ ms⟩

theorem parent_of_mem_cellsOfAll (p h : Handle) (is : List Item) :
    ∀ c ∈ cellsOfAll p h is, c.parent.isSome = true := by
  cases is with
  | nil =>
    rw [cellsOfAll]
    exact List.forall_mem_nil _
  | cons i is =>
    rw [cellsOfAll]
    exact List.forall_mem_append.2
      ⟨parent_of_mem_cells p h i, parent_of_mem_cellsOfAll p _ is⟩

end

theorem root_of_parent_none {k : Handle} (hk : k < i.stored.cells.length)
    (hparent : i.stored.parent? k = none) : k = 0 := by
  obtain ⟨d, ms⟩ := i
  -- the cells after the first are those of members
  cases k with
  | zero => rfl
  | succ k =>
    obtain ⟨c, hc⟩ := Option.isSome_iff_exists.1 (exists_iff_lt.2 hk)
    have hsome : c.parent.isSome = true := by
      unfold stored Store.get? at hc
      rw [cells, List.getElem?_cons_succ] at hc
      exact parent_of_mem_cellsOfAll _ _ ms c (List.mem_of_getElem? hc)
    rw [Store.parent?, hc] at hparent
    rw [show c.parent = none from hparent] at hsome
    exact nomatch hsome

mutual

theorem map_self_cells (parent : Option Handle) (h : Handle) (i : Item) :
    (i.cells parent h).map Store.Cell.self = i.declarations := by
  obtain ⟨d, ms⟩ := i
  rw [cells, List.map_cons, map_self_cellsOfAll, declarations]

theorem map_self_cellsOfAll (p h : Handle) (is : List Item) :
    (cellsOfAll p h is).map Store.Cell.self = declarationsOf is := by
  cases is with
  | nil => rw [cellsOfAll, List.map_nil, declarationsOf]
  | cons i is =>
    rw [cellsOfAll, List.map_append, map_self_cells, map_self_cellsOfAll, declarationsOf]

end

/-- A tree is in the store, from an item down. -/
inductive Holds (s : Store) : Handle → Item → Prop where
  | mk {h : Handle} {c : Store.Cell} {ms : List Item} (hc : s.get? h = some c)
      (hms : List.Forall₂ (Holds s) c.members ms) : Holds s h (mk c.self ms)

mutual

theorem holds_cells (i : Item) (base rest : List Store.Cell) (parent : Option Handle) :
    Holds ⟨base ++ (i.cells parent base.length ++ rest)⟩ base.length i := by
  obtain ⟨d, ms⟩ := i
  have hcell := get_cells base rest parent (mk d ms)
  have hms := holdsAll_cellsOfAll ms (base ++ [⟨d, parent, handlesFrom (base.length + 1) ms⟩]) rest
    base.length
  rw [List.length_append, List.length_singleton, List.append_assoc, List.singleton_append,
    ← List.cons_append, ← cells] at hms
  exact .mk hcell hms

theorem holdsAll_cellsOfAll (is : List Item) (base rest : List Store.Cell) (p : Handle) :
    List.Forall₂ (Holds ⟨base ++ (cellsOfAll p base.length is ++ rest)⟩)
      (handlesFrom base.length is) is := by
  cases is with
  | nil => exact .nil
  | cons i is =>
    have hi := holds_cells i base (cellsOfAll p (base.length + i.size) is ++ rest) (some p)
    have his := holdsAll_cellsOfAll is (base ++ i.cells (some p) base.length) rest p
    rw [List.length_append, length_cells] at his
    rw [cellsOfAll, handlesFrom]
    simp only [List.append_assoc] at hi his ⊢
    exact .cons hi his

end

theorem Holds.exists_cell (hi : Holds s h i) :
    ∃ c, s.get? h = some c ∧ c.self = i.self ∧ List.Forall₂ (Holds s) c.members i.members := by
  cases hi with
  | mk hc hms => exact ⟨_, hc, rfl, hms⟩

/-- The declarations on the way to an item are those above it and its own. -/
theorem selves_hierarchy (hs : s.IsTidy) {c : Store.Cell} (hc : s.get? h = some c) :
    s.selves (s.hierarchy h) = s.selves (s.hierarchy h).dropLast ++ [c.self] := by
  have hh : h < s.cells.length := exists_iff_lt.1 (Option.isSome_iff_exists.2 ⟨c, hc⟩)
  have hlast : ∃ l, s.hierarchy h = l ++ [h] := by
    cases hp : s.parent? h with
    | none => exact ⟨[], hierarchy_of_root hh hp⟩
    | some p => exact ⟨_, hs.hierarchy_of_parent hh hp⟩
  obtain ⟨l, hl⟩ := hlast
  rw [hl, List.dropLast_concat, selves, List.filterMap_append]
  congr 1
  rw [List.filterMap_cons, hc]
  rfl

mutual

theorem placedWithin_of_holds (hs : s.IsTidy) (i : Item) {h : Handle} (hi : Holds s h i)
    {fuel : Nat} (hfuel : i.size ≤ fuel) :
    s.placedWithin fuel h = some (i.placedBelow (s.selves (s.hierarchy h).dropLast)) := by
  obtain ⟨d, ms⟩ := i
  obtain ⟨c, hc, rfl, hms⟩ := hi.exists_cell
  rw [size] at hfuel
  obtain ⟨fuel, rfl⟩ := Nat.exists_eq_add_one_of_ne_zero (Nat.ne_zero_of_lt hfuel)
  have hmembers := allPlacedWithin_of_holds hs ms hms
    (fun m hm => hs.parent ⟨c, hc, hm⟩) (Nat.le_of_succ_le_succ hfuel)
  rw [placedWithin, place?, hc, placedBelow, allPlacedBelow_eq_map]
  simp only [Option.map_some, Option.bind_eq_bind, Option.bind_some]
  rw [hmembers, selves_hierarchy hs hc]

theorem allPlacedWithin_of_holds (hs : s.IsTidy) (is : List Item) {h : Handle} {hms : List Handle}
    (his : List.Forall₂ (Holds s) hms is) (hparent : ∀ m ∈ hms, s.parent? m = some h) {fuel : Nat}
    (hfuel : sizeOfAll is ≤ fuel) :
    s.allPlacedWithin fuel hms = is.map (placedBelow (s.selves (s.hierarchy h))) := by
  cases is with
  | nil =>
    cases his
    rw [allPlacedWithin, List.map_nil]
  | cons i is =>
    obtain _ | @⟨m, _, hms, _, hi, his⟩ := his
    obtain ⟨hm, hparent⟩ := List.forall_mem_cons.1 hparent
    rw [sizeOfAll] at hfuel
    have hpos : 0 < fuel :=
      Nat.lt_of_lt_of_le i.size_pos (Nat.le_of_add_right_le hfuel)
    obtain ⟨fuel, rfl⟩ := Nat.exists_eq_add_one_of_ne_zero (Nat.ne_zero_of_lt hpos)
    have hlisted : m < s.cells.length := by
      obtain ⟨c, hc, -⟩ := hi.exists_cell
      exact exists_iff_lt.1 (Option.isSome_iff_exists.2 ⟨c, hc⟩)
    have hplaced := placedWithin_of_holds hs i hi (Nat.le_of_add_right_le hfuel)
    have hrest := allPlacedWithin_of_holds hs is his hparent (Nat.le_of_add_left_le hfuel)
    -- above a member stands what leads to the item that lists it, and that item
    rw [hs.hierarchy_of_parent hlisted hm, List.dropLast_concat] at hplaced
    rw [allPlacedWithin, hplaced, hrest, List.map_cons]
    rfl

end

theorem isTidy_stored (i : Item) : i.stored.IsTidy := isTidy_cells i [] isTidy_empty

theorem get_stored (i : Item) :
    i.stored.get? 0 = some ⟨i.self, none, handlesFrom 1 i.members⟩ := by
  have hcell := get_cells [] [] none i
  rw [List.append_nil] at hcell
  exact hcell

theorem parent_stored (i : Item) : i.stored.parent? 0 = none := by
  rw [Store.parent?, get_stored]
  rfl

/-- The stored tree, with the places that parents give, is the tree with the places that its lists
give. -/
theorem placed_stored (i : Item) : i.stored.placed? 0 = some i.placed := by
  have hholds : Holds i.stored 0 i := by
    have hcells := holds_cells i [] [] none
    rw [List.append_nil] at hcells
    exact hcells
  have hzero : 0 < i.stored.cells.length := lt_length_cells [] none 0 i
  have hfuel : i.size ≤ i.stored.cells.length + 1 := by
    rw [stored, length_cells]
    exact Nat.le_succ _
  rw [Store.placed?, placedWithin_of_holds (isTidy_stored i) i hholds hfuel,
    hierarchy_of_root hzero (parent_stored i)]
  rfl

theorem isTree_stored (i : Item) : i.stored.IsTree 0 :=
  (isTidy_stored i).isTree (parent_stored i) fun _ hk hp => root_of_parent_none hk hp

/-- The packages that a mapping lists: itself, or those under the key for packages. -/
inductive ListsPackages (es : Entries) : List Value → Prop where
  | one (h : Entries.get? es "packages" = none) : ListsPackages es [.map es]
  | several {v : Value} {vs : List Value} (h : Entries.get? es "packages" = some v)
      (hv : v.body = .list vs) : ListsPackages es vs

/-- The items are the packages that a file lists, in order. -/
def ArePackagesOf (disk : Disk) (p : Path) (is : List Item) : Prop :=
  ∃ es vs, readMapping disk p = .ok es ∧ ListsPackages es vs ∧
    List.Forall₂ (fun v i => ofValue (some p) v = .ok i ∧ i.self.kind.kind? = some .package) vs is

theorem listsPackages_of_rawPackages {p : Path} {es : Entries} {vs : List Value}
    (h : rawPackages p es = .ok vs) : ListsPackages es vs := by
  unfold rawPackages at h
  split at h
  · next hnone =>
    cases h
    exact .one (Option.map_eq_none_iff.1 hnone)
  · next hlist =>
    cases h
    obtain ⟨v, hv, hbody⟩ := Option.map_eq_some_iff.1 hlist
    exact .several hv hbody
  · exact nomatch h

theorem packageOfValue_eq_ok {p : Path} {v : Value} (h : (packageOfValue p v).result = .ok i) :
    ofValue (some p) v = .ok i ∧ i.self.kind.kind? = some .package := by
  obtain ⟨j, hj, h⟩ := Logged.bind_eq_ok.1 h
  split at h
  · next hk =>
    obtain ⟨-, -, h⟩ := Logged.bind_eq_ok.1 h
    cases h
    exact ⟨hj, hk⟩
  · exact nomatch h
  · exact nomatch h

theorem packagesOfValues_eq_ok {p : Path} {vs : List Value} {is : List Item}
    (h : (packagesOfValues p vs).result = .ok is) :
    List.Forall₂ (fun v i => ofValue (some p) v = .ok i ∧ i.self.kind.kind? = some .package)
      vs is := by
  induction vs generalizing is with
  | nil =>
    cases h
    exact .nil
  | cons v vs ih =>
    obtain ⟨i, hi, h⟩ := Logged.bind_eq_ok.1 h
    obtain ⟨is, his, h⟩ := Logged.bind_eq_ok.1 h
    cases h
    exact .cons (packageOfValue_eq_ok hi) (ih his)

theorem loadPackages_eq_ok {disk : Disk} {ps : List Path} {is : List Item}
    (h : (loadPackages disk ps).result = .ok is) :
    ∃ groups, List.Forall₂ (ArePackagesOf disk) ps groups ∧ is = groups.flatten := by
  induction ps generalizing is with
  | nil =>
    cases h
    exact ⟨[], .nil, rfl⟩
  | cons p ps ih =>
    obtain ⟨es, hes, h⟩ := Logged.bind_eq_ok.1 h
    obtain ⟨vs, hvs, h⟩ := Logged.bind_eq_ok.1 h
    obtain ⟨group, hgroup, h⟩ := Logged.bind_eq_ok.1 h
    obtain ⟨rest, hrest, h⟩ := Logged.bind_eq_ok.1 h
    cases h
    obtain ⟨groups, hgroups, rfl⟩ := ih hrest
    have hfile : ArePackagesOf disk p group :=
      ⟨es, vs, hes, listsPackages_of_rawPackages hvs, packagesOfValues_eq_ok hgroup⟩
    exact ⟨group :: groups, .cons hfile hgroups, rfl⟩

/-- A model that is loaded is a tree. The root is a model without a parent, and its members are the
packages of the files, in the order of the files and in the order in each of them. All items are of
known kinds, members have the items that list them for their parents, no item has two positions, and
hierarchies go from the root to the item. -/
theorem loaded_models_are_trees {disk : Disk} {ps : List Path} {name : String}
    (h : (loadModel disk ps name).result = .ok i) :
    i.self = { kind := .known .model, name } ∧
      (∃ groups, List.Forall₂ (ArePackagesOf disk) ps groups ∧ i.members = groups.flatten) ∧
      (∀ m ∈ i.members, m.self.is .package = true) ∧
      (∀ e ∈ i.declarations, e.kind.isKnown = true) ∧
      ∃ s root, storeModel disk ps name = ⟨(loadModel disk ps name).log, .ok (s, root)⟩ ∧
        (∃ c, s.get? root = some c ∧ c.self = i.self ∧ c.parent = none) ∧
        s.cells.map Store.Cell.self = i.declarations ∧ s.placed? root = some i.placed ∧
        s.IsTree root := by
  have hread : i.IsRead := (meets_loadModel disk ps name).of_ok h
  -- the model put together in a store is the one that is read, laid out from the first place on
  have hstore : storeModel disk ps name = ⟨(loadModel disk ps name).log, .ok (i.stored, 0)⟩ := by
    rw [storeModel_eq]
    rcases hload : loadModel disk ps name with ⟨log, result⟩
    rw [hload] at h
    cases h
    rw [Logged.bind_ok, Logged.pure_def, List.append_nil]
  obtain ⟨is, his, hi⟩ := Logged.bind_eq_ok.1 h
  cases hi
  obtain ⟨groups, hgroups, hmembers⟩ := loadPackages_eq_ok his
  refine ⟨rfl, ⟨groups, hgroups, hmembers⟩, ?_, fun e he => (hread e he).kind, _, _, hstore,
    ⟨_, get_stored _, rfl, rfl⟩, map_self_cells _ _ _, placed_stored _, isTree_stored _⟩
  intro m hm
  rw [hmembers] at hm
  obtain ⟨group, hgroup, hm⟩ := List.mem_flatten.1 hm
  obtain ⟨p, -, es, vs, -, -, hall⟩ := exists_of_mem_right hgroups hgroup
  obtain ⟨v, -, -, hk⟩ := exists_of_mem_right hall hm
  exact Declaration.is_iff.2 hk

/-- Two model files. The first lists one mapping twice, the second is a package itself. -/
def sharingDisk : Disk where
  root := .folder
    [("a.api.yml", .file "packages: [&p \x7bkind: Package\x7d, *p]".toUTF8),
      ("b.api.yml", .file "kind: Package".toUTF8)]
  here := []

def sharingPath : Path := ⟨.root, ["a.api.yml"]⟩

def plainPath : Path := ⟨.root, ["b.api.yml"]⟩

def plainFields : Entries := [(.text "kind", .text "Package")]

def plainPackage : Item :=
  mk { kind := .known .package, name := "" } [mk unnamedEntryPoint []]

def isPlain : Value → Bool
  | .map [(.text "kind", .text "Package")] => true
  | _ => false

def isFileOf (isWanted : Entries → Bool) : Except Failure Entries → Bool
  | .ok es => isWanted es
  | .error _ => false

def isSharing : Entries → Bool
  | [(.text "packages", .list [v, w])] => isPlain v && isPlain w
  | _ => false

theorem eq_of_isPlain {v : Value} (h : isPlain v = true) : v = .map plainFields := by
  unfold isPlain at h
  split at h
  · rfl
  · exact nomatch h

theorem eq_of_isSharing {es : Entries} (h : isSharing es = true) :
    es = [(.text "packages", .list [.map plainFields, .map plainFields])] := by
  unfold isSharing at h
  split at h
  · obtain ⟨hv, hw⟩ := Bool.and_eq_true_iff.1 h
    rw [eq_of_isPlain hv, eq_of_isPlain hw]
  · exact nomatch h

theorem exists_of_isFileOf {isWanted : Entries → Bool} {x : Except Failure Entries}
    (h : isFileOf isWanted x = true) : ∃ es, x = .ok es ∧ isWanted es = true := by
  cases x with
  | ok es => exact ⟨es, rfl, h⟩
  | error f => exact nomatch h

theorem packageOfValue_plainFields (p : Path) :
    (packageOfValue p (.map plainFields)).result = .ok plainPackage := by
  have hvalue : ofValue (some p) (.map plainFields) = .ok plainPackage :=
    ofValue_of_parts rfl rfl .nil rfl
  exact Logged.bind_eq_ok.2 ⟨plainPackage, hvalue, rfl⟩

/-- A mapping that stands in two places makes two items. -/
theorem shared_mapping_makes_two_items :
    let i := mk { kind := .known .model, name := "" } [plainPackage, plainPackage, plainPackage]
    (loadModel sharingDisk [sharingPath, plainPath] "").result = .ok i ∧
      ∃ s root, s.cells.map Store.Cell.self = i.declarations ∧ s.IsTree root ∧
        storeModel sharingDisk [sharingPath, plainPath] "" =
          ⟨(loadModel sharingDisk [sharingPath, plainPath] "").log, .ok (s, root)⟩ := by
  intro i
  obtain ⟨es, hsharing, hes⟩ : ∃ es, readMapping sharingDisk sharingPath = .ok es ∧
      isSharing es = true := exists_of_isFileOf (by decide +kernel)
  obtain ⟨fs, hplain, hfs⟩ : ∃ fs, readMapping sharingDisk plainPath = .ok fs ∧
      isPlain (.map fs) = true := exists_of_isFileOf (by decide +kernel)
  cases eq_of_isSharing hes
  cases eq_of_isPlain hfs
  have hpackage (p : Path) := packageOfValue_plainFields p
  have hfirst : (packagesOfValues sharingPath [.map plainFields, .map plainFields]).result =
      .ok [plainPackage, plainPackage] :=
    Logged.bind_eq_ok.2 ⟨_, hpackage _, Logged.bind_eq_ok.2 ⟨[plainPackage],
      Logged.bind_eq_ok.2 ⟨_, hpackage _, rfl⟩, rfl⟩⟩
  have hsecond : (packagesOfValues plainPath [.map plainFields]).result = .ok [plainPackage] :=
    Logged.bind_eq_ok.2 ⟨_, hpackage _, rfl⟩
  have hrest : (loadPackages sharingDisk [plainPath]).result = .ok [plainPackage] :=
    Logged.bind_eq_ok.2 ⟨_, hplain, Logged.bind_eq_ok.2 ⟨_, rfl,
      Logged.bind_eq_ok.2 ⟨_, hsecond, rfl⟩⟩⟩
  have hall : (loadPackages sharingDisk [sharingPath, plainPath]).result =
      .ok [plainPackage, plainPackage, plainPackage] :=
    Logged.bind_eq_ok.2 ⟨_, hsharing, Logged.bind_eq_ok.2 ⟨_, rfl,
      Logged.bind_eq_ok.2 ⟨_, hfirst, Logged.bind_eq_ok.2 ⟨_, hrest, rfl⟩⟩⟩⟩
  have hload : (loadModel sharingDisk [sharingPath, plainPath] "").result = .ok i :=
    Logged.bind_eq_ok.2 ⟨_, hall, rfl⟩
  obtain ⟨-, -, -, -, s, root, hstore, -, hselves, -, htree⟩ := loaded_models_are_trees hload
  exact ⟨hload, s, root, hselves, htree, hstore⟩

end Item

end RefSite
