import RefSite.Item.Build
import RefSite.Proofs.Computations

/-! How a tree of items lies in the store that it was put together in: parents before members, and
the members of an item one after the other with all that is below them. Models that are put together
in a store are those that are read without one. -/
namespace RefSite

namespace Item

open Store

mutual

def size : Item → Nat
  | mk _ ms => sizeOfAll ms + 1

def sizeOfAll : List Item → Nat
  | [] => 0
  | m :: ms => size m + sizeOfAll ms

end

theorem size_pos (i : Item) : 0 < i.size := by
  obtain ⟨d, ms⟩ := i
  rw [size]
  exact Nat.succ_pos _

/-- The numbers of items that lie one after the other from the given number on. -/
def handlesFrom (h : Handle) : List Item → List Handle
  | [] => []
  | i :: is => h :: handlesFrom (h + i.size) is

mutual

/-- The cells of a tree that lies from the given number on. -/
def cells (parent : Option Handle) (h : Handle) : Item → List Store.Cell
  | mk d ms => ⟨d, parent, handlesFrom (h + 1) ms⟩ :: cellsOfAll h (h + 1) ms

/-- The cells of the members of an item, from the given number on. -/
def cellsOfAll (parent h : Handle) : List Item → List Store.Cell
  | [] => []
  | m :: ms => cells (some parent) h m ++ cellsOfAll parent (h + m.size) ms

end

mutual

theorem length_cells (parent : Option Handle) (h : Handle) (i : Item) :
    (i.cells parent h).length = i.size := by
  obtain ⟨d, ms⟩ := i
  rw [cells, List.length_cons, length_cellsOfAll, size]

theorem length_cellsOfAll (parent h : Handle) (is : List Item) :
    (cellsOfAll parent h is).length = sizeOfAll is := by
  cases is with
  | nil => rw [cellsOfAll, sizeOfAll, List.length_nil]
  | cons i is =>
    rw [cellsOfAll, List.length_append, length_cells, length_cellsOfAll, sizeOfAll]

end

variable {base : List Store.Cell} {parent : Option Handle} {d : Declaration} {ms : List Item}
  {i : Item}

theorem handlesFrom_concat (h : Handle) (is : List Item) (i : Item) :
    handlesFrom h (is ++ [i]) = handlesFrom h is ++ [h + sizeOfAll is] := by
  induction is generalizing h with
  | nil => rw [List.nil_append, handlesFrom, handlesFrom, handlesFrom, sizeOfAll, Nat.add_zero,
      List.nil_append]
  | cons j is ih =>
    rw [List.cons_append, handlesFrom, handlesFrom, ih, sizeOfAll, List.cons_append, Nat.add_assoc]

theorem cellsOfAll_concat (p h : Handle) (is : List Item) (i : Item) :
    cellsOfAll p h (is ++ [i]) = cellsOfAll p h is ++ i.cells (some p) (h + sizeOfAll is) := by
  induction is generalizing h with
  | nil => rw [List.nil_append, cellsOfAll, cellsOfAll, cellsOfAll, List.append_nil, sizeOfAll,
      Nat.add_zero, List.nil_append]
  | cons j is ih =>
    rw [List.cons_append, cellsOfAll, cellsOfAll, ih, sizeOfAll, List.append_assoc, Nat.add_assoc]

theorem modify_append_cons (xs ys : List Store.Cell) (c : Store.Cell)
    (f : Store.Cell → Store.Cell) : (xs ++ c :: ys).modify xs.length f = xs ++ f c :: ys := by
  induction xs with
  | nil => rfl
  | cons x xs ih =>
    rw [List.cons_append, List.length_cons, List.modify_succ_cons, ih, List.cons_append]

/-- An item that lies last in the store is taken in by the one that lies right before it. -/
theorem addMember_cells (base : List Store.Cell) (parent : Option Handle) (d : Declaration)
    (ms : List Item) (i : Item) :
    let h := base.length
    let m := h + (mk d ms).size
    (⟨base ++ (mk d ms).cells parent h ++ i.cells none m⟩ : Store).addMember h m =
      ⟨base ++ (mk d (ms ++ [i])).cells parent h⟩ := by
  intro h m
  obtain ⟨e, is⟩ := i
  have hm : (base ++ (mk d ms).cells parent h).length = m := by
    rw [List.length_append, length_cells]
  have hlist : handlesFrom (h + 1) ms ++ [m] = handlesFrom (h + 1) (ms ++ [mk e is]) := by
    rw [handlesFrom_concat]
    congr 2
    simp only [m, size]
    omega
  have hplace : h + 1 + sizeOfAll ms = m := by
    simp only [m, size]
    omega
  unfold Store.addMember setParent Store.modify
  congr 1
  -- the item that is taken in gets its parent
  rw [cells.eq_1 none, ← hm, modify_append_cons, hm]
  -- and the item before it, whose cell is the first one after `base`, gets one more member
  rw [cells, cells, List.append_assoc, List.cons_append, modify_append_cons, hlist,
    cellsOfAll_concat, hplace, cells]

theorem create_cells (base : List Store.Cell) (d : Declaration) :
    (⟨base⟩ : Store).create d [] = (⟨base ++ (mk d []).cells none base.length⟩, base.length) := rfl

/-- The unnamed entry point of a new item lies right after it. -/
theorem withContainer_cells (base : List Store.Cell) {es : Entries}
    (h : needsEntryPoint d es = true) :
    withContainer d es ⟨base ++ (mk d []).cells none base.length⟩ base.length =
      (⟨base ++ (mk d [mk unnamedEntryPoint []]).cells none base.length⟩, base.length + 1) := by
  have hlength : (base ++ (mk d []).cells none base.length).length = base.length + 1 := by
    rw [List.length_append, length_cells]
    rfl
  rw [withContainer, if_pos h, create_cells, hlength]
  exact congrArg (fun s => (s, base.length + 1))
    (addMember_cells base none d [] (mk unnamedEntryPoint []))

/-- An item with an unnamed entry point, seen from the entry point. -/
theorem cells_entryPoint (base : List Store.Cell) (d : Declaration) (ms : List Item) :
    base ++ (mk d [mk unnamedEntryPoint ms]).cells none base.length =
      base ++ [(⟨d, none, [base.length + 1]⟩ : Store.Cell)] ++
        (mk unnamedEntryPoint ms).cells (some base.length) (base.length + 1) := by
  rw [cells, handlesFrom, handlesFrom, cellsOfAll, cellsOfAll, List.append_nil, List.append_assoc]
  rfl

/-- Members that a new item, or its unnamed entry point, takes in make the item that is assembled
from them. -/
theorem storeMembers_withContainer (source : Option Path) (vs : List Value)
    (base : List Store.Cell) (d : Declaration) (es : Entries)
    (hmembers : ∀ base parent d,
      storeMembers source base.length vs ⟨base ++ (mk d []).cells parent base.length⟩ =
        (ofValues source vs).map fun ms => ⟨base ++ (mk d ms).cells parent base.length⟩) :
    let c := withContainer d es ⟨base ++ (mk d []).cells none base.length⟩ base.length
    storeMembers source c.2 vs c.1 =
      (ofValues source vs).map fun ms => ⟨base ++ (assemble d es ms).cells none base.length⟩ := by
  intro c
  by_cases hentry : needsEntryPoint d es = true
  · have hcontainer : c = (⟨base ++ (mk d [mk unnamedEntryPoint []]).cells none base.length⟩,
        base.length + 1) := withContainer_cells base hentry
    have hassemble (ms : List Item) : assemble d es ms = mk d [mk unnamedEntryPoint ms] :=
      if_pos hentry
    have hlength : (base ++ [(⟨d, none, [base.length + 1]⟩ : Store.Cell)]).length =
        base.length + 1 := List.length_append ..
    -- the entry point is the last item in a store that has one more cell
    have hinside := hmembers (base ++ [⟨d, none, [base.length + 1]⟩]) (some base.length)
      unnamedEntryPoint
    rw [hlength] at hinside
    rw [hcontainer, cells_entryPoint, hinside]
    simp only [hassemble, cells_entryPoint]
  · have hcontainer : c = (⟨base ++ (mk d []).cells none base.length⟩, base.length) :=
      if_neg hentry
    have hassemble (ms : List Item) : assemble d es ms = mk d ms := if_neg hentry
    rw [hcontainer, hmembers]
    simp only [hassemble]

theorem ofValue_eq (source : Option Path) (v : Value) :
    ofValue source v = v.entriesOr (.model (.itemNotMapping source v)) >>= fun es =>
      declarationOf source es >>= fun d => (membersField es).givenElements >>= fun vs =>
        (ofValues source vs).map (assemble d es) := by
  rw [ofValue]
  split
  · next f h => rw [h]; rfl
  · next es h =>
    rw [h]
    change _ = declarationOf source es >>= _
    cases declarationOf source es with
    | error f => rfl
    | ok d =>
      change _ = (membersField es).givenElements >>= _
      dsimp only
      split
      · next f h' => rw [h']; rfl
      · next vs h' =>
        rw [h']
        change _ = (ofValues source vs).map _
        cases ofValues source vs <;> rfl

mutual

/-- An item is put into a store as it is read without one, and lies behind all that was there. -/
theorem storeValue_eq (source : Option Path) (v : Value) (base : List Store.Cell) :
    storeValue source v ⟨base⟩ =
      (ofValue source v).map fun i => (⟨base ++ i.cells none base.length⟩, base.length) := by
  -- both read the same things in the same order, so they fail alike at each
  rw [storeValue, ofValue_eq]
  split
  · next f h => rw [h]; rfl
  · next es h =>
    rw [h]
    change _ = Except.map _ (declarationOf source es >>= _)
    cases declarationOf source es with
    | error f => rfl
    | ok d =>
      change _ = Except.map _ ((membersField es).givenElements >>= _)
      dsimp only
      split
      · next f h' => rw [h']; rfl
      · next vs h' =>
        rw [h']
        have hdepth : Value.depthAll vs < v.depth :=
          Nat.lt_of_le_of_lt
            (Nat.le_trans (Value.depthAll_of_givenElements h') (depth_membersField_le es))
            (Value.depthEntries_of_entriesOr h)
        change _ = Except.map _ ((ofValues source vs).map _)
        have hmembers := storeMembers_withContainer source vs base d es
          fun base parent d => storeMembers_eq source vs base parent d []
        rw [create_cells]
        dsimp only at hmembers ⊢
        rw [hmembers]
        cases ofValues source vs with
        | error f => rfl
        | ok ms => rfl
termination_by (v.depth, 0)
decreasing_by
  all_goals simp [Prod.lex_def]; omega

/-- An item takes in members as they are read. -/
theorem storeMembers_eq (source : Option Path) (vs : List Value) (base : List Store.Cell)
    (parent : Option Handle) (d : Declaration) (ms : List Item) :
    storeMembers source base.length vs ⟨base ++ (mk d ms).cells parent base.length⟩ =
      (ofValues source vs).map fun is =>
        ⟨base ++ (mk d (ms ++ is)).cells parent base.length⟩ := by
  cases vs with
  | nil =>
    rw [storeMembers, ofValues, Except.map, List.append_nil]
  | cons v vs =>
    have hlength : (base ++ (mk d ms).cells parent base.length).length =
        base.length + (mk d ms).size := by
      rw [List.length_append, length_cells]
    rw [storeMembers, ofValues, storeValue_eq]
    cases ofValue source v with
    | error f => rfl
    | ok i =>
      rw [Except.map, hlength]
      dsimp only
      -- the new item lies behind the others, where it is taken in as the last of them
      rw [addMember_cells, storeMembers_eq]
      cases ofValues source vs with
      | error f => rfl
      | ok is => rw [Except.map, Except.map, List.append_assoc]; rfl
termination_by (Value.depthAll vs, vs.length)
decreasing_by
  all_goals simp [Prod.lex_def, Value.depthAll]; omega

end

/-- The first cell of a tree. -/
theorem get_cells (base rest : List Store.Cell) (parent : Option Handle) (i : Item) :
    (⟨base ++ (i.cells parent base.length ++ rest)⟩ : Store).get? base.length =
      some ⟨i.self, parent, handlesFrom (base.length + 1) i.members⟩ := by
  obtain ⟨d, ms⟩ := i
  rw [Store.get?, cells, List.cons_append, List.getElem?_append_right (Nat.le_refl _),
    Nat.sub_self]
  rfl

/-- A model, or what is there of it, in a store of its own. -/
def stored (i : Item) : Store := ⟨i.cells none 0⟩

theorem ofResult_bind {α β : Type} (a : α) (f : α → Logged β) :
    Logged.ofResult (.ok a) >>= f = f a := rfl

theorem storePackage_eq (p : Path) (v : Value) (d : Declaration) (ms : List Item) :
    storePackage p 0 v (mk d ms).stored =
      packageOfValue p v >>= fun i => pure (mk d (ms ++ [i])).stored := by
  have hlength : ((mk d ms).cells none 0).length = 0 + (mk d ms).size := by
    rw [length_cells, Nat.zero_add]
  unfold storePackage packageOfValue stored
  rw [storeValue_eq, Logged.bind_assoc]
  cases ofValue (some p) v with
  | error f => rfl
  | ok i =>
    have hself := get_cells ((mk d ms).cells none 0) [] none i
    rw [List.append_nil] at hself
    have hadd : (⟨(mk d ms).cells none 0 ++ i.cells none ((mk d ms).cells none 0).length⟩ :
        Store).addMember 0 ((mk d ms).cells none 0).length =
          ⟨(mk d (ms ++ [i])).cells none 0⟩ := by
      rw [hlength]
      exact addMember_cells [] none d ms i
    rw [Except.map, ofResult_bind, ofResult_bind]
    dsimp only
    rw [hself, Option.map_some, Option.getD_some, hadd]
    -- only a package is taken in
    cases hk : i.self.kind.kind? with
    | none => rfl
    | some k => cases k <;> rfl

theorem storePackages_eq (p : Path) (vs : List Value) (d : Declaration) (ms : List Item) :
    storePackages p 0 vs (mk d ms).stored =
      packagesOfValues p vs >>= fun is => pure (mk d (ms ++ is)).stored := by
  induction vs generalizing ms with
  | nil =>
    rw [storePackages, packagesOfValues, Logged.pure_bind, List.append_nil]
  | cons v vs ih =>
    rw [storePackages, packagesOfValues, storePackage_eq, Logged.bind_assoc, Logged.bind_assoc]
    congr 1
    funext i
    rw [Logged.pure_bind, ih, Logged.bind_assoc]
    congr 1
    funext is
    rw [Logged.pure_bind, List.append_assoc]
    rfl

theorem storeFiles_eq (disk : Disk) (ps : List Path) (d : Declaration) (ms : List Item) :
    storeFiles disk 0 ps (mk d ms).stored =
      loadPackages disk ps >>= fun is => pure (mk d (ms ++ is)).stored := by
  induction ps generalizing ms with
  | nil =>
    rw [storeFiles, loadPackages, Logged.pure_bind, List.append_nil]
  | cons p ps ih =>
    rw [storeFiles, loadPackages, Logged.bind_assoc]
    congr 1
    funext es
    rw [Logged.bind_assoc]
    congr 1
    funext vs
    rw [storePackages_eq, Logged.bind_assoc, Logged.bind_assoc]
    congr 1
    funext is
    rw [Logged.pure_bind, ih, Logged.bind_assoc]
    congr 1
    funext js
    rw [Logged.pure_bind, List.append_assoc]

/-- A model is put together in a store as it is read without one. -/
theorem storeModel_eq (disk : Disk) (ps : List Path) (name : String) :
    storeModel disk ps name = loadModel disk ps name >>= fun i => pure (i.stored, 0) := by
  have hfiles := storeFiles_eq disk ps { kind := .known .model, name } []
  unfold storeModel loadModel
  rw [Logged.bind_assoc]
  change storeFiles disk 0 ps (mk { kind := .known .model, name } []).stored >>= _ = _
  rw [hfiles, Logged.bind_assoc]
  rfl

end Item

end RefSite
