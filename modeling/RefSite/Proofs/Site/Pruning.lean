import RefSite.Proofs.Site.Correspondence
import RefSite.Proofs.Site.KnownKinds
import RefSite.Proofs.Site.Order
import RefSite.Proofs.Site.Shown
import RefSite.Site.Prune

namespace RefSite

open List (Forall₂)

namespace Item

theorem pruneListed_eq (page : Kind) (is : List Item) :
    pruneListed page is = (is.filter (isListedOn page)).map prune := by
  induction is with
  | nil => rw [pruneListed, List.filter_nil, List.map_nil]
  | cons i is ih =>
    rw [pruneListed, List.filter_cons, ih]
    split
    · rfl
    · rfl

/-- What is left of a package is its first entry point, with the members that are listed. -/
theorem head_entryPoints_prune {d : Declaration} (hd : d.kind.kind? = some .package)
    (ms : List Item) : (mk d ms).prune.entryPoints.head? =
      (mk d ms).entryPoints.head?.map fun e => mk e.self (pruneListed .package e.members) := by
  have hprune : (mk d ms).prune = mk d (pruneFirstEntryPoint ms) := by
    rw [prune, hd]
  rw [hprune, entryPoints, entryPoints, members, members]
  -- what precedes the first entry point is removed, and so is what follows it
  clear hprune hd
  induction ms with
  | nil => rw [pruneFirstEntryPoint]; rfl
  | cons m ms ih =>
    obtain ⟨e, es⟩ := m
    have hself (is : List Item) : (mk e is).self = e := rfl
    rw [pruneFirstEntryPoint, List.filter_cons, hself]
    by_cases he : e.is .entryPoint = true
    · rw [if_pos he, if_pos he, List.filter_cons, hself, if_pos he]
      rfl
    · rw [if_neg he, if_neg he, ih]

end Item

namespace Placed

/-- The second tree is the first one without the items that no page lists. -/
def PrunedTo (p p' : Placed) : Prop :=
  ∃ above i, p = Item.placedBelow above i ∧ p' = Item.placedBelow above i.prune ∧ p.HasKnownKinds

variable {p p' : Placed} {page k : Kind} {above : List Declaration} {is : List Item}

theorem PrunedTo.place (h : PrunedTo p p') : p'.place = p.place := by
  obtain ⟨above, i, rfl, rfl, -⟩ := h
  rw [Item.place_placedBelow, Item.place_placedBelow, Item.self_prune]

/-- The members that a page lists, in the tree and in the one that is left of it. -/
inductive ListsPruned (page : Kind) : List Placed → List Placed → Prop where
  /-- Members without a table are gone. -/
  | listed (above : List Declaration) (is : List Item) :
      ListsPruned page (is.map (Item.placedBelow above))
        ((Item.pruneListed page is).map (Item.placedBelow above))
  /-- The members of an enumeration have lost their members. -/
  | bare (h : page = .enum) (above : List Declaration) (is : List Item) :
      ListsPruned page (is.map (Item.placedBelow above))
        ((Item.bareAll is).map (Item.placedBelow above))

theorem PrunedTo.listed (h : PrunedTo p p') (hk : p.self.kind.kind? = some k) :
    ListsPruned k (p.listed k) (p'.listed k) := by
  obtain ⟨above, ⟨d, ms⟩, rfl, rfl, -⟩ := h
  rw [self, Item.place_placedBelow] at hk
  have hk : d.kind.kind? = some k := hk
  by_cases hpackage : k = .package
  · subst hpackage
    rw [listed_package, listed_package, entryPoints_placedBelow, entryPoints_placedBelow,
      List.head?_map, List.head?_map, Item.head_entryPoints_prune hk, Item.self_prune]
    cases (Item.mk d ms).entryPoints.head? with
    | none => exact .listed above []
    | some e =>
      simp only [Option.map_some, Option.getD_some, Item.members_placedBelow]
      exact .listed _ e.members
  rw [listed_of_ne_package hpackage, listed_of_ne_package hpackage, Item.members_placedBelow,
    Item.members_placedBelow, Item.self_prune]
  -- the members of an enumeration stay, without what stands below them
  by_cases henum : k = .enum
  · subst henum
    have hprune : (Item.mk d ms).prune = .mk d (Item.bareAll ms) := by
      rw [Item.prune, hk]
    rw [hprune]
    exact .bare rfl _ ms
  · have hprune : (Item.mk d ms).prune = .mk d (Item.pruneListed k ms) := by
      rw [Item.prune, hk]
      cases k <;> first | exact absurd rfl hpackage | exact absurd rfl henum | rfl
    rw [hprune]
    exact .listed _ ms

theorem filter_placedBelow (page : Kind) (above : List Declaration) (is : List Item) :
    ((is.map (Item.placedBelow above)).filter fun m => (Section.forMember? page m.self).isSome) =
      (is.filter (Item.isListedOn page)).map (Item.placedBelow above) := by
  have hself : (fun i : Item => (Section.forMember? page (i.placedBelow above).self).isSome) =
      Item.isListedOn page := by
    funext i
    rw [self, Item.place_placedBelow]
    rfl
  rw [List.filter_map, Function.comp_def, hself]

/-- Items below the same chain that say the same about themselves are listed in the same way. -/
theorem forall₂_rowsAgree (page : Kind) (above : List Declaration) {f : Item → Item}
    (hf : ∀ i, (f i).self = i.self) (is : List Item) :
    Forall₂ (Page.RowsAgree page) (is.map (Item.placedBelow above))
      ((is.map f).map (Item.placedBelow above)) := by
  rw [List.map_map, List.forall₂_map_left_iff, List.forall₂_map_right_iff, List.forall₂_same]
  intro i _
  apply Page.RowsAgree.of_place
  rw [Function.comp_apply, Item.place_placedBelow, Item.place_placedBelow, hf]

/-- Rows are made for places, and what was removed has no rows. -/
theorem ListsPruned.rows_eq {origin : Log.Origin} {ms ms' : List Placed}
    (h : ListsPruned page ms ms') (hknown : ∀ m ∈ ms, m.HasKnownKinds) :
    Page.rows origin page ms' = Page.rows origin page ms := by
  cases h with
  | listed above is =>
    have hms : ∀ m ∈ is.map (Item.placedBelow above), m.self.kind.isKnown = true := by
      intro m hm
      obtain ⟨j, hj⟩ := (hknown m hm).self
      rw [hj]
      rfl
    rw [← Page.rows_filter hms, filter_placedBelow, Item.pruneListed_eq]
    exact Page.rows_congr (forall₂_rowsAgree page above Item.self_prune _)
  | bare _ above is =>
    rw [Item.bareAll_eq_map]
    exact Page.rows_congr (forall₂_rowsAgree page above (f := fun i => .mk i.self []) (fun _ => rfl) is)

/-- The members that get a page are those that were kept. -/
theorem ListsPruned.children {ms ms' : List Placed} (h : ListsPruned page ms ms')
    (hpage : page ≠ .enum) (hknown : ∀ m ∈ ms, m.HasKnownKinds) :
    Forall₂ PrunedTo (ms.filter fun m => (Section.forMember? page m.self).isSome)
      (ms'.filter fun m => (Section.forMember? page m.self).isSome) := by
  cases h with
  | listed above is =>
    let kept := is.filter (Item.isListedOn page)
    have hkept : (kept.map Item.prune).filter (Item.isListedOn page) = kept.map Item.prune := by
      refine List.filter_eq_self.2 fun i hi => ?_
      obtain ⟨j, hj, rfl⟩ := List.mem_map.1 hi
      rw [Item.isListedOn, Item.self_prune]
      exact (List.mem_filter.1 hj).2
    rw [filter_placedBelow, Item.pruneListed_eq, filter_placedBelow, hkept, List.map_map,
      List.forall₂_map_left_iff, List.forall₂_map_right_iff, List.forall₂_same]
    intro i hi
    exact ⟨above, i, rfl, rfl, hknown _ (List.mem_map_of_mem (List.mem_filter.1 hi).1)⟩
  | bare henum _ _ => exact absurd henum hpage

theorem PrunedTo.hasKnownKinds (h : PrunedTo p p') : p.HasKnownKinds := by
  obtain ⟨_, _, _, _, hknown⟩ := h
  exact hknown

theorem PrunedTo.children (h : PrunedTo p p') : Forall₂ PrunedTo p.children p'.children := by
  have hkind : p'.self = p.self := congrArg Place.self h.place
  have hlisted (k : Kind) (hk : p.self.kind.kind? = some k) := h.listed hk
  unfold Placed.children
  rw [hkind]
  split
  · exact .nil
  · exact .nil
  · next k hne hk =>
    refine (hlisted k hk).children hne fun m hm => ?_
    exact h.hasKnownKinds.of_lists ⟨k, hk, hm⟩

end Placed

namespace Site

variable {Event : Type} {s s' : Site Event} {output : Path}

/-- Pages that have the same places and texts are written in the same way. -/
theorem writePages_congr (hconfig : s'.config = s.config) (horigin : s'.origin = s.origin)
    {ps ps' : List Placed} (h : Forall₂ (fun p p' => p'.place = p.place ∧
      s'.pageText p' = s.pageText p) ps ps') :
    s'.writePages output ps' = s.writePages output ps := by
  induction h with
  | nil => rfl
  | @cons p p' ps ps' hp _ ih =>
    obtain ⟨hplace, htext⟩ := hp
    unfold pageText at htext
    have hpage : s'.writePage output p' = s.writePage output p := by
      unfold writePage say
      rw [htext, hplace, hconfig, horigin]
    rw [writePages, writePages, hpage, ih]

variable {i : Item}

/-- Items that no page lists have no influence. When all kinds are known and there are no plugins,
the run over a tree and the run over what is left of it without those items are one and the same:
the result or the failure, the files, the reports and everything else. -/
theorem unlisted_items_have_no_influence (hmodel : s.model = i.placed)
    (hknown : s.model.HasKnownKinds) (hplugins : ∀ c, s.config? = some c → c.plugins = [])
    (output : Path) (disk : Disk) (active : Option (Feature.Active Event)) :
    ({ s with model := i.prune.placed } : Site Event).generate output disk active =
      s.generate output disk active := by
  let pruned : Site Event := { s with model := i.prune.placed }
  have hroot : Placed.PrunedTo s.model pruned.model := ⟨[], i, hmodel, rfl, hknown⟩
  have hpages := Placed.pages_forall₂ (fun p p' => Placed.PrunedTo.children) hroot
  have hwrite : pruned.writePages output pruned.model.pages =
      s.writePages output s.model.pages := by
    have hsame : Forall₂ (fun p p' => p'.place = p.place ∧ pruned.pageText p' = s.pageText p)
        s.model.pages pruned.model.pages := by
      refine hpages.imp fun p p' h => ⟨h.place, ?_⟩
      refine Page.text_congr _ (congrArg _ hroot.place) (congrArg _ h.place) fun k hk _ => ?_
      exact (h.listed hk).rows_eq fun m hm => h.hasKnownKinds.of_lists ⟨k, hk, hm⟩
    exact writePages_congr (by rfl) (by rfl) hsame
  -- plugins are told the model, so preparing is only the same without any
  have hprepare : pruned.prepare output = s.prepare output := by
    funext r
    exact (run_prepare_of_no_plugins (s := pruned) hplugins output r).trans
      (run_prepare_of_no_plugins hplugins output r).symm
  have hrun : pruned.run output = s.run output := by
    unfold run
    rw [hprepare, hwrite]
    rfl
  unfold generate
  rw [← hrun]

/-- A comment with a part that is not shown on any page. -/
def unshownComment : Comment := ⟨[.bare "HtmlTag"], none⟩

/-- A package with a class outside of its entry point, and a second entry point with a class of the
name that is taken. The class has a member that is no member of classes, and the enumeration one
whose own member is not shown. -/
def crowded : Item :=
  let dial (members : List Item) : Item := .mk { kind := .known .classDecl, name := "Dial" } members
  .mk { kind := .known .model, name := "" }
    [.mk { kind := .known .function, name := "reset", comment := some unshownComment } [],
      .mk { kind := .known .package, name := "panel" }
        [dial [],
          .mk { kind := .known .entryPoint, name := "" }
            [dial [.mk { kind := .known .method, name := "turn" } [],
                .mk { kind := .known .variableDecl, name := "speed" } [dial []]],
              .mk { kind := .known .enum, name := "Mode" }
                [.mk { kind := .known .enumMember, name := "Fast" } [dial []]]],
          .mk { kind := .known .entryPoint, name := "" } [dial []]]]

def crowdedSite : Site Unit where
  model := crowded.placed
  config? := none
  origin := .site
  registry := []
  stylesheet := ⟨.root, ["styles.css"]⟩

/-- Of fourteen items seven are left, and the run over these is the run over all of them. -/
theorem crowded_site_is_that_of_listed_items :
    crowded.declarations.length = 14 ∧ crowded.prune.declarations.length = 7 ∧
      ({ crowdedSite with model := crowded.prune.placed } : Site Unit).generate plainOutput
        plainDisk none = crowdedSite.generate plainOutput plainDisk none := by
  have hknown : crowdedSite.model.HasKnownKinds := by
    unfold Placed.HasKnownKinds
    decide +kernel
  refine ⟨by decide +kernel, by decide +kernel, ?_⟩
  exact unlisted_items_have_no_influence rfl hknown (fun c hc => nomatch hc) plainOutput plainDisk
    none

end Site

end RefSite
