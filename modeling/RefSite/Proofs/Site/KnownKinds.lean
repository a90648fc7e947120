import RefSite.Proofs.Site.Faults
import RefSite.Proofs.Site.Loaded

namespace RefSite

namespace Placed

/-- All items of the tree are of known kinds. -/
def HasKnownKinds (p : Placed) : Prop := ∀ q ∈ p.all, q.self.kind.isKnown = true

variable {p q : Placed}

theorem all_subset_of_mem {ps : List Placed} (h : q ∈ ps) : q.all ⊆ allOf ps := by
  induction ps with
  | nil => exact nomatch h
  | cons r rs ih =>
    intro x hx
    rw [allOf, List.mem_append]
    obtain rfl | h := List.mem_cons.1 h
    · exact .inl hx
    · exact .inr (ih h hx)

theorem HasKnownKinds.self (h : p.HasKnownKinds) : ∃ k, p.self.kind = .known k := by
  obtain ⟨place, ms⟩ := p
  have hknown : place.self.kind.isKnown = true := h place (by rw [all]; exact List.mem_cons_self)
  change ∃ k, place.self.kind = .known k
  cases hk : place.self.kind with
  | known k => exact ⟨k, rfl⟩
  | bare s =>
    rw [hk] at hknown
    exact nomatch hknown

theorem HasKnownKinds.of_mem_members (h : p.HasKnownKinds) (hq : q ∈ p.members) :
    q.HasKnownKinds := by
  obtain ⟨place, ms⟩ := p
  intro x hx
  apply h
  rw [all]
  exact List.mem_cons_of_mem _ (all_subset_of_mem hq hx)

theorem HasKnownKinds.of_lists (h : p.HasKnownKinds) (hq : p.Lists q) : q.HasKnownKinds := by
  obtain hq | ⟨e, he, -, hq⟩ := mem_members_of_lists hq
  · exact h.of_mem_members hq
  · exact (h.of_mem_members he).of_mem_members hq

mutual

/-- The places of a tree are those of its declarations, in the same order. -/
theorem map_self_all (above : List Declaration) (i : Item) :
    (i.placedBelow above).all.map Place.self = i.declarations := by
  obtain ⟨d, ms⟩ := i
  rw [Item.placedBelow, all, Item.declarations, List.map_cons, map_self_allOf]

theorem map_self_allOf (above : List Declaration) (is : List Item) :
    (allOf (Item.allPlacedBelow above is)).map Place.self = Item.declarationsOf is := by
  match is with
  | [] => rfl
  | i :: is =>
    rw [Item.allPlacedBelow, allOf, Item.declarationsOf, List.map_append, map_self_all,
      map_self_allOf]

end

theorem hasKnownKinds_placed {i : Item} :
    i.placed.HasKnownKinds ↔ ∀ d ∈ i.declarations, d.kind.isKnown = true := by
  rw [← map_self_all [] i, List.forall_mem_map]
  rfl

/-- The item is of a kind with a heading. -/
def HasHeading (p : Placed) : Prop := ∃ k, p.self.kind.kind? = some k ∧ k.HasPage

/-- At every depth, the pages below an item with a heading have headings. -/
theorem hasHeading_of_mem_pages (hknown : p.HasKnownKinds) (hp : p.HasHeading) :
    ∀ q ∈ p.pages, q.HasKnownKinds ∧ q.HasHeading := by
  induction p using pages_induction with
  | step p ih =>
    rw [pages_eq]
    refine List.forall_mem_cons.2 ⟨⟨hknown, hp⟩, fun q hq => ?_⟩
    obtain ⟨c, hc, hq⟩ := List.mem_flatMap.1 hq
    have hc' := hknown.of_lists (lists_of_mem_children hc)
    obtain ⟨k, hk⟩ := hc'.self
    have hk' : c.self.kind.kind? = some k := by rw [hk, KindLabel.kind_known]
    exact ih c hc hc' ⟨k, hk', Page.hasPage_of_mem_children hc hk'⟩ q hq

end Placed

namespace Page

variable {p : Placed} {f : Failure}

/-- With a heading, and with members of known kinds, only what the page says can hinder it. -/
theorem Hinders.isContentFault (h : Hinders p f) (hknown : p.HasKnownKinds) (hp : p.HasHeading) :
    f.IsContentFault := by
  cases h with
  | content h => exact h
  | heading h =>
    obtain ⟨k, hk, hpage⟩ := hp
    obtain ⟨t, ht⟩ := hpage p.place.scopedName
    exact nomatch ht.symm.trans (h k hk)
  | @member k m hk hm h =>
    obtain ⟨j, hj⟩ := (hknown.of_lists ⟨k, hk, hm⟩).self
    rw [hj] at h
    exact nomatch h

end Page

namespace Site

variable {Event : Type} {s : Site Event}

/-- The generator has a heading and a body for everything it comes to. -/
structure HandlesAll (s : Site Event) : Prop where
  headings : ∀ p ∈ s.model.pages, p.HasHeading ∧ ∀ q ∈ p.children, q.HasHeading
  runs : ∀ output disk active kind, (s.generate output disk active).1 ≠ .error (.unsupportedItem kind)

theorem handlesAll_of_hasKnownKinds (hknown : s.model.HasKnownKinds)
    (hroot : s.model.HasHeading) : s.HandlesAll := by
  have hpages := Placed.hasHeading_of_mem_pages hknown hroot
  constructor
  · intro p hp
    have hchild (q : Placed) (hq : q ∈ p.children) : q.HasHeading :=
      (hpages q (Placed.mem_pages_of_mem_children_of_mem hp hq)).2
    exact ⟨(hpages p hp).2, hchild⟩
  · intro output disk active kind h
    rcases hg : s.generate output disk active with ⟨x, r⟩
    rw [hg] at h
    subst h
    -- of all that can fail, only the making of a page looks at the kinds of items
    obtain hp | ⟨g, hg⟩ | hg | ⟨p, hp, r₁, d, href⟩ := generate_failed hg
    · exact FailsOnlyWith.prepare s output _ _ _ hp
    · exact nomatch hg
    · exact nomatch hg
    · obtain ⟨hp, hheading⟩ := hpages p hp
      cases href with
      | unbuilt h => exact ((Page.fails_text _ _ _ _ h).isContentFault hp hheading)

/-- Of a model that was read all items are of known kinds, and the root has a heading. -/
theorem handlesAll_of_loadModel {d : Disk} {ps : List Path} {name : String} {i : Item}
    (hload : (Item.loadModel d ps name).result = .ok i) (hmodel : s.model = i.placed) :
    s.HandlesAll := by
  have hread : i.IsRead := (Item.meets_loadModel d ps name).of_ok hload
  obtain ⟨is, -, hi⟩ := Logged.bind_eq_ok.1 hload
  cases hi
  apply handlesAll_of_hasKnownKinds
  · rw [hmodel, Placed.hasKnownKinds_placed]
    exact fun e he => (hread e he).kind
  · rw [hmodel]
    exact ⟨.model, rfl, fun name => ⟨_, rfl⟩⟩

/-- There is a handler for everything the generator can reach. When all items are of known kinds and
the root is of a kind with a heading, every page and every child of a page has a heading, and no run
fails at an item, whatever the settings and plugins. All this holds of every model that was read. -/
theorem known_kinds_are_handled (s : Site Event) :
    (s.model.HasKnownKinds → s.model.HasHeading → s.HandlesAll) ∧
      ∀ d ps name i, (Item.loadModel d ps name).result = .ok i → s.model = i.placed →
        s.HandlesAll :=
  ⟨handlesAll_of_hasKnownKinds, fun _ _ _ _ => handlesAll_of_loadModel⟩

/-- A class as the root of a site. It has a method, and an enumeration member and an entry point that
no page is made for. -/
def classSite : Site Unit where
  model := (Item.mk { kind := .known .classDecl, name := "Dial" }
    [.mk { kind := .known .method, name := "turn" } [],
      .mk { kind := .known .enumMember, name := "fast" } [],
      .mk { kind := .known .entryPoint, name := "" }
        [.mk { kind := .known .variableDecl, name := "speed" } []]]).placed
  config? := none
  origin := .site
  registry := []
  stylesheet := ⟨.root, ["styles.css"]⟩

/-- The entry point and the enumeration member of the class need no heading, and neither does the
entry point of the package that was read. -/
theorem class_and_loaded_package_are_handled :
    classSite.HandlesAll ∧ (linkSite (.text "5")).HandlesAll := by
  have hload : (Item.loadModel (linkDisk "'5'") [linkPath] "").result =
      .ok (linkModel (.text "5")) :=
    loadModel_linkDisk eq_of_isQuotedDigit (by decide +kernel) (by decide +kernel)
  have hknown : classSite.model.HasKnownKinds := by
    unfold Placed.HasKnownKinds
    decide +kernel
  have hroot : classSite.model.HasHeading := ⟨.classDecl, rfl, fun name => ⟨_, rfl⟩⟩
  exact ⟨(known_kinds_are_handled classSite).1 hknown hroot,
    (known_kinds_are_handled _).2 _ _ _ _ hload rfl⟩

end Site

end RefSite
