import Mathlib.Data.List.GetD
import Mathlib.Data.List.Induction
import RefSite.Proofs.Site.Anchors
import RefSite.Proofs.Site.Writing

namespace RefSite

namespace Placed

/-- Every item of the tree has its place right below the item that lists it. -/
def IsChained (p : Placed) : Prop := ∃ above i, p = Item.placedBelow above i

theorem IsChained.of_mem_members {p q : Placed} (hp : p.IsChained) (hq : q ∈ p.members) :
    q.IsChained ∧ q.place = p.place.child q.self := by
  obtain ⟨above, i, rfl⟩ := hp
  rw [Item.members_placedBelow] at hq
  obtain ⟨j, -, rfl⟩ := List.mem_map.1 hq
  refine ⟨⟨_, j, rfl⟩, ?_⟩
  rw [self, Item.place_placedBelow, Item.place_placedBelow]
  rfl

/-- The item lists the other: among its own members or, when it is a package, among those of its
first entry point. -/
def Lists (p q : Placed) : Prop := ∃ k, p.self.kind.kind? = some k ∧ q ∈ p.listed k

theorem lists_of_mem_children {p q : Placed} (h : q ∈ p.children) : p.Lists q := by
  unfold children at h
  split at h
  · exact nomatch h
  · exact nomatch h
  · next k _ hk => exact ⟨k, hk, (List.mem_filter.1 h).1⟩

theorem listed_package (p : Placed) :
    p.listed .package = (p.entryPoints.head?.map members).getD [] := by
  unfold listed
  cases p.entryPoints <;> rfl

theorem listed_of_ne_package {k : Kind} (hk : k ≠ .package) (p : Placed) :
    p.listed k = p.members := by
  cases k <;> first | exact absurd rfl hk | rfl

/-- A listed item is a member, or a member of an entry point that is a member. -/
theorem mem_members_of_lists {p q : Placed} (h : p.Lists q) :
    q ∈ p.members ∨ ∃ e ∈ p.members, e.self.is .entryPoint = true ∧ q ∈ e.members := by
  obtain ⟨k, -, hq⟩ := h
  unfold listed at hq
  split at hq
  · split at hq
    · exact absurd hq List.not_mem_nil
    · next e es he =>
      have hmem : e ∈ p.entryPoints := by
        rw [he]
        exact List.mem_cons_self
      obtain ⟨hem, hkind⟩ := List.mem_filter.1 hmem
      exact .inr ⟨e, hem, hkind, hq⟩
  · exact .inl hq

theorem entryPoints_placedBelow (above : List Declaration) (i : Item) :
    (i.placedBelow above).entryPoints =
      i.entryPoints.map (Item.placedBelow (above ++ [i.self])) := by
  have hself : (fun m : Item => (m.placedBelow (above ++ [i.self])).self.is .entryPoint) =
      fun m => m.self.is .entryPoint := by
    funext m
    rw [self, Item.place_placedBelow]
  rw [entryPoints, Item.members_placedBelow, List.filter_map, Function.comp_def, hself]
  rfl

theorem pages_ne_nil (p : Placed) : p.pages ≠ [] := by
  rw [pages_eq]
  exact List.cons_ne_nil _ _

/-- What holds of a tree whenever it holds of its children holds of every tree. -/
theorem pages_induction {motive : Placed → Prop}
    (step : ∀ p, (∀ q ∈ p.children, motive q) → motive p) (p : Placed) : motive p := by
  -- a child need not be a member, but it is smaller
  induction h : p.size using Nat.strongRecOn generalizing p with
  | _ n ih =>
    apply step
    intro q hq
    have hlt : q.size < p.size :=
      Nat.lt_of_le_of_lt (size_le_sizeOfAll hq) p.sizeOfAll_children_lt
    exact ih q.size (h ▸ hlt) q rfl

/-- The children of all pages are all pages but the first. -/
theorem perm_flatMap_children (p : Placed) :
    (p.pages.flatMap children).Perm (p.children.flatMap pages) := by
  induction p using pages_induction with
  | step p ih =>
    have below : (p.children.flatMap fun q => q.pages.flatMap children).Perm
        (p.children.flatMap fun q => q.children.flatMap pages) :=
      List.Perm.flatMap_left _ ih
    have here : (p.children.flatMap pages) =
        p.children.flatMap fun q => q :: q.children.flatMap pages :=
      List.flatMap_congr fun q _ => q.pages_eq
    -- each child comes before its own descendants on one side, and before all of them on the other
    have join := List.map_append_flatMap_perm p.children id fun q => q.children.flatMap pages
    rw [List.map_id] at join
    rw [pages_eq p, List.flatMap_cons, List.flatMap_assoc, here]
    exact (below.append_left _).trans join

theorem mem_pages_of_mem_children_of_mem {p q c : Placed} (hq : q ∈ p.pages)
    (hc : c ∈ q.children) : c ∈ p.pages := by
  have hmem : c ∈ p.pages.flatMap children := List.mem_flatMap.2 ⟨q, hq, hc⟩
  rw [pages_eq]
  exact List.mem_cons_of_mem _ ((perm_flatMap_children p).mem_iff.1 hmem)

end Placed

namespace Page

open Placed

theorem trailLevels_append (ds : List Declaration) (d : Declaration) :
    trailLevels (ds ++ [d]) =
      if d.is .model || d.is .entryPoint then [] else trailLevels ds ++ [d] := by
  simp [trailLevels]

theorem length_trailLevels_le (ds : List Declaration) : (trailLevels ds).length ≤ ds.length := by
  induction ds using List.reverseRecOn with
  | nil => exact Nat.le_refl _
  | append_singleton ds d ih =>
    rw [trailLevels_append]
    split
    · exact Nat.zero_le _
    · simpa using ih

/-- The level with a number is the same on a longer way. -/
theorem placeOfLevel_append {ds : List Declaration} {n : Nat} (h : n < ds.length)
    (es : List Declaration) : placeOfLevel (ds ++ es) n = placeOfLevel ds n := by
  unfold placeOfLevel
  rw [List.take_append_of_le_length (Nat.le_of_lt h), List.getD_append _ _ _ _ h]

theorem placeOfLevel_last (p : Place) (d : Declaration) :
    placeOfLevel (p.child d).levels p.levels.length = p.child d := by
  unfold placeOfLevel
  rw [Place.levels_child, List.take_left, List.getD_append_right _ _ _ _ (Nat.le_refl _)]
  simp [Place.child]

/-- The trail to a member is that to its owner and the member itself; models and entry points have
no trail. -/
theorem trail_child (p : Place) (d : Declaration) :
    trail (p.child d) =
      if d.is .model || d.is .entryPoint then [] else trail p ++ [p.child d] := by
  have hle := length_trailLevels_le p.levels
  unfold trail trailStart
  rw [Place.levels_child, trailLevels_append]
  split
  · simp
  · -- the trail is one level longer and starts where it did
    have hstart : (p.levels ++ [d]).length - (trailLevels p.levels ++ [d]).length =
        p.levels.length - (trailLevels p.levels).length := by
      simp
    have hcount : (p.levels ++ [d]).length - (p.levels.length - (trailLevels p.levels).length) =
        (trailLevels p.levels).length + 1 := by
      simp
      omega
    have hcount' : p.levels.length - (p.levels.length - (trailLevels p.levels).length) =
        (trailLevels p.levels).length := by
      omega
    simp only [hstart, hcount, hcount', List.range_succ, List.map_append, List.map_cons,
      List.map_nil]
    congr 1
    · apply List.map_congr_left
      intro n hn
      have hlt := List.mem_range.1 hn
      exact placeOfLevel_append (by omega) [d]
    · rw [Nat.sub_add_cancel hle, ← Place.levels_child, placeOfLevel_last]

theorem trail_root (d : Declaration) {t : Place} (h : t ∈ trail ⟨[], d⟩) : t = ⟨[], d⟩ := by
  have hl : (⟨[], d⟩ : Place).levels = [] ++ [d] := rfl
  unfold trail trailStart at h
  rw [hl, trailLevels_append] at h
  split at h
  · exact absurd h (by simp)
  · simpa [trailLevels, placeOfLevel] using h

/-- The trail to a child leads over places on the trail to its parent, and ends at the child. -/
theorem mem_trail_child {p q : Placed} (hp : p.IsChained) (hq : q ∈ p.children) {t : Place}
    (ht : t ∈ trail q.place) : t ∈ trail p.place ∨ t = q.place := by
  have member {o : Placed} (ho : o.IsChained) {m : Placed} (hm : m ∈ o.members)
      (htm : t ∈ trail m.place) : t ∈ trail o.place ∨ t = m.place := by
    have hplace := (ho.of_mem_members hm).2
    rw [hplace, trail_child] at htm
    split at htm
    · exact nomatch htm
    · rw [hplace]
      simpa using htm
  obtain hm | ⟨e, he, hkind, hm⟩ := mem_members_of_lists (lists_of_mem_children hq)
  · exact member hp hm ht
  · obtain ⟨hchain, hplace⟩ := hp.of_mem_members he
    obtain h | h := member hchain hm ht
    · -- an entry point has no trail of its own
      rw [hplace, trail_child, hkind, Bool.or_true, if_pos rfl] at h
      exact nomatch h
    · exact .inr h

theorem isChained_of_mem_children {p q : Placed} (hp : p.IsChained) (hq : q ∈ p.children) :
    q.IsChained := by
  obtain hm | ⟨e, he, -, hm⟩ := mem_members_of_lists (lists_of_mem_children hq)
  · exact (hp.of_mem_members hm).1
  · exact ((hp.of_mem_members he).1.of_mem_members hm).1

/-- Trails lead over places of pages: what holds of the trail to a tree and of all places of its
pages holds of the trails to its pages. -/
theorem trail_of_mem_pages {ok : Place → Prop} {p : Placed} (hp : p.IsChained)
    (htrail : ∀ t ∈ trail p.place, ok t) (hpages : ∀ q ∈ p.pages, ok q.place) :
    ∀ q ∈ p.pages, ∀ t ∈ trail q.place, ok t := by
  induction p using pages_induction with
  | step p ih =>
    intro q hq
    rw [pages_eq] at hq
    obtain rfl | hq := List.mem_cons.1 hq
    · exact htrail
    · obtain ⟨c, hc, hqc⟩ := List.mem_flatMap.1 hq
      have below : ∀ r ∈ c.pages, ok r.place :=
        fun r hr => hpages r (mem_pages_of_mem_children hc hr)
      have trailBelow : ∀ t ∈ trail c.place, ok t := by
        intro t ht
        obtain ht | rfl := mem_trail_child hp hc ht
        · exact htrail t ht
        · exact below c c.mem_pages_self
      exact ih c hc (isChained_of_mem_children hp hc) trailBelow below q hqc

/-- Every level on the trail to a page of a site has a page of the site itself. -/
theorem trail_placed {i : Item} {q : Placed} (hq : q ∈ i.placed.pages) {t : Place}
    (ht : t ∈ trail q.place) : ∃ r ∈ i.placed.pages, r.place = t := by
  let hasPage (t : Place) : Prop := ∃ r ∈ i.placed.pages, r.place = t
  have hroot : i.placed.place = ⟨[], i.self⟩ := i.place_placedBelow []
  have htrail : ∀ t ∈ trail i.placed.place, hasPage t := by
    intro t ht
    rw [hroot] at ht
    refine ⟨i.placed, i.placed.mem_pages_self, ?_⟩
    rw [hroot, trail_root i.self ht]
  have hpages : ∀ r ∈ i.placed.pages, hasPage r.place := fun r hr => ⟨r, hr, rfl⟩
  exact trail_of_mem_pages ⟨[], i, rfl⟩ htrail hpages q hq t ht

end Page

namespace Site

open Markup Placed

variable {Event : Type} {s : Site Event} {p q : Placed}

def pageTree (s : Site Event) (p : Placed) : Markup :=
  match (Page.main s.origin s.model.place p).result with
  | .ok content => Page.tree s.config content
  | .error _ => Page.tree s.config []

/-- The links of the tables of all pages, each with the item whose page it is on. -/
def refs (s : Site Event) : List (Placed × Option String) :=
  s.model.pages.flatMap fun p => (hrefs "ref" (s.pageTree p)).map fun href => (p, href)

theorem pageText_parts {t : String} (h : (s.pageText p).result = .ok t) :
    ∃ content text, (Page.main s.origin s.model.place p).result = .ok content ∧
      render (s.pageTree p) = .ok text ∧ t = "<!DOCTYPE html>\n" ++ text ++ "\n" := by
  obtain ⟨content, text, hcontent, htext, ht⟩ := Page.text_parts h
  refine ⟨content, text, hcontent, ?_, ht⟩
  unfold pageTree
  rw [hcontent]
  exact htext

/-- The anchors of a page that can be built, up to their order. -/
theorem hrefs_pageTree {c t : String} (hc : c ≠ "header-logo")
    (h : (s.pageText p).result = .ok t) :
    (hrefs c (s.pageTree p)).Perm (hrefsAll c (Page.breadcrumb s.model.place p.place) ++
      if c = "ref" then p.children.map fun q => some q.place.link else []) := by
  obtain ⟨content, text, hcontent, -, -⟩ := pageText_parts h
  unfold pageTree
  rw [hcontent, Page.hrefs_tree hc]
  exact Page.hrefs_main c hcontent

theorem hrefs_breadcrumb_pageTree {t : String} (h : (s.pageText p).result = .ok t) :
    (hrefs "breadcrumb" (s.pageTree p)).Perm
      (some s.model.place.link :: (Page.trail p.place).map fun q => some q.link) := by
  have hc : "breadcrumb" ≠ "header-logo" := by decide
  have hperm := hrefs_pageTree hc h
  rwa [Page.hrefs_breadcrumb, if_pos rfl, if_neg (by decide), List.append_nil] at hperm

theorem hrefs_ref_pageTree {t : String} (h : (s.pageText p).result = .ok t) :
    (hrefs "ref" (s.pageTree p)).Perm (p.children.map fun q => some q.place.link) := by
  have hc : "ref" ≠ "header-logo" := by decide
  have hperm := hrefs_pageTree hc h
  rwa [Page.hrefs_breadcrumb, if_neg (by decide), if_pos rfl, List.nil_append] at hperm

/-- When values are all different, only one item has a given one. -/
theorem filter_eq_singleton {α β : Type} [DecidableEq β] (f : α → β) {xs : List α}
    (h : (xs.map f).Nodup) {a : α} (ha : a ∈ xs) : (xs.filter fun x => f x = f a) = [a] := by
  induction xs with
  | nil => exact nomatch ha
  | cons x xs ih =>
    obtain ⟨hx, hxs⟩ := List.nodup_cons.1 h
    rw [List.filter_cons]
    obtain rfl | ha := List.mem_cons.1 ha
    · have hnone : (xs.filter fun x => f x = f a) = [] :=
        List.filter_eq_nil_iff.2 fun y hy => by
          have hne : f y ≠ f a := fun he => hx (he ▸ List.mem_map_of_mem hy)
          simpa using hne
      rw [hnone, if_pos (by simp)]
    · have hne : f x ≠ f a := fun he => hx (he ▸ List.mem_map_of_mem ha)
      rw [if_neg (by simpa using hne)]
      exact ih hxs ha

/-- When all pages can be built, their tables link to the children of their items. -/
theorem perm_refs (h : ∀ p ∈ s.model.pages, ∃ t, (s.pageText p).result = .ok t) :
    s.refs.Perm ((s.model.pages.flatMap fun p => p.children.map fun q => (p, q)).map
      fun x => (x.1, some x.2.place.link)) := by
  rw [List.map_flatMap]
  apply List.Perm.flatMap_left
  intro p hp
  obtain ⟨t, ht⟩ := h p hp
  have hperm := (hrefs_ref_pageTree ht).map fun href => (p, href)
  simpa only [List.map_map, Function.comp_def] using hperm

theorem link_injective {ps : List Placed} (h : (ps.map fun p => p.place.fileName).Nodup) :
    (ps.map fun p => some p.place.link).Nodup := by
  have hi : Function.Injective fun name : String => some ("./" ++ name) := by
    intro a b hab
    exact (String.append_right_inj "./").1 (Option.some.inj hab)
  have hm := h.map hi
  rwa [List.map_map] at hm

/-- A page below the root's is the target of one link, on the page that lists its item. -/
theorem refs_filter (hbuilt : ∀ p ∈ s.model.pages, ∃ t, (s.pageText p).result = .ok t)
    (hnames : (s.model.pages.map fun p => p.place.fileName).Nodup)
    (hq : q ∈ s.model.children.flatMap pages) : ∃ p ∈ s.model.pages, p.Lists q ∧
      (s.refs.filter fun x => x.2 = some q.place.link) = [(p, some q.place.link)] := by
  -- every link is that of a pair of a page and a child, and every page but the first is the child
  -- of exactly one pair
  let pairs := s.model.pages.flatMap fun p => p.children.map fun q => (p, q)
  have hsnd : pairs.map Prod.snd = s.model.pages.flatMap children := by
    simp [pairs, List.map_flatMap, Function.comp_def]
  have hbelow := perm_flatMap_children s.model
  obtain ⟨p, hp, hqp⟩ := List.mem_flatMap.1 (hbelow.mem_iff.2 hq)
  have hpair : (p, q) ∈ pairs := List.mem_flatMap.2 ⟨p, hp, List.mem_map_of_mem hqp⟩
  have hlinks : (pairs.map fun x => some x.2.place.link).Nodup := by
    have hmap : (pairs.map fun x => some x.2.place.link) =
        (s.model.pages.flatMap children).map fun p => some p.place.link := by
      rw [← hsnd, List.map_map]
      rfl
    rw [hmap]
    apply link_injective
    rw [(hbelow.map _).nodup_iff]
    rw [pages_eq, List.map_cons] at hnames
    exact (List.nodup_cons.1 hnames).2
  refine ⟨p, hp, lists_of_mem_children hqp, ?_⟩
  apply List.perm_singleton.1
  refine ((perm_refs hbuilt).filter _).trans ?_
  rw [List.filter_map]
  have hone := filter_eq_singleton (fun x : Placed × Placed => some x.2.place.link) hlinks hpair
  exact List.Perm.of_eq (congrArg (List.map _) hone)

/-- The links of a site stay in the site. After a run that ends well, every link of a breadcrumb or
a table on one of its pages leads to a page that this run has written; and every page but the
root's is the target of exactly one link of all tables, on the page of the item that lists its own
item. -/
theorem links_lead_to_written_pages {i : Item} (hmodel : s.model = i.placed) {output : Path}
    {disk : Disk} {active : Option (Feature.Active Event)} {files : List Path} {r : Run Event}
    (h : s.generate output disk active = (.ok files, r)) :
    files = s.model.pages.map (pageFile output) ∧
    (∀ p ∈ s.model.pages, ∃ text, render (s.pageTree p) = .ok text ∧
      (s.pageText p).result = .ok ("<!DOCTYPE html>\n" ++ text ++ "\n")) ∧
    (∀ p ∈ s.model.pages, ∀ c ∈ ["breadcrumb", "ref"], ∀ href ∈ hrefs c (s.pageTree p),
      ∃ q ∈ s.model.pages, pageFile output q ∈ files ∧ href = some ("./" ++ q.place.fileName)) ∧
    ∀ q ∈ s.model.pages, q.place.fileName ≠ s.model.place.fileName →
      ∃ p ∈ s.model.pages, p.Lists q ∧
        (s.refs.filter fun x => x.2 = some q.place.link) = [(p, some q.place.link)] := by
  obtain ⟨start, r₁, hs, hall, hfiles⟩ := generate_ok h
  obtain ⟨hwritten, howners⟩ := setUp_pages hs
  -- a run that ends well has built every page, so each page has the links of its tree
  have hbuilt := hall.text
  rw [hall.written, hwritten, List.nil_append] at hfiles
  refine ⟨hfiles, ?_, ?_, ?_⟩
  · intro p hp
    obtain ⟨t, ht⟩ := hbuilt p hp
    obtain ⟨-, text, -, htext, rfl⟩ := pageText_parts ht
    exact ⟨text, htext, ht⟩
  · intro p hp c hc href hhref
    obtain ⟨t, ht⟩ := hbuilt p hp
    suffices hq : ∃ q ∈ s.model.pages, href = some q.place.link by
      obtain ⟨q, hq, he⟩ := hq
      refine ⟨q, hq, ?_, he⟩
      rw [hfiles]
      exact List.mem_map_of_mem hq
    obtain rfl | hc := List.mem_cons.1 hc
    · have hmem := (hrefs_breadcrumb_pageTree ht).mem_iff.1 hhref
      obtain rfl | hmem := List.mem_cons.1 hmem
      · exact ⟨s.model, s.model.mem_pages_self, rfl⟩
      · obtain ⟨t, ht, rfl⟩ := List.mem_map.1 hmem
        rw [hmodel] at hp
        obtain ⟨q, hq, rfl⟩ := Page.trail_placed hp ht
        exact ⟨q, hmodel ▸ hq, rfl⟩
    · obtain rfl := List.mem_singleton.1 hc
      have hmem := (hrefs_ref_pageTree ht).mem_iff.1 hhref
      obtain ⟨q, hq, rfl⟩ := List.mem_map.1 hmem
      exact ⟨q, mem_pages_of_mem_children_of_mem hp hq, rfl⟩
  · intro q hq hne
    rw [pages_eq] at hq
    obtain rfl | hq := List.mem_cons.1 hq
    · exact absurd rfl hne
    · exact refs_filter hbuilt (hall.nodup howners) hq

/-- A package whose only class is in an entry point. -/
def widgets : Item :=
  .mk { kind := .known .model, name := "" }
    [.mk { kind := .known .package, name := "widgets" }
      [.mk { kind := .known .entryPoint, name := "" }
        [.mk { kind := .known .classDecl, name := "Dial" } []]]]

def widgetsSite : Site Unit where
  model := widgets.placed
  config? := none
  origin := .site
  registry := []
  stylesheet := ⟨.root, ["styles.css"]⟩

/-- The entry point has no page, so the class is listed on the page of the package. -/
theorem links_of_widgets :
    let output : Path := ⟨.root, ["site"]⟩
    let files := ["index.html", "widgets.html", "widgets.Dial.html"].map output.child
    let disk : Disk := ⟨.folder [("styles.css", .file .empty)], []⟩
    widgetsSite.model = widgets.placed ∧
    (∃ r, widgetsSite.generate output disk none = (.ok files, r)) ∧
    (widgetsSite.refs.map fun x => (x.1.place.fileName, x.2)) =
      [("index.html", some "./widgets.html"), ("widgets.html", some "./widgets.Dial.html")] ∧
    ∀ p ∈ widgetsSite.model.pages, ∀ c ∈ ["breadcrumb", "ref"],
      ∀ href ∈ hrefs c (widgetsSite.pageTree p), ∃ q ∈ widgetsSite.model.pages,
        pageFile output q ∈ files ∧ href = some ("./" ++ q.place.fileName) := by
  intro output files disk
  have hresult : (widgetsSite.generate output disk none).1.toOption = some files := by
    decide +kernel
  rcases hrun : widgetsSite.generate output disk none with ⟨x, r⟩
  rw [hrun] at hresult
  cases x with
  | error f => exact nomatch hresult
  | ok written =>
    obtain rfl : written = files := Option.some.inj hresult
    have hlinks := links_lead_to_written_pages rfl hrun
    exact ⟨rfl, ⟨r, rfl⟩, by decide +kernel, hlinks.2.2.1⟩

end Site

end RefSite
