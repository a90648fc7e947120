import Mathlib.Data.List.Chain
import RefSite.Proofs.Item.InPackages
import RefSite.Proofs.Site.Links

namespace RefSite

/-- Levels that are forgotten whenever one comes that starts afresh are those after the last one
that does. -/
theorem foldl_after_last (fresh : Declaration → Bool) {above below : List Declaration}
    (habove : ∃ d, above.getLast? = some d ∧ fresh d = true)
    (hbelow : ∀ d ∈ below, fresh d = false) :
    (above ++ below).foldl (fun acc d => if fresh d then [] else acc ++ [d]) [] = below := by
  obtain ⟨d, hlast, hd⟩ := habove
  obtain ⟨init, rfl⟩ := List.getLast?_eq_some_iff.1 hlast
  have keeps (acc : List Declaration) :
      below.foldl (fun acc d => if fresh d then [] else acc ++ [d]) acc = acc ++ below := by
    clear hlast
    induction below generalizing acc with
    | nil => simp
    | cons e es ih =>
      obtain ⟨he, hes⟩ := List.forall_mem_cons.1 hbelow
      rw [List.foldl_cons, he, if_neg (by decide), ih hes, List.append_assoc,
        List.singleton_append]
  rw [List.foldl_append, List.foldl_append, List.foldl_cons, hd, if_pos rfl, List.foldl_nil, keeps,
    List.nil_append]

namespace Place

/-- The places of levels that follow each other below the given ones. -/
def along (above : List Declaration) : List Declaration → List Place
  | [] => []
  | d :: ds => ⟨above, d⟩ :: along (above ++ [d]) ds

variable {above below : List Declaration} {p o q : Place}

theorem along_append (above ds es : List Declaration) :
    along above (ds ++ es) = along above ds ++ along (above ++ ds) es := by
  induction ds generalizing above with
  | nil => simp [along]
  | cons d ds ih => simp [along, ih]

/-- The last place is that of the item the levels lead to. -/
theorem getLast_along (h : p.levels = above ++ below) (hne : below ≠ []) :
    (along above below).getLast? = some p := by
  obtain rfl | ⟨ds, d, rfl⟩ := List.eq_nil_or_concat below
  · exact absurd rfl hne
  · rw [List.concat_eq_append] at h ⊢
    rw [levels, ← List.append_assoc] at h
    obtain ⟨habove, hself⟩ := List.append_inj' h rfl
    obtain rfl := List.singleton_inj.1 hself
    rw [along_append, along, along, List.getLast?_concat, ← habove]

/-- The file of the second place is named after that of the first, with the segment of its own item
behind a dot. -/
def Continues (o q : Place) : Prop := ∃ base, o.fileName = base ++ pageEnding ∧
  q.fileName = base ++ "." ++ segment q.self ++ pageEnding

/-- The name of the first file without the ending begins that of the second. -/
def Begins (o q : Place) : Prop :=
  ∃ base rest, o.fileName = base ++ pageEnding ∧ q.fileName = base ++ rest ++ pageEnding

theorem Continues.begins (h : Continues o q) : Begins o q := by
  obtain ⟨base, ho, hq⟩ := h
  exact ⟨base, "." ++ segment q.self, ho, by simp only [hq, String.append_assoc]⟩

theorem Begins.trans {n : Place} (h : Begins o q) (h' : Begins q n) : Begins o n := by
  obtain ⟨base, rest, ho, hq⟩ := h
  obtain ⟨base', rest', hq', hn⟩ := h'
  rw [hq, String.append_left_inj] at hq'
  exact ⟨base, rest ++ rest', ho, by simp only [hn, ← hq', String.append_assoc]⟩

instance : IsTrans Place Begins := ⟨fun _ _ _ => Begins.trans⟩

/-- Levels that show in names have files named after each other, from a level on whose name is the
stem of the way to them. -/
theorem isChain_along (ho : o.self.is .model = false) (hstem : stem above = stem o.levels)
    (hbelow : ∀ d ∈ below, d.isContainer = false) :
    List.IsChain Continues (o :: along above below) := by
  induction below generalizing o above with
  | nil => exact List.isChain_singleton o
  | cons d ds ih =>
    obtain ⟨hd, hds⟩ := List.forall_mem_cons.1 hbelow
    have hmodel : d.is .model = false := Declaration.is_eq_false_of_shown hd rfl
    refine List.isChain_cons_cons.2 ⟨⟨stem o.levels, fileName_of_not_model ho, ?_⟩, ?_⟩
    · rw [fileName_of_not_model hmodel, levels, stem_append, List.foldl_cons, List.foldl_nil,
        extendStem_shown hd, hstem]
    · exact ih hmodel rfl hds

end Place

namespace Page

open Place

variable {above below : List Declaration} {p : Place}

/-- The levels are those down to the last model or entry point, and those after it. -/
structure IsSplit (levels above below : List Declaration) : Prop where
  levels_eq : levels = above ++ below
  last : ∃ d, above.getLast? = some d ∧ (d.is .model || d.is .entryPoint) = true
  rest : ∀ d ∈ below, (d.is .model || d.is .entryPoint) = false

/-- The trail to an item leads along the levels after the last model or entry point. -/
theorem trail_eq_along (h : IsSplit p.levels above below) : trail p = along above below := by
  have hlevels : trailLevels p.levels = below := by
    rw [h.levels_eq]
    exact foldl_after_last (fun d => d.is .model || d.is .entryPoint) h.last h.rest
  -- counting on from the levels above gives the places one below the other
  have count (above ds : List Declaration) :
      ((List.range ds.length).map fun n => placeOfLevel (above ++ ds) (above.length + n)) =
        along above ds := by
    induction ds generalizing above with
    | nil => rfl
    | cons d ds ih =>
      have hfirst : placeOfLevel (above ++ d :: ds) (above.length + 0) = ⟨above, d⟩ := by
        simp [placeOfLevel]
      have hrest := ih (above ++ [d])
      simp only [List.append_assoc, List.singleton_append, List.length_append,
        List.length_singleton] at hrest
      rw [along, ← hrest, List.length_cons, List.range_succ_eq_map, List.map_cons, hfirst,
        List.map_map]
      congr 2
      funext n
      simp only [Function.comp_apply, Nat.succ_eq_add_one]
      congr 1
      omega
  unfold trail trailStart
  dsimp only
  rw [hlevels, h.levels_eq, List.length_append, Nat.add_sub_cancel, Nat.add_sub_cancel_left]
  exact count above below

/-- The breadcrumb comes first on a page, and the rest of the page has no anchor of its class. -/
theorem main_breadcrumb {origin : Log.Origin} {root : Place} {p : Placed} {ms : List Markup}
    (h : (main origin root p).result = .ok ms) : ∃ rest,
      ms = breadcrumb root p.place ++ rest ∧ Markup.hrefsAll "breadcrumb" rest = [] := by
  have hfirst : ∃ rest, ms = breadcrumb root p.place ++ rest := by
    obtain ⟨_, _, _, _, _, _, -, -, -, -, -, hms⟩ := main_parts h
    simp only [List.append_assoc] at hms
    exact ⟨_, hms⟩
  obtain ⟨rest, rfl⟩ := hfirst
  refine ⟨rest, rfl, ?_⟩
  have hperm := hrefs_main "breadcrumb" h
  rw [Markup.hrefsAll_append, if_neg (by decide)] at hperm
  exact List.perm_nil.1 ((List.perm_append_left_iff _).1 hperm)

end Page

namespace Placed

variable {root : Declaration} {p q : Placed}

theorem not_container_of_ofDeclaration {k : Kind} {s : Section}
    (h : Section.ofDeclaration? k = some s) : k.isContainer = false := by
  cases k <;> first | rfl | exact nomatch h

/-- Nothing but a page of a model or an enumeration lists containers. -/
theorem not_container_of_forMember {k : Kind} {d : Declaration} (hmodel : k ≠ .model)
    (henum : k ≠ .enum) (h : (Section.forMember? k d).isSome = true) : d.isContainer = false := by
  obtain ⟨s, hs⟩ := Option.isSome_iff_exists.1 h
  unfold Declaration.isContainer
  unfold Section.forMember? at hs
  split at hs
  case h_1 => exact absurd rfl hmodel
  case h_2 hk => rw [hk]; exact not_container_of_ofDeclaration hs
  case h_3 hk => rw [hk]; exact not_container_of_ofDeclaration hs
  case h_10 => exact absurd rfl henum
  case h_11 => exact nomatch hs
  all_goals next hk => rw [hk]; rfl

/-- A child stands right below its parent, or below an entry point of it if this is a package. -/
theorem place_of_mem_children (hp : p.IsChained) (hq : q ∈ p.children) :
    ∃ k, p.self.kind.kind? = some k ∧ k ≠ .enum ∧ (Section.forMember? k q.self).isSome = true ∧
      ((k = .package ∧ ∃ e : Declaration, e.is .entryPoint = true ∧
          q.place = (p.place.child e).child q.self) ∨
        (k ≠ .package ∧ q.place = p.place.child q.self)) := by
  unfold children at hq
  split at hq
  · exact absurd hq List.not_mem_nil
  · exact absurd hq List.not_mem_nil
  · next k henum hk =>
    obtain ⟨hlisted, hsome⟩ := List.mem_filter.1 hq
    refine ⟨k, hk, fun he => henum (he ▸ rfl), hsome, ?_⟩
    by_cases hpackage : k = .package
    · subst hpackage
      rw [listed_package] at hlisted
      cases he : p.entryPoints with
      | nil =>
        rw [he] at hlisted
        exact absurd hlisted List.not_mem_nil
      | cons e es =>
        rw [he] at hlisted
        have hmem : e ∈ p.entryPoints := he ▸ List.mem_cons_self
        obtain ⟨hem, hentry⟩ := List.mem_filter.1 hmem
        obtain ⟨hchain, hplace⟩ := hp.of_mem_members hem
        refine .inl ⟨rfl, e.self, hentry, ?_⟩
        rw [← hplace]
        exact (hchain.of_mem_members hlisted).2
    · rw [listed_of_ne_package hpackage] at hlisted
      exact .inr ⟨hpackage, (hp.of_mem_members hlisted).2⟩

/-- The item of a page that is not the first: it is a package or an item that shows in names. -/
def StandsIn (root : Declaration) (p : Place) : Prop :=
  ∃ package below, p.LiesIn [root] package below ∧ p.self.is .entryPoint = false

/-- Every child of a package or of something in it stands in the package. -/
theorem StandsIn.child (hp : p.IsChained) (h : StandsIn root p.place) (hq : q ∈ p.children) :
    StandsIn root q.place := by
  obtain ⟨package, below, hlies, hnot⟩ := h
  obtain ⟨k, hk, henum, hsome, hplace⟩ := place_of_mem_children hp hq
  have hkind {j : Kind} (h : p.self.is j = false) : k ≠ j := by
    rintro rfl
    rw [Declaration.is_iff.2 hk] at h
    exact nomatch h
  have hshown := not_container_of_forMember (hkind hlies.self_not_model) henum hsome
  have hself : q.place.self.is .entryPoint = false := Declaration.is_eq_false_of_shown hshown rfl
  cases hlies with
  | itself hpackage hlevels =>
    -- the child is a member of the first entry point
    obtain rfl := List.mem_singleton.1 (Place.self_mem_of_levels _ hlevels (by simp))
    obtain ⟨-, e, hentry, hplace⟩ | ⟨hne, -⟩ := hplace
    · refine ⟨p.place.self, [q.self], .below hpackage ?_ hentry (by simpa using hshown), hself⟩
      rw [hplace, Place.levels_child, Place.levels_child, hlevels]
      rfl
    · exact absurd (Option.some.inj (hk.symm.trans (Declaration.is_iff.1 hpackage))) hne
  | @below _ below entryPoint hpackage hlevels hentry hbelow =>
    have hmem : p.self ∈ entryPoint :: below :=
      Place.self_mem_of_levels ([root] ++ [package]) (by simpa using hlevels) (by simp)
    obtain he | hmem := List.mem_cons.1 hmem
    · rw [← he] at hentry
      exact absurd hentry (by rw [self, hnot]; decide)
    · obtain ⟨he, -⟩ | ⟨-, hplace⟩ := hplace
      · exact absurd he (hkind (Declaration.is_eq_false_of_shown (hbelow _ hmem) rfl))
      · refine ⟨package, below ++ [q.self], .below hpackage ?_ hentry ?_, hself⟩
        · rw [hplace, Place.levels_child, hlevels]
          simp
        · simpa [or_imp, forall_and] using ⟨hbelow, hshown⟩

/-- In the site of a model every page but the first stands in the model. -/
theorem standsIn_of_mem_pages (hp : p.IsChained) (h : StandsIn root p.place) :
    ∀ q ∈ p.pages, StandsIn root q.place := by
  induction p using pages_induction with
  | step p ih =>
    rw [pages_eq]
    refine List.forall_mem_cons.2 ⟨h, fun q hq => ?_⟩
    obtain ⟨c, hc, hq⟩ := List.mem_flatMap.1 hq
    exact ih c hc (Page.isChained_of_mem_children hp hc) (h.child hp hc) q hq

theorem isPackage_of_forMember {d : Declaration}
    (h : (Section.forMember? .model d).isSome = true) : d.is .package = true := by
  unfold Section.forMember? at h
  cases hk : d.kind.kind? with
  | none =>
    rw [hk] at h
    exact nomatch h
  | some k =>
    rw [hk] at h
    cases k <;> first | exact Declaration.is_iff.2 hk | exact nomatch h

/-- In the site of a model every page but the first stands in a package of the model. -/
theorem standsIn_of_model {i : Item} (hroot : i.self.is .model = true) (hp : p ∈ i.placed.pages)
    (hne : p ≠ i.placed) : StandsIn i.self p.place := by
  have hplace : i.placed.place = ⟨[], i.self⟩ := i.place_placedBelow []
  have hchain : i.placed.IsChained := ⟨[], i, rfl⟩
  rw [pages_eq] at hp
  obtain ⟨c, hc, hp⟩ := List.mem_flatMap.1 (List.mem_of_ne_of_mem hne hp)
  obtain ⟨k, hk, -, hsome, hchild⟩ := place_of_mem_children hchain hc
  have hself : i.placed.self = i.self := congrArg Place.self hplace
  obtain rfl : k = .model := by
    rw [hself, Declaration.is_iff.1 hroot] at hk
    exact (Option.some.inj hk).symm
  obtain ⟨hpackage, -⟩ | ⟨-, hchild⟩ := hchild
  · exact absurd hpackage (by decide)
  · have hpackage := isPackage_of_forMember hsome
    have hlevels : c.place.levels = [i.self] ++ [c.self] := by
      rw [hchild, Place.levels_child, hplace]
      rfl
    have hstands : StandsIn i.self c.place :=
      ⟨c.self, [], .itself hpackage hlevels, Declaration.is_eq_false_of_is hpackage (by decide)⟩
    exact standsIn_of_mem_pages (Page.isChained_of_mem_children hchain hc) hstands p hp

end Placed

namespace Site

open Markup Placed Place

variable {Event : Type} {s : Site Event} {p : Placed} {above below : List Declaration}

/-- The ways to a page agree, along the levels of its item that come after the last model or entry
point: the page shows a link for each of these levels and no other ones, the dotted name is that of
the levels, the last link is that of the page, and the files are named after each other. -/
structure WaysAgree (s : Site Event) (p : Placed) (above below : List Declaration) : Prop where
  split : Page.IsSplit p.place.levels above below
  shown : ∃ rest, s.pageTree p = Page.tree s.config
    (anchor "Home" "./index.html" "breadcrumb" ::
      ((along above below).flatMap fun q => [classed "span" "breadcrumb" (Markup.text " / "),
        anchor q.self.name ("./" ++ q.fileName) "breadcrumb"]) ++ rest)
  links : hrefs "breadcrumb" (s.pageTree p) =
    some "./index.html" :: (along above below).map fun q => some ("./" ++ q.fileName)
  written : ∃ text, render (s.pageTree p) = .ok text ∧
    (s.pageText p).result = .ok ("<!DOCTYPE html>\n" ++ text ++ "\n")
  name : ".".intercalate (below.map Declaration.name) = p.place.scopedName
  last : (along above below).getLast? = some p.place
  files : (p.self.is .package = true ∧ below = [p.self]) ∨
    ∃ package : Place, package.self.is .package = true ∧
      (∃ e : Declaration, e.is .entryPoint = true ∧ above = package.levels ++ [e]) ∧
      List.IsChain Continues (package :: along above below) ∧
      List.Pairwise Begins (package :: along above below)

/-- On a page that can be built the breadcrumb is the one along its levels. -/
theorem shown_of_pageText {t : String} (hroot : s.model.place.link = "./index.html")
    (hsplit : Page.IsSplit p.place.levels above below) (h : (s.pageText p).result = .ok t) :
    (∃ rest, s.pageTree p = Page.tree s.config
      (anchor "Home" "./index.html" "breadcrumb" ::
        ((along above below).flatMap fun q => [classed "span" "breadcrumb" (Markup.text " / "),
          anchor q.self.name ("./" ++ q.fileName) "breadcrumb"]) ++ rest)) ∧
    hrefs "breadcrumb" (s.pageTree p) =
      some "./index.html" :: (along above below).map fun q => some ("./" ++ q.fileName) := by
  obtain ⟨content, -, hcontent, -, -⟩ := pageText_parts h
  obtain ⟨rest, rfl, hrest⟩ := Page.main_breadcrumb hcontent
  have htree : s.pageTree p =
      Page.tree s.config (Page.breadcrumb s.model.place p.place ++ rest) := by
    unfold pageTree
    rw [hcontent]
  have hhrefs := Page.hrefs_breadcrumb "breadcrumb" s.model.place p.place
  rw [if_pos rfl, hroot, Page.trail_eq_along hsplit] at hhrefs
  refine ⟨⟨rest, ?_⟩, ?_⟩
  · rw [htree, Page.breadcrumb, hroot, Page.trail_eq_along hsplit]
    rfl
  · rw [htree, Page.hrefs_tree (by decide), hrefsAll_append, hrest, List.append_nil, hhrefs]
    rfl

/-- The ways to every page in a model agree, if it is not the first one. -/
theorem waysAgree_of_standsIn {root : Declaration} {t : String} (hmodel : root.is .model = true)
    (hroot : s.model.place.link = "./index.html") (h : StandsIn root p.place)
    (ht : (s.pageText p).result = .ok t) : ∃ above below, WaysAgree s p above below := by
  obtain ⟨_, text, -, htext, rfl⟩ := pageText_parts ht
  obtain ⟨package, below, hlies, hentry⟩ := h
  have hnot {d : Declaration} (h : d.isContainer = false) :
      (d.is .model || d.is .entryPoint) = false := by
    rw [Declaration.is_eq_false_of_shown h rfl, Declaration.is_eq_false_of_shown h rfl]
    rfl
  cases hlies with
  | itself hpackage hlevels =>
    obtain rfl := List.mem_singleton.1 (self_mem_of_levels _ hlevels (by simp))
    have hsplit : Page.IsSplit p.place.levels [root] [p.place.self] := by
      refine ⟨hlevels, ⟨root, rfl, by rw [hmodel]; rfl⟩, ?_⟩
      intro d hd
      obtain rfl := List.mem_singleton.1 hd
      rw [Declaration.is_eq_false_of_is hpackage (by decide), hentry]
      rfl
    obtain ⟨hshown, hlinks⟩ := shown_of_pageText hroot hsplit ht
    have hcontainer : p.place.self.isContainer = true := by
      rw [Declaration.isContainer_eq, hpackage]
      simp
    have hname : ".".intercalate ([p.place.self].map Declaration.name) = p.place.scopedName := by
      rw [scopedName, hcontainer]
      simp
    exact ⟨[root], [p.place.self], hsplit, hshown, hlinks, ⟨text, htext, ht⟩, hname,
      getLast_along hlevels (by simp), .inl ⟨hpackage, rfl⟩⟩
  | @below _ below entryPoint hpackage hlevels hisEntry hbelow =>
    let way : List Declaration := [root, package, entryPoint]
    have hway : p.place.levels = way ++ below := hlevels
    have hne : below ≠ [] := by
      rintro rfl
      obtain he := List.mem_singleton.1 (self_mem_of_levels [root, package] hlevels (by simp))
      rw [he, hisEntry] at hentry
      exact nomatch hentry
    have hself : p.place.self.isContainer = false := hbelow _ (self_mem_of_levels way hway hne)
    have hsplit : Page.IsSplit p.place.levels way below :=
      ⟨hway, ⟨entryPoint, rfl, by rw [hisEntry, Bool.or_true]⟩, fun d hd => hnot (hbelow d hd)⟩
    obtain ⟨hshown, hlinks⟩ := shown_of_pageText hroot hsplit ht
    have hscope : scopeLevels p.place.levels = below := by
      rw [hway]
      refine foldl_after_last Declaration.isContainer ⟨entryPoint, rfl, ?_⟩ hbelow
      rw [Declaration.isContainer_eq, hisEntry, Bool.or_true]
    have hname : ".".intercalate (below.map Declaration.name) = p.place.scopedName := by
      rw [scopedName, hself, hscope]
      rfl
    -- the entry point does not show in the names of files
    have hchain : List.IsChain Continues (⟨[root], package⟩ :: along way below) := by
      refine isChain_along (Declaration.is_eq_false_of_is hpackage (by decide)) ?_ hbelow
      have hlevels : way = [root, package] ++ [entryPoint] := rfl
      rw [hlevels, stem_append, List.foldl_cons, List.foldl_nil, extendStem_entryPoint hisEntry]
      rfl
    have hbegins := List.isChain_iff_pairwise.1 (hchain.imp fun o q => Continues.begins)
    exact ⟨way, below, hsplit, hshown, hlinks, ⟨text, htext, ht⟩, hname, getLast_along hway hne,
      .inr ⟨⟨[root], package⟩, hpackage, ⟨entryPoint, hisEntry, rfl⟩, hchain, hbegins⟩⟩

/-- Breadcrumbs, dotted names and files agree in the site of a model. On every page that a run has
written, the first one apart, the breadcrumb leads along the levels of the item after the last model
or entry point, these levels make up the dotted name, and each of them has a file that is named
after the file of the one before it, or of the package. -/
theorem breadcrumbs_names_and_files_agree {i : Item} (hmodel : s.model = i.placed)
    (hroot : i.self.is .model = true) (output : Path) (disk : Disk)
    (active : Option (Feature.Active Event)) :
    ∃ done rest, s.model.pages = done ++ rest ∧
      (s.generate output disk active).2.written = done.map (pageFile output) ∧
      ∀ p ∈ done, p ≠ s.model → ∃ above below, WaysAgree s p above below := by
  obtain ⟨done, rest, hpages, hwritten, hbuilt⟩ := generate_written s output disk active
  refine ⟨done, rest, hpages, hwritten, fun p hp hne => ?_⟩
  obtain ⟨t, ht⟩ := hbuilt p hp
  have hmem : p ∈ s.model.pages := hpages ▸ List.mem_append_left _ hp
  have hlink : s.model.place.link = "./index.html" := by
    have hplace : s.model.place = ⟨[], i.self⟩ := by
      rw [hmodel]
      exact i.place_placedBelow []
    rw [link, fileName, hplace, hroot]
    rfl
  rw [hmodel] at hmem hne
  exact waysAgree_of_standsIn hroot hlink (standsIn_of_model hroot hmem hne) ht

/-- A model in which the second overload of a method stands in a class of a namespace. -/
def overloads : Item :=
  let turn (overload : Int) : Item := .mk { kind := .known .method, name := "turn", overload } []
  .mk { kind := .known .model, name := "" }
    [.mk { kind := .known .package, name := "@parts/kit" }
      [.mk { kind := .known .entryPoint, name := "" }
        [.mk { kind := .known .namespaceDecl, name := "a/b" }
          [.mk { kind := .known .classDecl, name := "Dial" } [turn 1, turn 2]]]]]

def overloadsSite : Site Unit where
  model := overloads.placed
  config? := none
  origin := .site
  registry := []
  stylesheet := ⟨.root, ["styles.css"]⟩

/-- The way to the last of six pages leads over the namespace and the class. -/
theorem way_to_second_overload :
    let output : Path := ⟨.root, ["site"]⟩
    let disk : Disk := ⟨.folder [("styles.css", .file .empty)], []⟩
    overloads.self.is .model = true ∧
    (overloadsSite.model.pages.getLast?.map fun p =>
      (p.place.scopedName, hrefs "breadcrumb" (overloadsSite.pageTree p))) =
        some ("a/b.Dial.turn", [some "./index.html", some "./kit.a_b.html",
          some "./kit.a_b.Dial.html", some "./kit.a_b.Dial.turn_1.html"]) ∧
    ∃ done : List Placed,
      (overloadsSite.generate output disk none).2.written = done.map (pageFile output) ∧
      done.length = 6 ∧ ∀ p ∈ done, p ≠ overloadsSite.model →
        ∃ above below, WaysAgree overloadsSite p above below := by
  intro output disk
  have hcount : (overloadsSite.generate output disk none).2.written.length = 6 := by decide +kernel
  obtain ⟨done, rest, -, hwritten, hagree⟩ :=
    breadcrumbs_names_and_files_agree (s := overloadsSite) rfl rfl output disk none
  refine ⟨rfl, by decide +kernel, done, hwritten, ?_, hagree⟩
  rw [← hcount, hwritten, List.length_map]

end Site

end RefSite
