import RefSite.Proofs.Item.Texts
import RefSite.Proofs.Site.Members

namespace RefSite

variable {source : Option Path} {v : Value} {es : Entries}

namespace Item

theorem membersField_of_not_given (h : (es.field "entryPoints").truthy = false) :
    membersField es = es.field "members" := by
  rw [membersField, h, if_neg (by decide)]

/-- A package that is read from a mapping without a field for entry points has one entry point. It
has no name, and it holds what the mapping has for members, in order. -/
theorem unnamed_entryPoint_of_ofValue {i : Item} (h : ofValue source v = .ok i)
    (hpackage : i.self.is .package = true) (hv : v.body = .map es)
    (habsent : es.get? "entryPoints" = none) :
    ∃ vs ms, (es.field "members").givenElements = .ok vs ∧
      List.Forall₂ (fun w m => ofValue source w = .ok m) vs ms ∧
      i = .mk i.self [.mk unnamedEntryPoint ms] := by
  obtain ⟨es', d, vs, ms, hes, -, hvs, -, hms, rfl⟩ := parts_of_ofValue h
  rw [hv] at hes
  cases hes
  rw [self_assemble] at hpackage ⊢
  have hfield : es.field "entryPoints" = .null := by rw [Entries.field, habsent, Option.getD_none]
  rw [membersField_of_not_given (by rw [hfield]; rfl)] at hvs
  refine ⟨vs, ms, hvs, hms, ?_⟩
  rw [assemble, needsEntryPoint, hpackage, habsent]
  rfl

end Item

namespace Site

open Placed

variable {Event : Type} {s : Site Event} {output : Path} {disk : Disk}
  {active : Option (Feature.Active Event)} {files : List Path} {r : Run Event}

/-- A run that ends well has built every page and written it to a file of its own. -/
theorem generate_pages (h : s.generate output disk active = (.ok files, r)) :
    files = s.model.pages.map (pageFile output) ∧ files.Nodup ∧
      ∀ p ∈ s.model.pages, ∃ content, s.Shows p content := by
  obtain ⟨start, r₁, hs, hall, rfl⟩ := generate_ok h
  obtain ⟨hwritten, howners⟩ := setUp_pages hs
  rw [hall.written, hwritten, List.nil_append]
  refine ⟨rfl, nodup_pageFile output (hall.nodup howners), fun p hp => ?_⟩
  obtain ⟨t, ht⟩ := hall.text p hp
  exact shows_of_pageText ht

/-- The tables of a package are tables of links: a row shows the signature of a member as a link to
its page. -/
theorem package_row {origin : Log.Origin} {t : Section} (ht : t ∈ Section.allOn .package)
    {m : Placed} {row : Markup} (h : Page.IsRowOf origin t m row) : ∃ about,
      row = Markup.row [Markup.anchor m.self.conciseSignature m.place.link "ref", about] := by
  have hlinks : ∃ title heading, t = Section.ofLinks title heading := by
    simp only [Section.allOn, List.mem_cons, List.not_mem_nil, or_false] at ht
    obtain rfl | rfl | rfl | rfl | rfl | rfl | rfl := ht <;> exact ⟨_, _, rfl⟩
  obtain ⟨title, heading, rfl⟩ := hlinks
  obtain ⟨cs, hcs, rfl⟩ := h
  obtain _ | ⟨hlink, _ | ⟨habout, ⟨⟩⟩⟩ := hcs
  obtain ⟨-, -, hlink⟩ := Logged.bind_eq_ok.1 hlink
  cases hlink
  exact ⟨_, rfl⟩

variable {d e : Declaration} {ms : List Item} {above : List Declaration}

theorem listed_of_one_entryPoint (d : Declaration) (he : e.is .entryPoint = true) (ms : List Item)
    (above : List Declaration) : ((Item.mk d [.mk e ms]).placedBelow above).listed .package =
      ms.map (Item.placedBelow (above ++ [d, e])) := by
  let below := (Item.mk e ms).placedBelow (above ++ [d])
  have hentry : ((Item.mk d [.mk e ms]).placedBelow above).entryPoints = [below] :=
    List.filter_cons_of_pos he
  have hmembers := Item.members_placedBelow (above ++ [d]) (.mk e ms)
  rw [List.append_assoc] at hmembers
  rw [listed_package, hentry]
  exact hmembers

/-- A package shows the members of its only entry point: each of its tables has a row for every
member that is put in it, and every member that is put in one has a page. -/
theorem one_entryPoint_is_shown (hd : d.is .package = true) (he : e.is .entryPoint = true)
    (hp : (Item.mk d [.mk e ms]).placedBelow above ∈ s.model.pages) {content : List Markup}
    (h : s.Shows ((Item.mk d [.mk e ms]).placedBelow above) content) :
    (∀ t ∈ Section.allOn .package, ∃ rows, Page.titled t.title t.headings rows <:+: content ∧
      List.Forall₂ (fun m row => ∃ about, row = Markup.row [Markup.anchor m.self.conciseSignature
          (m.placedBelow (above ++ [d, e])).place.link "ref", about])
        (ms.filter fun m => Section.forMember? .package m.self = some t) rows) ∧
    ∀ m ∈ ms, (Section.forMember? .package m.self).isSome = true →
      m.placedBelow (above ++ [d, e]) ∈ s.model.pages := by
  have hkind : ((Item.mk d [.mk e ms]).placedBelow above).self.kind.kind? = some .package :=
    beq_iff_eq.1 hd
  have hlisted := listed_of_one_entryPoint d he ms above
  have hself (m : Item) : (m.placedBelow (above ++ [d, e])).self = m.self := by
    rw [self, Item.place_placedBelow]
  constructor
  · -- the members that are listed are those of the entry point, and each row links to its member
    intro t ht
    obtain ⟨rows, hrows, hcontent⟩ := (Page.main_tables hkind (by decide) h.main).2 t ht
    refine ⟨rows, hcontent, ?_⟩
    rw [hlisted, List.filter_map, List.forall₂_map_left_iff] at hrows
    simp only [Function.comp_def, hself] at hrows
    refine hrows.imp fun m row hrow => ?_
    obtain ⟨about, hrow⟩ := package_row ht hrow
    rw [hself] at hrow
    exact ⟨about, hrow⟩
  · intro m hm hm'
    apply mem_pages_of_mem_children_of_mem hp
    rw [Page.children_eq_linked hkind, hlisted, Page.linked, if_neg (by decide)]
    refine List.mem_filter.2 ⟨List.mem_map_of_mem hm, ?_⟩
    rwa [hself]

/-- No declaration of a package is lost when its mapping has no field for entry points. The package
has one entry point, which holds the members of the mapping in their order; and in every run that
ends well and gives the package a page, the tables of this page have a row for each member that a
package lists, with a link to the page of the member, and this page is written to a file of its
own. -/
theorem members_without_entry_points_are_shown {i : Item} (h : Item.ofValue source v = .ok i)
    (hpackage : i.self.is .package = true) (hv : v.body = .map es)
    (habsent : es.get? "entryPoints" = none) :
    ∃ vs ms, (es.field "members").givenElements = .ok vs ∧
      List.Forall₂ (fun w m => Item.ofValue source w = .ok m) vs ms ∧
      i.entryPoints = [.mk Item.unnamedEntryPoint ms] ∧
      ∀ {Event : Type} (s : Site Event) (above : List Declaration) (output : Path) (disk : Disk)
        (active : Option (Feature.Active Event)) (files : List Path) (r : Run Event),
        i.placedBelow above ∈ s.model.pages → s.generate output disk active = (.ok files, r) →
        let page (m : Item) : Placed := m.placedBelow (above ++ [i.self, Item.unnamedEntryPoint])
        files.Nodup ∧ ∃ content, s.Shows (i.placedBelow above) content ∧
          (∀ t ∈ Section.allOn .package, ∃ rows, Page.titled t.title t.headings rows <:+: content ∧
            List.Forall₂ (fun m row => ∃ about, row = Markup.row
                [Markup.anchor m.self.conciseSignature (page m).place.link "ref", about])
              (ms.filter fun m => Section.forMember? .package m.self = some t) rows) ∧
          ∀ m ∈ ms, ∀ t, Section.forMember? .package m.self = some t →
            t ∈ Section.allOn .package ∧ page m ∈ s.model.pages ∧
              pageFile output (page m) ∈ files := by
  obtain ⟨vs, ms, hvs, hms, hi⟩ := Item.unnamed_entryPoint_of_ofValue h hpackage hv habsent
  refine ⟨vs, ms, hvs, hms, ?_, ?_⟩
  · rw [hi]
    rfl
  · intro Event s above output disk active files r hp hrun page
    obtain ⟨hfiles, hnodup, hshown⟩ := generate_pages hrun
    obtain ⟨content, hcontent⟩ := hshown _ hp
    refine ⟨hnodup, content, hcontent, ?_⟩
    rw [hi] at hp hcontent
    obtain ⟨htables, hpages⟩ := one_entryPoint_is_shown hpackage rfl hp hcontent
    refine ⟨htables, fun m hm t ht => ?_⟩
    have hpage := hpages m hm (by rw [ht]; rfl)
    refine ⟨Page.mem_allOn_of_forMember ht, hpage, ?_⟩
    rw [hfiles]
    exact List.mem_map_of_mem hpage

def classFields : Entries := [(.text "kind", .text "Class"), (.text "name", .text "A")]

def classItem : Item := .mk { kind := .known .classDecl, name := "A" } []

/-- The fields of a package with one class, and more fields. -/
def packageFields (more : Entries) : Entries :=
  [(.text "kind", .text "Package"), (.text "name", .text "p"),
    (.text "members", .list [.map classFields])] ++ more

theorem ofValue_classFields : Item.ofValue none (.map classFields) = .ok classItem :=
  Item.ofValue_of_parts rfl rfl .nil rfl

/-- Without a field for entry points the class has its row and its page. -/
theorem class_without_entry_points_is_shown :
    let site := siteOf [entryPointOf [classItem]]
    let files := ["index.html", "p.html", "p.A.html"].map plainOutput.child
    Item.ofValue none (.map (packageFields [])) = .ok (packageOf [entryPointOf [classItem]]) ∧
      (site.generate plainOutput plainDisk none).1 = .ok files ∧
      ∃ content about, site.Shows (packageOn [entryPointOf [classItem]]) content ∧
        Page.titled "Classes" ["Class", "Description"]
          [Markup.row [Markup.anchor "A" "./p.A.html" "ref", about]] <:+: content := by
  intro site files
  have hread : Item.ofValue none (.map (packageFields [])) =
      .ok (packageOf [entryPointOf [classItem]]) :=
    Item.ofValue_of_parts rfl rfl (.cons ofValue_classFields .nil) rfl
  have hruns : (site.generate plainOutput plainDisk none).1 = .ok files :=
    eq_ok_of_toOption (by decide +kernel)
  refine ⟨hread, hruns, ?_⟩
  obtain ⟨vs, ms, -, -, hentry, hsites⟩ := members_without_entry_points_are_shown hread rfl rfl rfl
  cases hentry
  obtain ⟨-, content, hcontent, htables, -⟩ :=
    hsites site [(rootOf []).self] plainOutput plainDisk none files _ (packageOn_mem_pages _)
      (Prod.ext hruns rfl)
  obtain ⟨rows, htable, hrows⟩ := htables Section.classes (by decide)
  obtain _ | ⟨⟨about, rfl⟩, ⟨⟩⟩ := hrows
  exact ⟨content, about, hcontent, htable⟩

theorem ofValue_packageFields {given : Value} (h : given.truthy = false) :
    Item.ofValue none (.map (packageFields [(.text "entryPoints", given)])) =
      .ok (packageOf [classItem]) := by
  let fields := packageFields [(.text "entryPoints", given)]
  have hfield : (fields.field "entryPoints").truthy = false := h
  have hmembers : (Item.membersField fields).givenElements = .ok [.map classFields] := by
    rw [Item.membersField_of_not_given hfield]
    rfl
  exact Item.ofValue_of_parts rfl hmembers (.cons ofValue_classFields .nil) rfl

/-- Entry points that are there but empty do not count as given: the members are read from the other
field, but no entry point is made for them. The run ends well, and the class is nowhere. -/
theorem class_beside_empty_entry_points_is_lost :
    Item.ofValue none (.map (packageFields [(.text "entryPoints", .null)])) =
        .ok (packageOf [classItem]) ∧
      Item.ofValue none (.map (packageFields [(.text "entryPoints", .list [])])) =
        .ok (packageOf [classItem]) ∧
      (packageOf [classItem]).entryPoints = [] ∧
      (packageOn [classItem]).children = [] ∧
      ((siteOf [classItem]).generate plainOutput plainDisk none).1 =
        .ok (["index.html", "p.html"].map plainOutput.child) :=
  ⟨ofValue_packageFields rfl, ofValue_packageFields rfl, rfl, rfl,
    eq_ok_of_toOption (by decide +kernel)⟩

end Site

end RefSite
