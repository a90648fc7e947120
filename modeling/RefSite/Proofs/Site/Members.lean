import RefSite.Proofs.Site.Order
import RefSite.Proofs.Site.Rows

namespace RefSite

namespace Placed

/-- The kinds of items whose members are listed. -/
def containerKinds : List Kind :=
  [.model, .package, .namespaceDecl, .classDecl, .interface, .enum]

/-- The item lists the members of its own or, if it is a package, those of its first entry point. -/
theorem mem_listed_iff {k : Kind} {p m : Placed} : m ∈ p.listed k ↔
    if k = .package then ∃ e, p.entryPoints.head? = some e ∧ m ∈ e.members else m ∈ p.members := by
  by_cases hk : k = .package
  · subst hk
    rw [listed_package, if_pos rfl]
    cases p.entryPoints.head? <;> simp
  · rw [if_neg hk]
    rw [listed_of_ne_package hk]

end Placed

namespace Site

open Placed

variable {Event : Type} {s : Site Event} {output : Path} {p m : Placed} {k : Kind}

theorem allOn_ne_nil (hk : k ∈ containerKinds) : Section.allOn k ≠ [] := by
  revert k
  decide

/-- Every member that a page lists is of a known kind, if the page can be built. -/
theorem isKnown_of_pageText {t : String} (h : (s.pageText p).result = .ok t)
    (hp : p.self.kind.kind? = some k) (hk : k ∈ containerKinds) (hm : m ∈ p.listed k) :
    m.self.kind.isKnown = true := by
  obtain ⟨content, hcontent⟩ := shows_of_pageText h
  exact (Page.main_tables hp (allOn_ne_nil hk) hcontent.main).1 m hm

/-- A member of an unknown kind ends the run: when it is a member of a model, namespace, class,
interface or enumeration that gets a page, or of the first entry point of a package that gets one,
the run fails, and the page is not among those that it has written. -/
theorem unknown_members_stop_run (hp : p ∈ s.model.pages) (hkind : p.self.kind.kind? = some k)
    (hk : k ∈ containerKinds)
    (hm : if k = .package then ∃ e, p.entryPoints.head? = some e ∧ m ∈ e.members else m ∈ p.members)
    (hunknown : m.self.kind.isKnown = false) (disk : Disk)
    (active : Option (Feature.Active Event)) :
    (∃ f, (s.generate output disk active).1 = .error f) ∧
      ∀ start, (s.setUp output).run { disk, active } = (.ok (), start) →
        ∃ done rest, s.model.pages = done ++ rest ∧ p ∉ done ∧
          (s.generate output disk active).2.written = done.map (pageFile output) := by
  -- a page that was written could be built, and then all that it lists is known
  have hunwritten {done : List Placed} {start r : Run Event}
      (h : WroteAll s output done start r) : p ∉ done := by
    intro hmem
    obtain ⟨t, ht⟩ := h.text p hmem
    have hknown := isKnown_of_pageText ht hkind hk (mem_listed_iff.2 hm)
    rw [hunknown] at hknown
    exact nomatch hknown
  constructor
  · rcases h : s.generate output disk active with ⟨x, r⟩
    cases x with
    | error f => exact ⟨f, rfl⟩
    | ok files =>
      obtain ⟨_, _, -, hall, -⟩ := generate_ok h
      exact absurd hp (hunwritten hall)
  · intro start hs
    obtain ⟨hwritten, -⟩ := setUp_pages hs
    obtain ⟨r₁, r, hall, -⟩ | ⟨done, q, later, f, r₁, r, hpages, hdone, -, hw, hg⟩ :=
      generate_cases hs
    · exact absurd hp (hunwritten hall)
    · refine ⟨done, q :: later, hpages, hunwritten hdone, ?_⟩
      rw [hg]
      dsimp only
      rw [hw, hdone.written, hwritten, List.nil_append]

def rootOf (packages : List Item) : Item := .mk { kind := .known .model, name := "" } packages

/-- A package with the given members. -/
def packageOf (ms : List Item) : Item := .mk { kind := .known .package, name := "p" } ms

def entryPointOf (ms : List Item) : Item := .mk { kind := .known .entryPoint, name := "" } ms

/-- An item of no known kind. -/
def stranger : Item := .mk { kind := .bare "Bogus", name := "odd" } []

/-- A site of one package with the given members. -/
def siteOf (ms : List Item) : Site Unit :=
  { plainSite with model := (rootOf [packageOf ms]).placed }

/-- The package on its site. -/
def packageOn (ms : List Item) : Placed := (packageOf ms).placedBelow [(rootOf []).self]

theorem packageOn_mem_pages (ms : List Item) : packageOn ms ∈ (siteOf ms).model.pages :=
  mem_pages_of_mem_children (q := packageOn ms) List.mem_cons_self (mem_pages_self _)

/-- A stranger in the first entry point of a package ends the run at the page of the package. -/
theorem stranger_in_first_entry_point_stops_run :
    let site := siteOf [entryPointOf [stranger]]
    let package := packageOn [entryPointOf [stranger]]
    package ∈ site.model.pages ∧ package.self.kind.kind? = some .package ∧
      (∃ e, package.entryPoints.head? = some e ∧ ∃ m ∈ e.members, m.self.kind.isKnown = false) ∧
      ∃ f, (site.generate plainOutput plainDisk none).1 = .error f := by
  intro site package
  have hp : package ∈ site.model.pages := packageOn_mem_pages _
  let e := (entryPointOf [stranger]).placedBelow package.place.levels
  let m := stranger.placedBelow e.place.levels
  have hm : m ∈ e.members := List.mem_cons_self
  have hstops : ∃ f, (site.generate plainOutput plainDisk none).1 = .error f :=
    (unknown_members_stop_run (k := .package) (m := m) hp rfl (by decide) ⟨e, rfl, hm⟩ rfl
      plainDisk none).1
  exact ⟨hp, rfl, ⟨e, rfl, m, hm, rfl⟩, hstops⟩

/-- Strangers go unnoticed in two places: beside the entry points of a package, and in an entry
point after the first. Both runs end well. -/
theorem strangers_that_go_unnoticed :
    let beside := [entryPointOf [], stranger]
    let later := [entryPointOf [], entryPointOf [stranger]]
    let files := ["index.html", "p.html"].map plainOutput.child
    (packageOn beside ∈ (siteOf beside).model.pages ∧
      (∃ m ∈ (packageOn beside).members, m.self.kind.isKnown = false) ∧
      ((siteOf beside).generate plainOutput plainDisk none).1 = .ok files) ∧
    packageOn later ∈ (siteOf later).model.pages ∧
      (∃ e ∈ (packageOn later).members, e.self.is .entryPoint = true ∧
        ∃ m ∈ e.members, m.self.kind.isKnown = false) ∧
      ((siteOf later).generate plainOutput plainDisk none).1 = .ok files := by
  intro beside later files
  refine ⟨⟨packageOn_mem_pages _, ?_, eq_ok_of_toOption (by decide +kernel)⟩,
    packageOn_mem_pages _, ?_, eq_ok_of_toOption (by decide +kernel)⟩
  · exact ⟨stranger.placedBelow (packageOn beside).place.levels,
      List.mem_cons_of_mem _ List.mem_cons_self, rfl⟩
  · let e := (entryPointOf [stranger]).placedBelow (packageOn later).place.levels
    exact ⟨e, List.mem_cons_of_mem _ List.mem_cons_self, rfl,
      stranger.placedBelow e.place.levels, List.mem_cons_self, rfl⟩

end Site

end RefSite
