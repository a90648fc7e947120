import RefSite.Proofs.Site.Counterparts
import RefSite.Proofs.Site.Loaded
import RefSite.Proofs.Site.Order
import RefSite.Proofs.Site.Refilling
import RefSite.Proofs.Site.RowOrder

namespace RefSite

open List (Forall₂)
open Disk

namespace Site

variable {Event : Type} {s : Site Event} {output : Path} {disk d : Disk} {i c : Item} {m : Placed}
  {x : List Nat} {files : List Path} {r : Run Event} {qs : List Placed}

/-- A page that can be built, has a name of its own, and has a path that led to a place for a file,
is not refused whichever pages have been written before. -/
theorem WroteAll.not_refused {done : List Placed} {start r₁ : Run Event} {p : Placed} {f : Failure}
    {made : Disk} {place : List String} (h : WroteAll s output done start r₁)
    (howners : start.owners = []) (hmade : (makeFolders output).run start.disk = (.ok (), made))
    (hbuilt : ∃ t, (s.pageText p).result = .ok t)
    (hname : ∀ q ∈ done, q.place.fileName ≠ p.place.fileName)
    (htakes : TakesFile made (pageFile output p) place) : ¬ Refused s output p r₁ f d := by
  intro hp
  cases hp.obstacle h howners with
  | unbuilt herror _ =>
    obtain ⟨t, ht⟩ := hbuilt
    exact nomatch herror.symm.trans ht
  | shared hq hsame => exact hname _ hq hsame
  | @unwritten t g r₂ d ht h₂ herror =>
    have hwrites := h₂.writes hmade htakes s.config.lineEnd t
    rw [herror] at hwrites
    exact nomatch hwrites

/-- Both sites have written all their pages, and into the same folder. -/
structure Reruns (s s' : Site Event) (output : Path) (start r₁ r₂ : Run Event) : Prop where
  owners : start.owners = []
  written : start.written = []
  leads : start.disk.LeadsToFolder output
  first : WroteAll s output s.model.pages start r₁
  second : WroteAll s' output s'.model.pages start r₂

/-- Where a run over a tree ends well, so does a run over a tree with pages of the same names, in
whichever order, as long as these can be built. -/
theorem generate_again (hplugins : ∀ g, s.config? = some g → g.plugins = [])
    (h : s.generate output disk none = (.ok files, r)) (hqs : qs.Perm m.pages)
    (hpages : Forall₂ SameNames s.model.pages qs)
    (hbuilt : ∀ p ∈ m.pages, ∃ t, (({ s with model := m } : Site Event).pageText p).result = .ok t) :
    ∃ start r₁ r₂ r', Reruns s { s with model := m } output start r₁ r₂ ∧
      files = r₁.written ∧ r.disk = r₁.disk ∧
      ({ s with model := m } : Site Event).generate output disk none = (.ok r₂.written, r') ∧
      r'.disk = r₂.disk := by
  let s' : Site Event := { s with model := m }
  obtain ⟨begun, r₁, hsetUp, hall, hfiles, hdisk⟩ := generate_wrote h
  obtain ⟨hwritten, howners⟩ := setUp_pages hsetUp
  have hactive := setUp_active_of_no_plugins hplugins hsetUp
  have hsetUp' : (s'.setUp output).run { disk, active := none } = (.ok (), begun) := by
    rw [run_setUp_of_no_plugins hplugins] at hsetUp
    exact (run_setUp_of_no_plugins (s := s') hplugins output _).trans hsetUp
  obtain ⟨r₂, r', hall', -, hdisk', hg⟩ | ⟨done, p', later, f, r₂, r', he, hdone, hp, -, -⟩ :=
    generate_cases hsetUp'
  · have hhook : hookResult r₂ = .ok () := by
      rw [hookResult, hall'.active, hactive]
    rw [hhook] at hg
    obtain ⟨made, hleads, hfirst, hsecond⟩ :=
      hall.madeAlike hall' s.model.pages_ne_nil m.pages_ne_nil rfl
    exact ⟨{ begun with disk := made }, r₁, r₂, r', ⟨howners, hwritten, hleads, hfirst, hsecond⟩,
      hfiles, hdisk, hg, hdisk'⟩
  · -- a page that was refused would have the name of a page that was written in the other run
    have he : m.pages = done ++ p' :: later := he
    have hmem : p' ∈ m.pages := by
      rw [he]
      exact List.mem_append_right _ List.mem_cons_self
    obtain ⟨made, hmade, hleads, hfirst⟩ := hall.made s.model.pages_ne_nil
    obtain ⟨p, hpage, hname⟩ := exists_of_mem_right hpages (hqs.mem_iff.2 hmem)
    obtain ⟨place, content, htakes, -⟩ := (hfirst.fills hleads).2 p hpage
    have hnames : (m.pages.map fun p => p.place.fileName).Nodup := by
      rw [← (hqs.map _).nodup_iff, map_fileName hpages]
      exact hall.nodup howners
    rw [he, List.map_append, List.map_cons] at hnames
    have hother : ∀ q ∈ done, q.place.fileName ≠ p'.place.fileName := fun q hq =>
      (List.nodup_append.1 hnames).2.2 _ (List.mem_map_of_mem hq) _ List.mem_cons_self
    exact absurd hp (hdone.not_refused howners hmade (hbuilt p' hmem) hother
      (hname.pageFile_eq output ▸ htakes))

/-- No other page has the file of the page. -/
def HasOwnFile (s : Site Event) (output : Path) (d : Disk) (p : Placed) : Prop :=
  ∀ q ∈ s.model.pages, OneFile output d p q → q.place.fileName = p.place.fileName

namespace Reruns

variable {s' : Site Event} {start r₁ r₂ : Run Event}

theorem perm_written (h : Reruns s s' output start r₁ r₂) (hqs : qs.Perm s'.model.pages)
    (hpages : Forall₂ SameNames s.model.pages qs) : r₂.written.Perm r₁.written := by
  rw [h.first.written, h.second.written, ← map_pageFile hpages]
  exact (hqs.symm.map _).append_left _

/-- A page and the one of its name in the other run are both held in their file, when it is the
page's own. -/
theorem holds (h : Reruns s s' output start r₁ r₂) (hqs : qs.Perm s'.model.pages)
    (hpages : Forall₂ SameNames s.model.pages qs) {p p' : Placed} (hp : p ∈ s.model.pages)
    (hp' : p' ∈ s'.model.pages) (hname : SameNames p p') (hown : s.HasOwnFile output r₁.disk p) :
    (∃ place, Holds s output r₁.disk p place) ∧ ∃ place, Holds s' output r₂.disk p' place := by
  refine ⟨h.first.holds (.refl _) (h.first.nodup h.owners) p hp hown,
    h.second.holds (.refl _) (h.second.nodup h.owners) p' hp' fun q' hq' hone => ?_⟩
  obtain ⟨q, hq, hqname⟩ := exists_of_mem_right hpages (hqs.mem_iff.2 hq')
  have hsame := hown q hq (h.first.oneFile h.second h.leads hp hq hp' hq' hname hqname hone)
  rw [hqname, hsame, hname]

end Reruns

/-- The run over the other tree ends well and writes the same files. Each file that is one page's own
says the same, unless the page is one that may be reordered; then it is the same page up to the order
of the rows in its tables. -/
def Reordered (s : Site Event) (output : Path) (disk : Disk) (files : List Path) (r : Run Event)
    (m : Placed) (reordered : Placed → Prop) : Prop :=
  ∃ files' r', ({ s with model := m } : Site Event).generate output disk none = (.ok files', r') ∧
    files'.Perm files ∧ ∀ p ∈ s.model.pages, s.HasOwnFile output r.disk p →
      (∃ content, r.disk.read (pageFile output p) = .ok content ∧
        r'.disk.read (pageFile output p) = .ok content) ∨
      reordered p ∧ ∃ p' ∈ m.pages, SameNames p p' ∧ SameButRowOrder s { s with model := m } p p' ∧
        (∃ place, Holds s output r.disk p place) ∧
          ∃ place, Holds { s with model := m } output r'.disk p' place

theorem Reordered.mono {reordered reordered' : Placed → Prop}
    (h : s.Reordered output disk files r m reordered) (hr : ∀ p, reordered p → reordered' p) :
    s.Reordered output disk files r m reordered' := by
  obtain ⟨files', r', hg, hperm, hpages⟩ := h
  refine ⟨files', r', hg, hperm, fun p hp hown => ?_⟩
  exact (hpages p hp hown).imp_right fun hmoved => ⟨hr p hmoved.1, hmoved.2⟩

theorem SameButRowOrder.built {s' : Site Event} {q q' : Placed} (h : SameButRowOrder s s' q q') :
    ∃ t, (s'.pageText q').result = .ok t := by
  obtain ⟨_, _, _, _, _, -, -, hshows, -⟩ := h
  obtain ⟨t, -, ht⟩ := hshows.text
  exact ⟨_, ht⟩

/-- When the members of an item stand in another order, pages are the same up to the order of their
rows, and those that do not tabulate the members are the same. -/
theorem counterpart_page {old new : Item} {y : List Nat} {q q' : Placed} (hmodel : s.model = i.placed)
    (hx : i.at? x = some old) (hs : new.StandsFor old) (hself : new.self = old.self)
    (hq : i.placed.PageAt y q) (hqq : Placed.Counterpart x old new y q q')
    (hbuilt : ∃ t, (s.pageText q).result = .ok t) :
    SameButRowOrder s { s with model := (i.replaceAt x new).placed } q q' ∧
      (({ s with model := (i.replaceAt x new).placed } : Site Event).pageText q' = s.pageText q ∨
        i.placed.TablePageAt x q) := by
  have hroot : (i.replaceAt x new).placed.place.identity = s.model.place.identity := by
    rw [hmodel, Placed.root_identity_eq hx hs.identity]
  have hpage : q'.place.onPage = q.place.onPage := hqq.onPage_eq fun _ => by rw [hself]
  constructor
  · obtain ⟨t, ht⟩ := hbuilt
    obtain ⟨content, hshows⟩ := shows_of_pageText ht
    obtain ⟨k, _, _, _, _, _, hk, -⟩ := Page.main_parts hshows.main
    obtain ⟨ms, hms, hlisted, -⟩ := hqq.listedAt hs hk
    refine hshows.reordered (by rfl) (by rfl) (.of_onPage hroot hpage) hk hms.symm ?_
    exact Page.rows_congr (Placed.Counterpart.rowsAgree hs.identity hk hlisted
      fun _ _ _ _ => by rw [hself])
  · by_cases htable : i.placed.TablePageAt x q
    · exact .inr htable
    · refine .inl (hqq.text_eq hs _ hroot (fun _ => by rw [hself]) (fun _ _ _ _ => by rw [hself])
        fun z hz hyz => ?_)
      exact absurd ⟨y, z, hq, hz, hyz⟩ htable

theorem generate_reordered {old new : Item} (hmodel : s.model = i.placed)
    (hplugins : ∀ g, s.config? = some g → g.plugins = []) (hx : i.at? x = some old)
    (hs : new.StandsFor old) (hself : new.self = old.self)
    (h : s.generate output disk none = (.ok files, r)) :
    s.Reordered output disk files r (i.replaceAt x new).placed (i.placed.TablePageAt x) := by
  let s' : Site Event := { s with model := (i.replaceAt x new).placed }
  obtain ⟨qs, hqs, hcounter, -⟩ := Placed.pages_counterparts hs hx
  obtain ⟨begun, r₀, -, hall, -⟩ := generate_ok h
  have hpages : Forall₂ (fun q q' => SameNames q q' ∧ SameButRowOrder s s' q q' ∧
      (s'.pageText q' = s.pageText q ∨ i.placed.TablePageAt x q)) s.model.pages qs := by
    rw [← hmodel] at hcounter
    refine ((List.forall₂_and_left _ _).2 ⟨hall.text, hcounter⟩).imp fun q q' hq => ?_
    obtain ⟨hbuilt, y, hy, hqq⟩ := hq
    rw [hmodel] at hy
    exact ⟨Place.fileName_congr (hqq.identity_eq hs.identity),
      counterpart_page hmodel hx hs hself hy hqq hbuilt⟩
  -- the names of files and whether pages can be built do not depend on the order of rows
  have hnames : Forall₂ SameNames s.model.pages qs := hpages.imp fun _ _ hp => hp.1
  have hbuilt (p' : Placed) (hp' : p' ∈ s'.model.pages) :
      ∃ t, (s'.pageText p').result = .ok t := by
    obtain ⟨p, -, hp⟩ := exists_of_mem_right hpages (hqs.mem_iff.2 hp')
    exact hp.2.1.built
  obtain ⟨start, r₁, r₂, r', hruns, hfiles, hdisk, hg, hdisk'⟩ :=
    generate_again hplugins h hqs hnames hbuilt
  refine ⟨r₂.written, r', hg, ?_, fun p hp hown => ?_⟩
  · rw [hfiles]
    exact hruns.perm_written hqs hnames
  · obtain ⟨p', hp', hname, horder, htext⟩ := exists_of_mem_right hpages.flip hp
    have hp' := hqs.mem_iff.1 hp'
    rw [hdisk] at hown ⊢
    rw [hdisk']
    obtain ⟨⟨place, hholds⟩, place', hholds'⟩ := hruns.holds hqs hnames hp hp' hname hown
    obtain hsame | htable := htext
    · obtain ⟨t, ht, hread⟩ := hholds.read
      obtain ⟨t', ht', hread'⟩ := hholds'.read
      rw [← hsame] at ht
      cases ht.symm.trans ht'
      rw [hname.pageFile_eq] at hread'
      exact .inl ⟨_, hread, hread'⟩
    · exact .inr ⟨htable, p', hp', hname, horder, ⟨place, hholds⟩, place', hholds'⟩

/-- The packages of files are those of the first one and those of the others. -/
theorem loadPackages_cons_eq_ok (f : Path) (fs : List Path) (is : List Item) :
    (Item.loadPackages d (f :: fs)).result = .ok is ↔
      ∃ js, (∃ es vs, Item.readMapping d f = .ok es ∧ Item.rawPackages f es = .ok vs ∧
        (Item.packagesOfValues f vs).result = .ok js) ∧
      ∃ rest, (Item.loadPackages d fs).result = .ok rest ∧ is = js ++ rest := by
  rw [Item.loadPackages]
  simp only [Logged.bind_eq_ok]
  constructor
  · rintro ⟨es, hes, vs, hvs, js, hjs, rest, hrest, h⟩
    cases h
    exact ⟨js, ⟨es, vs, hes, hvs, hjs⟩, rest, hrest, rfl⟩
  · rintro ⟨js, ⟨es, vs, hes, hvs, hjs⟩, rest, hrest, rfl⟩
    exact ⟨es, hes, vs, hvs, js, hjs, rest, hrest, rfl⟩

/-- Files in another order make a model with the same packages in another order. -/
theorem loadModel_perm {fs fs' : List Path} {name : String} (hfs : fs'.Perm fs)
    (h : (Item.loadModel d fs name).result = .ok i) :
    ∃ is, is.Perm i.members ∧ (Item.loadModel d fs' name).result = .ok (.mk i.self is) ∧
      i.self.kind = .known .model := by
  obtain ⟨is, his, hi⟩ := Logged.bind_eq_ok.1 h
  cases hi
  obtain ⟨is', his', hperm⟩ := exists_perm_of_parts
    (fun fs is => (Item.loadPackages d fs).result = .ok is) loadPackages_cons_eq_ok hfs his
  exact ⟨is', hperm, Logged.bind_eq_ok.2 ⟨is', his', rfl⟩, rfl⟩

/-- The order of members is the order of rows, and nothing else. Take a tree over which a run without
plugins ends well. When the members of one of its items stand in another order (those of a package in
one with the same first entry point), the run ends well too and writes the same files. Every file
that is one page's own says the same, except the one of the page that tabulates these members, whose
tables have the same rows in another order. When the tree was loaded, the order of the model files
makes no difference but in this way on the root's page. Where the output path leads to the folder
that was emptied, every file is one page's own; elsewhere links can make it that of more pages. -/
theorem member_order_is_row_order (hmodel : s.model = i.placed)
    (hplugins : ∀ g, s.config? = some g → g.plugins = [])
    (h : s.generate output disk none = (.ok files, r)) :
    files = s.model.pages.map (pageFile output) ∧
    (∀ x c ms, i.at? x = some c → ms.Perm c.members →
      (c.self.is .package = true → (Item.mk c.self ms).entryPoints.head? = c.entryPoints.head?) →
        s.Reordered output disk files r (i.replaceAt x (.mk c.self ms)).placed
          (i.placed.TablePageAt x)) ∧
    (∀ d fs fs' name, (Item.loadModel d fs name).result = .ok i → fs'.Perm fs →
      ∃ j, (Item.loadModel d fs' name).result = .ok j ∧
        s.Reordered output disk files r j.placed fun p => p.place.fileName = "index.html") ∧
    ∀ dir, EmptiesTo output disk dir → ∀ p, s.HasOwnFile output r.disk p := by
  have reordered {x : List Nat} {c : Item} {ms : List Item} (hx : i.at? x = some c)
      (hms : ms.Perm c.members) (hfirst : c.self.is .package = true →
        (Item.mk c.self ms).entryPoints.head? = c.entryPoints.head?) :
      s.Reordered output disk files r (i.replaceAt x (.mk c.self ms)).placed
        (i.placed.TablePageAt x) :=
    generate_reordered hmodel hplugins hx ⟨rfl, hms, hfirst⟩ rfl h
  refine ⟨generate_files h, fun x c ms hx hms hfirst => reordered hx hms hfirst,
    fun d fs fs' name hload hfs => ?_, fun dir hempty p q _ hone => hone.of_generate h hempty⟩
  obtain ⟨is, hperm, hload', hkind⟩ := loadModel_perm hfs hload
  have hnot : i.self.is .package ≠ true := by
    rw [Declaration.is, hkind]
    decide
  refine ⟨_, hload', (reordered (x := []) rfl hperm fun hp => absurd hp hnot).mono fun p hp => ?_⟩
  -- the members of the root are tabulated on the root's page
  obtain ⟨y, z, hpage, -, hyz⟩ := hp
  obtain rfl : y = [] := (List.append_eq_nil_iff.1 hyz).1
  have hmodelKind : i.placed.place.self.is .model = true := by
    rw [Item.placed, Item.place_placedBelow, Declaration.is, hkind]
    rfl
  rw [Placed.PageAt.root.unique hpage, Place.fileName, if_pos hmodelKind]
  rfl

/-- A package of controls. -/
def controls (members : List Item) : Item :=
  .mk { kind := .known .model, name := "" }
    [.mk { kind := .known .package, name := "panel" }
      [.mk { kind := .known .entryPoint, name := "" } members]]

def dial : Item := .mk { kind := .known .classDecl, name := "Dial" } []

def mode : Item :=
  .mk { kind := .known .enum, name := "Mode" } [.mk { kind := .known .enumMember, name := "Fast" } []]

def controlsSite : Site Unit where
  model := (controls [dial, mode]).placed
  config? := none
  origin := .site
  registry := []
  stylesheet := ⟨.root, ["styles.css"]⟩

def controlFiles : List Path :=
  ["index.html", "panel.html", "panel.Dial.html", "panel.Mode.html"].map plainOutput.child

/-- When the class and the enumeration change places, all files but that of the package stay as they
are. -/
theorem controls_change_places :
    controlsSite.Reordered plainOutput plainDisk controlFiles
      (controlsSite.generate plainOutput plainDisk none).2 (controls [mode, dial]).placed
      ((controls [dial, mode]).placed.TablePageAt [0, 0]) := by
  have hfiles : (controlsSite.generate plainOutput plainDisk none).1.toOption =
      some controlFiles := by
    decide +kernel
  have hrun : controlsSite.generate plainOutput plainDisk none =
      (.ok controlFiles, (controlsSite.generate plainOutput plainDisk none).2) :=
    Prod.ext (eq_ok_of_toOption hfiles) rfl
  have hplugins : ∀ g, controlsSite.config? = some g → g.plugins = [] := by
    intro g hg
    exact nomatch (hg : none = some g)
  let entry (members : List Item) : Item := .mk { kind := .known .entryPoint, name := "" } members
  have hat : (controls [dial, mode]).at? [0, 0] = some (entry [dial, mode]) := rfl
  have hreplaced : (controls [dial, mode]).replaceAt [0, 0] (entry [mode, dial]) =
      controls [mode, dial] := rfl
  have hpackage : (entry [dial, mode]).self.is .package ≠ true := by decide
  rw [← hreplaced]
  exact (member_order_is_row_order (i := controls [dial, mode]) rfl hplugins hrun).2.1 [0, 0]
    (entry [dial, mode]) [mode, dial] hat (.swap _ _ _) fun hp => absurd hp hpackage

/-- The output path leads to another folder once its own is empty, and in that folder a link makes
the file of one package the file of the other. -/
def sharingDisk : Disk where
  root := .folder
    [("styles.css", .file .empty),
      ("a", .folder [("x", .link "/o/s/t")]),
      ("o", .folder [("s", .folder [("t", .folder [])]), ("b", .link "/a")]),
      ("b", .folder [("q.html", .link "p.html")])]
  here := []

def sharingRun (names : List String) : Except Failure (List Path) × Run Unit :=
  (ofPackages none names []).generate crossedOutput sharingDisk none

/-- The sites of two packages in both orders write the same files, and yet the file of the first one
does not say the same: it holds the page of the package that came last. -/
theorem last_package_has_shared_file :
    (sharingRun ["p", "q"]).1.toOption =
        some (["index.html", "p.html", "q.html"].map crossedOutput.child) ∧
      (sharingRun ["q", "p"]).1.toOption =
        some (["index.html", "q.html", "p.html"].map crossedOutput.child) ∧
      (sharingRun ["q", "p"]).2.disk.read (crossedOutput.child "p.html") ≠
        (sharingRun ["p", "q"]).2.disk.read (crossedOutput.child "p.html") := by
  have hfiles : (sharingRun ["p", "q"]).1.toOption =
      some (["index.html", "p.html", "q.html"].map crossedOutput.child) := by
    decide +kernel
  have hfiles' : (sharingRun ["q", "p"]).1.toOption =
      some (["index.html", "q.html", "p.html"].map crossedOutput.child) := by
    decide +kernel
  refine ⟨hfiles, hfiles', ?_⟩
  have hrun : (ofPackages none ["p", "q"] []).generate crossedOutput sharingDisk none =
      (.ok _, (sharingRun ["p", "q"]).2) := Prod.ext (eq_ok_of_toOption hfiles) rfl
  have hrun' : (ofPackages none ["q", "p"] []).generate crossedOutput sharingDisk none =
      (.ok _, (sharingRun ["q", "p"]).2) := Prod.ext (eq_ok_of_toOption hfiles') rfl
  exact read_last_file_ne hrun' hrun (by decide +kernel) (by decide +kernel) (by decide +kernel)

end Site

end RefSite
