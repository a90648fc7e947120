import RefSite.Proofs.Site.Counterparts
import RefSite.Proofs.Site.Order
import RefSite.Proofs.Site.Refilling

namespace RefSite

open List (Forall₂)

namespace Declaration

variable {d d' : Declaration}

/-- The declarations differ in what is shown on an item's own page only: the remarks, the signature,
the release tag and the types of parameters. -/
structure DiffersInDetails (d d' : Declaration) : Prop where
  others : d' = { d with
    comment := d'.comment
    excerpt := d'.excerpt
    modifiers := d'.modifiers
    release := d'.release
    parameters := d'.parameters }
  summary : (d'.comment.map Comment.summary).getD [] = (d.comment.map Comment.summary).getD []
  names : d'.parameters.map Parameter.name = d.parameters.map Parameter.name

structure DiffersInSummary (d d' : Declaration) : Prop where
  others : d' = { d with comment := d'.comment }
  remarks : d'.comment.bind Comment.remarks = d.comment.bind Comment.remarks

/-- The declarations differ in what is shown in an item's row only. -/
structure DiffersInColumns (d d' : Declaration) : Prop where
  others : d' = { d with
    isStatic := d'.isStatic
    isEvent := d'.isEvent
    propertyType := d'.propertyType
    initializer := d'.initializer }

theorem DiffersInDetails.identity_eq (h : DiffersInDetails d d') : d'.identity = d.identity := by
  rw [h.others]
  rfl

theorem DiffersInSummary.identity_eq (h : DiffersInSummary d d') : d'.identity = d.identity := by
  rw [h.others]
  rfl

theorem DiffersInColumns.identity_eq (h : DiffersInColumns d d') : d'.identity = d.identity := by
  rw [h.others]
  rfl

theorem DiffersInDetails.inRow_eq (h : DiffersInDetails d d') : d'.inRow = d.inRow := by
  have hnames : d'.parameters.map (fun q => (⟨q.name, ""⟩ : Parameter)) =
      d.parameters.map fun q => ⟨q.name, ""⟩ := by
    have hmap := congrArg (List.map fun n => (⟨n, ""⟩ : Parameter)) h.names
    rwa [List.map_map, List.map_map] at hmap
  rw [inRow, inRow, h.summary, hnames, h.others]

theorem DiffersInColumns.onPage_eq (h : DiffersInColumns d d') : d'.onPage = d.onPage := by
  rw [h.others]
  rfl

end Declaration

namespace Site

open Disk

variable {Event : Type} {s : Site Event} {output : Path} {disk d d' : Disk} {i old new : Item}
  {x : List Nat} {files files' : List Path} {r r' start start' : Run Event}
  {active active' : Option (Feature.Active Event)} {differs : Placed → Prop}

/-- The files say the same on both disks, apart from those that are pages that may differ. A file is
a page's also when a link gives it another name. -/
def AgreeBut (output : Path) (differs : Placed → Prop) (files : List Path) (d d' : Disk) : Prop :=
  ∀ f ∈ files, (∃ content, d.read f = .ok content ∧ d'.read f = .ok content) ∨
    ∃ q, differs q ∧ d.isSame f (pageFile output q) = .ok true

/-- Runs that write the same pages one by one, apart from what some of them say, leave the same
files behind, apart from the files of these. -/
theorem WroteAll.agree {s s' : Site Event} {ps ps' : List Placed} (hconfig : s'.config = s.config)
    (h : WroteAll s output ps start r) (h' : WroteAll s' output ps' start' r') (hps : ps ≠ [])
    (hstart : start'.disk = start.disk)
    (hpages : Forall₂ (fun p p' => SameNames p p' ∧
      (s'.pageText p' = s.pageText p ∨ differs p)) ps ps') :
    AgreeBut output differs (ps.map (pageFile output)) r.disk r'.disk := by
  have hps' : ps' ≠ [] := by
    rintro rfl
    exact hps (List.forall₂_nil_right_iff.1 hpages)
  obtain ⟨made, hout, h, h'⟩ := h.madeAlike h' hps hps' hstart
  -- what may differ are the places that the pages in question are written to
  let places (place : List String) : Prop :=
    ∃ q, differs q ∧ TakesFile r.disk (pageFile output q) place
  have halike : Alike places r.disk r'.disk := by
    refine h.alike hconfig h' (hpages.imp fun p p' hp => ⟨hp.1, ?_⟩) hout (.refl _)
    exact hp.2.imp_right fun hdiffers place hplace => ⟨p, hdiffers, hplace⟩
  intro f hf
  obtain ⟨p, hp, rfl⟩ := List.mem_map.1 hf
  obtain ⟨place, content, -, hfile⟩ := (h.fills hout).2 p hp
  by_cases hplace : places place
  · obtain ⟨q, hq, htakes⟩ := hplace
    exact .inr ⟨q, hq, isSame_iff.2 ⟨place, _, hfile,
      htakes.locate_entry (locate_eq_ok_iff.1 hfile).2.at_found⟩⟩
  · exact .inl ⟨content, read_eq_ok hfile, read_eq_ok (halike.grows.locate_file hfile hplace)⟩

/-- Runs over trees that differ in one item write the same files, and these say the same, apart from
the page of the item if it shows something else of it, and the page with its row if this does. -/
theorem generate_agree (hmodel : s.model = i.placed) (hx : i.at? x = some old)
    (hid : new.self.identity = old.self.identity) (hmembers : new.members = old.members)
    (hpage : ∀ q, i.placed.PageAt x q → new.self.onPage = old.self.onPage ∨ differs q)
    (hrow : ∀ q, i.placed.RowPageAt x q → new.self.inRow = old.self.inRow ∨ differs q)
    (h : s.generate output disk active = (.ok files, r))
    (h' : ({ s with model := (i.replaceAt x new).placed } : Site Event).generate output disk
      active' = (.ok files', r')) :
    files' = files ∧ AgreeBut output differs files r.disk r'.disk := by
  have hs : new.StandsFor old :=
    ⟨hid, by rw [hmembers], fun _ => by rw [Item.entryPoints, hmembers, Item.entryPoints]⟩
  have hroot : (i.replaceAt x new).placed.place.identity = s.model.place.identity := by
    rw [hmodel, Placed.root_identity_eq hx hid]
  obtain ⟨qs, -, hqs, hsame⟩ := Placed.pages_counterparts hs hx
  rw [hsame hmembers] at hqs
  obtain ⟨start, r₁, hsetUp, hall, -, hdisk⟩ := generate_wrote h
  obtain ⟨start', r₁', hsetUp', hall', -, hdisk'⟩ := generate_wrote h'
  have hpages : Forall₂ (fun p p' => SameNames p p' ∧
      (({ s with model := (i.replaceAt x new).placed } : Site Event).pageText p' =
        s.pageText p ∨ differs p)) s.model.pages (i.replaceAt x new).placed.pages := by
    rw [hmodel]
    refine hqs.imp fun q q' hq => ?_
    obtain ⟨y, hy, hqq⟩ := hq
    refine ⟨Place.fileName_congr (hqq.identity_eq hid), ?_⟩
    -- a page that must not differ is not the item's own and has no row for it, or these are the same
    by_cases hdiffers : differs q
    · exact .inr hdiffers
    · refine .inl (hqq.text_eq hs _ hroot (fun hyx => ?_) (fun z m hm hyz => ?_)
        fun _ _ _ => hmembers)
      · subst hyx
        exact (hpage q hy).resolve_right hdiffers
      · exact (hrow q ⟨y, z, m, hy, hm, hyz⟩).resolve_right hdiffers
  rw [generate_files h, generate_files h', hdisk, hdisk']
  refine ⟨map_pageFile (hpages.imp fun _ _ hp => hp.1) output, ?_⟩
  exact hall.agree (by rfl) hall' s.model.pages_ne_nil
    (setUp_disk_eq (by rfl) (by rfl) hsetUp hsetUp') hpages

/-- In a folder without links a file of a page is the file of this page only. -/
theorem generate_isSame (h : s.generate output disk active = (.ok files, r)) {dir : List String}
    (hempty : EmptiesTo output disk dir) {f : Path} (hf : f ∈ files) {q : Placed}
    (hsame : r.disk.isSame f (pageFile output q) = .ok true) : f = pageFile output q := by
  rw [generate_files h] at hf
  obtain ⟨p, -, rfl⟩ := List.mem_map.1 hf
  rw [pageFile, ← OneFile.of_generate (p := p) h hempty hsame, pageFile]

/-- A page depends only on what it shows. Take two trees that differ in one item, and two runs over
them that end well. When the item has other remarks, another signature or release tag, or other
types of parameters, all files say the same except its own page; when it has another summary, all
except its own page and the one with its row; and when something else in its row is different, all
except the page with the row. The files are always the same ones. Where the output path leads to the
folder that was emptied, the files that may say something else are those with the names of these
pages; elsewhere links can make further files of them. -/
theorem pages_depend_on_what_they_show {e e' : Declaration} {ms : List Item}
    (hmodel : s.model = i.placed) (hx : i.at? x = some (.mk e ms))
    (h : s.generate output disk active = (.ok files, r))
    (h' : ({ s with model := (i.replaceAt x (.mk e' ms)).placed } : Site Event).generate output disk
      active' = (.ok files', r')) :
    (e.DiffersInDetails e' → files' = files ∧
      AgreeBut output (i.placed.PageAt x) files r.disk r'.disk) ∧
    (e.DiffersInSummary e' → files' = files ∧
      AgreeBut output (fun q => i.placed.PageAt x q ∨ i.placed.RowPageAt x q) files r.disk
        r'.disk) ∧
    (e.DiffersInColumns e' → files' = files ∧
      AgreeBut output (i.placed.RowPageAt x) files r.disk r'.disk) ∧
    ∀ dir, EmptiesTo output disk dir → ∀ f ∈ files, ∀ q,
      r.disk.isSame f (pageFile output q) = .ok true → f = pageFile output q := by
  have agree {differs : Placed → Prop} (hid : e'.identity = e.identity)
      (hpage : ∀ q, i.placed.PageAt x q → e'.onPage = e.onPage ∨ differs q)
      (hrow : ∀ q, i.placed.RowPageAt x q → e'.inRow = e.inRow ∨ differs q) :
      files' = files ∧ AgreeBut output differs files r.disk r'.disk := by
    have hself : (Item.mk e' ms).self.identity = (Item.mk e ms).self.identity := hid
    exact generate_agree hmodel hx hself rfl hpage hrow h h'
  refine ⟨fun hd => ?_, fun hd => ?_, fun hd => ?_, fun dir hempty f hf q => ?_⟩
  · exact agree hd.identity_eq (fun q hq => .inr hq) fun q _ => .inl hd.inRow_eq
  · exact agree hd.identity_eq (fun q hq => .inr (.inl hq)) fun q hq => .inr (.inr hq)
  · exact agree hd.identity_eq (fun q _ => .inl hd.onPage_eq) fun q hq => .inr hq
  · exact generate_isSame h hempty hf

/-- A package with a class that has one property. -/
def dialTree (property : Declaration) : Item :=
  .mk { kind := .known .model, name := "" }
    [.mk { kind := .known .package, name := "panel" }
      [.mk { kind := .known .entryPoint, name := "" }
        [.mk { kind := .known .classDecl, name := "Dial" } [.mk property []]]]]

def dialSite (property : Declaration) : Site Unit where
  model := (dialTree property).placed
  config? := none
  origin := .site
  registry := []
  stylesheet := ⟨.root, ["styles.css"]⟩

def speed : Declaration := { kind := .known .property, name := "speed", propertyType := "number" }

def dialFiles : List Path :=
  ["index.html", "panel.html", "panel.Dial.html", "panel.Dial.speed.html"].map plainOutput.child

/-- What is left of the run over the tree with the property. -/
def dialDisk (property : Declaration) : Disk :=
  ((dialSite property).generate plainOutput plainDisk none).2.disk

/-- A release tag changes the page of a property, a summary changes the page of its class as well,
and a type changes the page of the class only. -/
theorem changed_property_changes_pages :
    AgreeBut plainOutput ((dialTree speed).placed.PageAt [0, 0, 0, 0]) dialFiles (dialDisk speed)
      (dialDisk { speed with release := some .beta }) ∧
    AgreeBut plainOutput (fun q => (dialTree speed).placed.PageAt [0, 0, 0, 0] q ∨
        (dialTree speed).placed.RowPageAt [0, 0, 0, 0] q) dialFiles (dialDisk speed)
      (dialDisk { speed with comment := some ⟨[.plain "PlainText" (.text "fast")], none⟩ }) ∧
    AgreeBut plainOutput ((dialTree speed).placed.RowPageAt [0, 0, 0, 0]) dialFiles (dialDisk speed)
      (dialDisk { speed with propertyType := "string" }) := by
  have returns (d : Declaration) (h : ((dialSite d).generate plainOutput plainDisk none).1.toOption =
      some dialFiles) : ({ dialSite speed with model :=
        ((dialTree speed).replaceAt [0, 0, 0, 0] (.mk d [])).placed } : Site Unit).generate
          plainOutput plainDisk none = (.ok dialFiles,
            ((dialSite d).generate plainOutput plainDisk none).2) :=
    Prod.ext (eq_ok_of_toOption h) rfl
  have hspeed : (dialSite speed).generate plainOutput plainDisk none =
      (.ok dialFiles, ((dialSite speed).generate plainOutput plainDisk none).2) :=
    returns speed (by decide +kernel)
  have hat : (dialTree speed).at? [0, 0, 0, 0] = some (.mk speed []) := rfl
  refine ⟨?_, ?_, ?_⟩
  · have hrun := returns { speed with release := some .beta } (by decide +kernel)
    exact ((pages_depend_on_what_they_show rfl hat hspeed hrun).1 ⟨rfl, rfl, rfl⟩).2
  · have hrun := returns { speed with
      comment := some ⟨[.plain "PlainText" (.text "fast")], none⟩ } (by decide +kernel)
    exact ((pages_depend_on_what_they_show rfl hat hspeed hrun).2.1 ⟨rfl, rfl⟩).2
  · have hrun := returns { speed with propertyType := "string" } (by decide +kernel)
    exact ((pages_depend_on_what_they_show rfl hat hspeed hrun).2.2.1 ⟨rfl⟩).2

/-- A package with nothing in it but remarks. -/
def remarked (text : String) : Declaration where
  kind := .known .package
  name := "p"
  comment := some ⟨[], some [.plain Comment.plainKind (.text text)]⟩

def remarkedTree (text : String) : Item :=
  .mk { kind := .known .model, name := "" } [.mk (remarked text) []]

def remarkedSite (text : String) : Site Unit :=
  { plainSite with model := (remarkedTree text).placed }

/-- The run over the tree with the remarks, into a folder where a link makes the root's file the
package's. -/
def remarkedRun (text : String) : Except Failure (List Path) × Run Unit :=
  (remarkedSite text).generate crossedOutput crossedDisk none

/-- The package has other remarks, which only its own page shows. Yet it is not the only file that
says something else: so does the root's, which a link makes the same file. -/
theorem linked_file_shows_changed_remarks :
    (remarkedTree "old").at? [0] = some (.mk (remarked "old") []) ∧
      (remarkedTree "old").replaceAt [0] (.mk (remarked "new") []) = remarkedTree "new" ∧
      (remarked "old").DiffersInDetails (remarked "new") ∧
      (remarkedRun "old").1.toOption =
        some (["index.html", "p.html"].map crossedOutput.child) ∧
      (remarkedRun "new").1.toOption =
        some (["index.html", "p.html"].map crossedOutput.child) ∧
      (∀ q, (remarkedTree "old").placed.PageAt [0] q → q.place.fileName = "p.html") ∧
      (remarkedRun "new").2.disk.read (crossedOutput.child "index.html") ≠
        (remarkedRun "old").2.disk.read (crossedOutput.child "index.html") := by
  have hold : (remarkedRun "old").1.toOption =
      some (["index.html", "p.html"].map crossedOutput.child) := by
    decide +kernel
  have hnew : (remarkedRun "new").1.toOption =
      some (["index.html", "p.html"].map crossedOutput.child) := by
    decide +kernel
  refine ⟨rfl, rfl, ⟨rfl, rfl, rfl⟩, hold, hnew, fun q hq => ?_, ?_⟩
  · have hname : ((remarkedTree "old").placed.at? [0]).map (fun p => p.place.fileName) =
        some "p.html" := by
      decide +kernel
    rw [hq.at_eq] at hname
    exact Option.some.inj hname
  · have hrun : (remarkedSite "old").generate crossedOutput crossedDisk none =
        (.ok _, (remarkedRun "old").2) := Prod.ext (eq_ok_of_toOption hold) rfl
    have hrun' : (remarkedSite "new").generate crossedOutput crossedDisk none =
        (.ok _, (remarkedRun "new").2) := Prod.ext (eq_ok_of_toOption hnew) rfl
    exact read_last_file_ne hrun' hrun (by decide +kernel) (by decide +kernel) (by decide +kernel)

end Site

end RefSite
