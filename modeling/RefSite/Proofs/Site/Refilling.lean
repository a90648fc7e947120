import RefSite.Proofs.Files.Filling
import RefSite.Proofs.Site.Storage

/-! Two sites written into the same folder. Once the folder is there, every page is a file that is
put in the one place its path leads to, and what is written to one place only depends on the pages
that are written there. -/
namespace RefSite.Site

open Disk
open List (Forall₂)

variable {Event : Type} {s s' : Site Event} {output : Path} {p : Placed} {ps ps' : List Placed}
  {r r' r₁ r₂ r₁' r₂' start start' : Run Event} {differs : List String → Prop}

/-- The pages have the same files. -/
def SameNames (p p' : Placed) : Prop := p'.place.fileName = p.place.fileName

theorem SameNames.pageFile_eq {p p' : Placed} (h : SameNames p p') (output : Path) :
    pageFile output p' = pageFile output p := by
  rw [pageFile, h, pageFile]

theorem map_fileName (h : Forall₂ SameNames ps ps') :
    (ps'.map fun p => p.place.fileName) = ps.map fun p => p.place.fileName := by
  induction h with
  | nil => rfl
  | cons hp _ ih => rw [List.map_cons, List.map_cons, hp, ih]

theorem map_pageFile (h : Forall₂ SameNames ps ps') (output : Path) :
    ps'.map (pageFile output) = ps.map (pageFile output) := by
  have hnames := congrArg (List.map output.child) (map_fileName h)
  rwa [List.map_map, List.map_map] at hnames

/-- The file of a page takes the text of the page, when the output folder is there. -/
theorem Wrote.put (h : Wrote s output p r r') (hout : r.disk.LeadsToFolder output) :
    ∃ t place, (s.pageText p).result = .ok t ∧ TakesFile r.disk (pageFile output p) place ∧
      r'.disk = r.disk.put place (.file (s.config.lineEnd.apply t).toUTF8) := by
  obtain ⟨t, ht, hw⟩ := h.text
  have hparent : r.disk.LeadsToFolder (pageFile output p).parent := by
    rwa [pageFile, Path.parent_child]
  rw [run_writeText_of_leads _ _ hparent] at hw
  obtain ⟨place, hplace, hdisk⟩ := write_ok (isSolid_of_parent hparent) hw
  exact ⟨t, place, ht, hplace, hdisk⟩

/-- Whichever page is written first, the output folder is made before it. -/
theorem Wrote.made (h : Wrote s output p r r') : ∃ made,
    (makeFolders output).run r.disk = (.ok (), made) ∧ made.LeadsToFolder output ∧
      Wrote s output p { r with disk := made } r' := by
  obtain ⟨t, ht, hw⟩ := h.text
  obtain ⟨_, made, hm, hwrite⟩ := bind_eq_ok hw
  have hleads := makeFolders_ok hm
  rw [pageFile, Path.parent_child] at hm
  refine ⟨made, hm, ?_, ⟨h.fresh, ⟨t, ht, ?_⟩, h.owners, h.written, h.active⟩⟩
  · rwa [pageFile, Path.parent_child] at hleads
  · exact (run_writeText_of_leads _ _ hleads).trans hwrite

namespace WroteAll

theorem made (h : WroteAll s output ps r r') (hps : ps ≠ []) : ∃ made,
    (makeFolders output).run r.disk = (.ok (), made) ∧ made.LeadsToFolder output ∧
      WroteAll s output ps { r with disk := made } r' := by
  cases h with
  | nil r => exact absurd rfl hps
  | cons hp hps =>
    obtain ⟨made, hm, hleads, hp⟩ := hp.made
    exact ⟨made, hm, hleads, .cons hp hps⟩

/-- Two runs that begin with the same disk make the same folder before their first pages. -/
theorem madeAlike (h : WroteAll s output ps start r) (h' : WroteAll s' output ps' start' r')
    (hps : ps ≠ []) (hps' : ps' ≠ []) (hstart : start'.disk = start.disk) :
    ∃ made, made.LeadsToFolder output ∧ WroteAll s output ps { start with disk := made } r ∧
      WroteAll s' output ps' { start' with disk := made } r' := by
  obtain ⟨made, hmade, hout, h⟩ := h.made hps
  obtain ⟨made', hmade', -, h'⟩ := h'.made hps'
  rw [hstart, hmade] at hmade'
  obtain rfl : made = made' := congrArg Prod.snd hmade'
  exact ⟨made, hout, h, h'⟩

/-- Pages that are written in a folder that is there fill the disk with files, each in the place that
its path led to from the beginning and still leads to. -/
theorem fills (h : WroteAll s output ps r r') (hout : r.disk.LeadsToFolder output) :
    Fills r.disk r'.disk ∧ ∀ p ∈ ps, ∃ place content,
      TakesFile r.disk (pageFile output p) place ∧
        r'.disk.locate .entry (pageFile output p) = .ok (.found place (.file content)) := by
  induction h with
  | nil r => exact ⟨.refl _, List.forall_mem_nil _⟩
  | @cons p ps r r₁ r₂ hp _ ih =>
    obtain ⟨t, place, -, hplace, hdisk⟩ := hp.put hout
    have hfirst : Fills r.disk r₁.disk := hdisk ▸ .put hplace _
    obtain ⟨hrest, hplaces⟩ := ih (hout.grows hfirst.grows)
    refine ⟨hfirst.trans hrest, List.forall_mem_cons.2 ⟨?_, fun q hq => ?_⟩⟩
    · -- what was written first is still there, perhaps with another content
      have hat : r₁.disk.root.at? place = some (.file (s.config.lineEnd.apply t).toUTF8) :=
        hdisk ▸ hplace.at_put _
      obtain ⟨content, hcontent⟩ := hrest.file hat
      exact ⟨place, content, hplace,
        (hplace.fills (hfirst.trans hrest)).locate_entry hcontent⟩
    · obtain ⟨place', content, hplace', hl⟩ := hplaces q hq
      exact ⟨place', content, hplace'.unfills hfirst hout.base_ne_none, hl⟩

/-- Two runs over pages with the same files leave the same behind but for files that may differ, when
each page says the same in both runs or is written to a file that may differ. -/
theorem alike (hconfig : s'.config = s.config) (h : WroteAll s output ps r₁ r₂)
    (h' : WroteAll s' output ps' r₁' r₂')
    (hps : Forall₂ (fun p p' => SameNames p p' ∧ (s'.pageText p' = s.pageText p ∨
        ∀ place, TakesFile r₂.disk (pageFile output p) place → differs place)) ps ps')
    (hout : r₁.disk.LeadsToFolder output) (ha : Alike differs r₁.disk r₁'.disk) :
    Alike differs r₂.disk r₂'.disk := by
  induction h generalizing ps' r₁' with
  | nil r =>
    cases hps
    cases h'
    exact ha
  | @cons p ps r r₁ r₂ hp hrest ih =>
    cases hps with
    | @cons _ p' _ ps' hpage hpages =>
    cases h' with
    | @cons _ _ _ r₁'' _ hp' hrest' =>
    obtain ⟨hname, hsame⟩ := hpage
    have hfile := hname.pageFile_eq output
    obtain ⟨t, place, ht, hplace, hdisk⟩ := hp.put hout
    obtain ⟨t', place', ht', hplace', hdisk'⟩ := hp'.put (hout.grows ha.grows)
    -- what differs up to here are contents, so one path leads to one place on both disks
    rw [hfile] at hplace'
    obtain rfl := (hplace.fills ha.fills).place_unique hplace'
    have hfirst : Fills r.disk r₁.disk := hdisk ▸ .put hplace _
    have hout₁ := hout.grows hfirst.grows
    refine ih hrest' hpages hout₁ ?_
    rw [hdisk, hdisk', hconfig]
    refine ha.put hplace ?_
    obtain htext | hdiffers := hsame
    · rw [htext, ht] at ht'
      cases ht'
      exact .inl rfl
    · exact .inr (hdiffers _ ((hplace.fills hfirst).fills (hrest.fills hout₁).1))

/-- The output folder is there after pages have been written, and no page has changed more than a
file. -/
theorem madeAgain (h : WroteAll s output ps r r') {made : Disk}
    (hm : (makeFolders output).run r.disk = (.ok (), made)) :
    ∃ d, (makeFolders output).run r'.disk = (.ok (), d) ∧ Fills made d := by
  by_cases hps : ps = []
  · subst hps
    cases h
    exact ⟨made, hm, .refl _⟩
  · obtain ⟨made', hm', hout, h⟩ := h.made hps
    rw [hm] at hm'
    obtain rfl : made = made' := congrArg Prod.snd hm'
    have hfills := (h.fills hout).1
    exact ⟨r'.disk, run_makeFolders_of_leads (hout.grows hfills.grows), hfills⟩

/-- The text of a page can be written whichever pages have been written before. -/
theorem writes (h : WroteAll s output ps r r') {made : Disk} {place : List String}
    (hm : (makeFolders output).run r.disk = (.ok (), made))
    (hplace : TakesFile made (pageFile output p) place) (k : LineEnd) (t : String) :
    ((writeText k (pageFile output p) t).run r'.disk).1 = .ok () := by
  obtain ⟨d, hd, hfills⟩ := h.madeAgain hm
  have hparent : (makeFolders (pageFile output p).parent).run r'.disk = (.ok (), d) := by
    rwa [pageFile, Path.parent_child]
  rw [writeText, run_bind_ok hparent, (hplace.fills hfills).run_write]

/-- Two pages have one file after one run when they have after another that begins in the same way:
their paths led to one place from the beginning. -/
theorem oneFile (h : WroteAll s output ps r r₁) (h' : WroteAll s' output ps' r r₂)
    (hout : r.disk.LeadsToFolder output) {p q p' q' : Placed} (hp : p ∈ ps) (hq : q ∈ ps)
    (hp' : p' ∈ ps') (hq' : q' ∈ ps') (hpp : SameNames p p') (hqq : SameNames q q')
    (hone : OneFile output r₂.disk p' q') : OneFile output r₁.disk p q := by
  -- where a page is after the other run is where it is after the first
  have place {m m' : Placed} {place : List String} {e : Entry} (hm : m ∈ ps) (hm' : m' ∈ ps')
      (hname : SameNames m m')
      (hl : r₂.disk.locate .entry (pageFile output m') = .ok (.found place e)) :
      ∃ content, r₁.disk.locate .entry (pageFile output m) = .ok (.found place (.file content)) := by
    obtain ⟨here, content, htakes, hfound⟩ := (h.fills hout).2 m hm
    obtain ⟨there, content', htakes', hfound'⟩ := (h'.fills hout).2 m' hm'
    rw [hname.pageFile_eq] at htakes'
    rw [hl] at hfound'
    cases hfound'
    obtain rfl := htakes.place_unique htakes'
    exact ⟨content, hfound⟩
  obtain ⟨here, e, hl, hl'⟩ := isSame_iff.1 hone
  obtain ⟨content, hfound⟩ := place hp hp' hpp hl
  obtain ⟨content', hfound'⟩ := place hq hq' hqq hl'
  have hat := (locate_eq_ok_iff.1 hfound).2.at_found
  rw [(locate_eq_ok_iff.1 hfound').2.at_found] at hat
  cases hat
  exact isSame_iff.2 ⟨here, _, hfound, hfound'⟩

end WroteAll

/-- The folder that pages are written to does not depend on the items. -/
theorem setUp_disk_eq (hconfig : s'.config = s.config) (hsheet : s'.stylesheet = s.stylesheet)
    {disk : Disk} {active active' : Option (Feature.Active Event)}
    (hs : (s.setUp output).run { disk, active } = (.ok (), start))
    (hs' : (s'.setUp output).run { disk, active := active' } = (.ok (), start')) :
    start'.disk = start.disk := by
  obtain ⟨emptied, hempty, hcopy⟩ := setUp_disks hs
  obtain ⟨emptied', hempty', hcopy'⟩ := setUp_disks hs'
  obtain rfl : emptied' = emptied := congrArg Prod.snd (hempty'.symm.trans hempty)
  rw [hconfig, hsheet, hcopy] at hcopy'
  exact (congrArg Prod.snd hcopy').symm

end RefSite.Site
