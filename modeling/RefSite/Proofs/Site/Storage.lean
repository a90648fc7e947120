import RefSite.Proofs.Files.Changes
import RefSite.Proofs.Site.Writing

namespace RefSite

theorem Place.isEntryName_fileName (p : Place) : Disk.IsEntryName p.fileName := by
  have hlen : 2 < p.fileName.length := by
    unfold fileName
    split
    · decide
    · have hending : pageEnding.length = 5 := by decide
      rw [String.length_append, hending]
      omega
  refine ⟨?_, ?_, ?_⟩ <;> intro h <;> rw [h] at hlen <;> exact absurd hlen (by decide)

namespace Site

open Disk

variable {Event : Type} {s : Site Event} {output : Path} {p q : Placed} {ps : List Placed}
  {r r' : Run Event} {changed : List String → Prop} {d d' : Disk} {dir place : List String}

/-- The pages of two items have one file. -/
def OneFile (output : Path) (d : Disk) (p q : Placed) : Prop :=
  d.isSame (pageFile output p) (pageFile output q) = .ok true

/-- The file of an item's page is at the place and holds what the page says. -/
def Holds (s : Site Event) (output : Path) (d : Disk) (p : Placed) (place : List String) : Prop :=
  ∃ t, (s.pageText p).result = .ok t ∧ d.locate .entry (pageFile output p) =
    .ok (.found place (.file (s.config.lineEnd.apply t).toUTF8))

theorem Holds.read (h : Holds s output d p place) : ∃ t, (s.pageText p).result = .ok t ∧
    d.read (pageFile output p) = .ok (s.config.lineEnd.apply t).toUTF8 := by
  obtain ⟨t, ht, hl⟩ := h
  exact ⟨t, ht, read_eq_ok hl⟩

theorem Holds.grows (h : Holds s output d p place)
    (hg : Grows changed d d') (hplace : ¬ changed place) : Holds s output d' p place := by
  obtain ⟨t, ht, hl⟩ := h
  exact ⟨t, ht, hg.locate_file hl hplace⟩

/-- A page that is written is at one place, and only a file there has been changed. -/
theorem Wrote.holds (h : Wrote s output p r r') :
    ∃ place, Grows (fun q => q = place) r.disk r'.disk ∧ Holds s output r'.disk p place := by
  obtain ⟨t, ht, hw⟩ := h.text
  obtain ⟨place, hg, hl⟩ := writeText_ok hw
  exact ⟨place, hg, t, ht, hl⟩

namespace WroteAll

theorem grows (h : WroteAll s output ps r r') : Grows (fun _ => True) r.disk r'.disk := by
  induction h with
  | nil r => exact .refl _
  | cons hp _ ih =>
    obtain ⟨place, hg, -⟩ := hp.holds
    exact (hg.mono fun _ _ => trivial).trans ih

/-- A file stays as it is while pages are written to other files. -/
theorem keepsFile {file : Path} {content : ByteArray} (h : WroteAll s output ps r r')
    (hl : r.disk.locate .entry file = .ok (.found place (.file content)))
    (hg : Grows changed r'.disk d)
    (hother : ∀ q ∈ ps, d.isSame file (pageFile output q) ≠ .ok true) :
    r'.disk.locate .entry file = .ok (.found place (.file content)) := by
  induction h with
  | nil r => exact hl
  | @cons q ps r r₁ r₂ hq hps ih =>
    obtain ⟨hne, hother⟩ := List.forall_mem_cons.1 hother
    obtain ⟨place', hgq, _, _, hlq⟩ := hq.holds
    refine ih (hgq.locate_file hl ?_) hg hother
    -- both paths still lead to where they led when the page was written
    rintro rfl
    have hlater : Grows (fun _ => True) r₁.disk d := hps.grows.trans (hg.mono fun _ _ => trivial)
    obtain ⟨e, -, hlq⟩ := hlater.locate_found hlq
    have hl := ((hgq.mono fun _ _ => trivial).trans hlater).locate_same hl hlq
    exact hne (isSame_iff.2 ⟨_, e, hl, hlq⟩)

/-- A page stays in its file while others are written to files of their own. -/
theorem keeps (h : WroteAll s output ps r r') (hp : Holds s output r.disk p place)
    (hg : Grows changed r'.disk d) (hother : ∀ q ∈ ps, ¬ OneFile output d p q) :
    Holds s output r'.disk p place := by
  obtain ⟨t, ht, hl⟩ := hp
  exact ⟨t, ht, h.keepsFile hl hg hother⟩

/-- The page that is written last is in its file, whichever other pages have the same file. -/
theorem holds_last (h : WroteAll s output ps r r') (hp : ps.getLast? = some p) :
    ∃ place, Holds s output r'.disk p place := by
  induction h with
  | nil r => exact nomatch hp
  | @cons q ps r r₁ r₂ hq hps ih =>
    cases hps with
    | nil r =>
      obtain rfl : q = p := Option.some.inj hp
      obtain ⟨place, -, hholds⟩ := hq.holds
      exact ⟨place, hholds⟩
    | cons _ _ =>
      rw [List.getLast?_cons_cons] at hp
      exact ih hp

/-- Every page is in its file when the last one is written, unless another one has the same file. -/
theorem holds (h : WroteAll s output ps r r') (hg : Grows (fun _ => False) r'.disk d)
    (hnames : (ps.map fun p => p.place.fileName).Nodup) : ∀ p ∈ ps,
      (∀ q ∈ ps, OneFile output d p q → q.place.fileName = p.place.fileName) →
        ∃ place, Holds s output d p place := by
  induction h with
  | nil r => exact fun p hp => nomatch hp
  | @cons p ps r r₁ r₂ hp hps ih =>
    obtain ⟨hfresh, hnames⟩ := List.nodup_cons.1 hnames
    intro q hq hother
    obtain rfl | hq := List.mem_cons.1 hq
    · -- the page is held when it has been written, and no later one has its file
      obtain ⟨place, -, hholds⟩ := hp.holds
      refine ⟨place, (hps.keeps hholds hg fun p hp hone => ?_).grows hg not_false⟩
      have hname := hother p (List.mem_cons_of_mem _ hp) hone
      exact hfresh (List.mem_map.2 ⟨p, hp, hname⟩)
    · exact ih hg hnames q hq fun p hp => hother p (List.mem_cons_of_mem _ hp)

end WroteAll

/-- In a folder without links only pages of one name have one file. -/
theorem OneFile.fileName_eq (h : OneFile output d p q) (hd : d.IsSettled output dir) :
    q.place.fileName = p.place.fileName := by
  obtain ⟨place, e, hp, hq⟩ := isSame_iff.1 h
  have hpq := hd.place_eq q.place.isEntryName_fileName hq
  rw [hd.place_eq p.place.isEntryName_fileName hp] at hpq
  exact (List.singleton_inj.1 (List.append_cancel_left hpq)).symm

/-- A page that is refused changes no file. -/
theorem Refused.grows {f : Failure} (h : Refused s output p r f d) : Grows changed r.disk d := by
  cases h with
  | unbuilt _ => exact .refl _
  | shared _ _ => exact .refl _
  | unwritten _ _ hw => exact writeText_error hw

/-- When the folder has been made and emptied, the output path leads to it. -/
def EmptiesTo (output : Path) (d : Disk) (dir : List String) : Prop :=
  ((emptyFolder output).run d).2.locate .entry output = .ok (.found dir (.folder []))

instance (output : Path) (d : Disk) (dir : List String) : Decidable (EmptiesTo output d dir) :=
  match h : ((emptyFolder output).run d).2.locate .entry output with
  | .ok (.found q (.folder [])) => decidable_of_iff (q = dir) (by simp [EmptiesTo, h])
  | .ok (.found _ (.folder (_ :: _))) => isFalse (by simp [EmptiesTo, h])
  | .ok (.found _ (.file _)) => isFalse (by simp [EmptiesTo, h])
  | .ok (.found _ (.link _)) => isFalse (by simp [EmptiesTo, h])
  | .ok (.vacant _ _) => isFalse (by simp [EmptiesTo, h])
  | .error _ => isFalse (by simp [EmptiesTo, h])

/-- When everything is set up, the output folder was emptied and the style sheet was copied: loading
plugins changes no files. -/
theorem setUp_disks {disk : Disk} {active : Option (Feature.Active Event)} {start : Run Event}
    (hs : (s.setUp output).run { disk, active } = (.ok (), start)) :
    ∃ emptied, (emptyFolder output).run disk = (.ok (), emptied) ∧
      (copy s.stylesheet (output.join (Path.ofText s.config.stylesheet))).run emptied =
        (.ok (), start.disk) := by
  obtain ⟨_, r₁, hp, hc⟩ := bind_eq_ok hs
  have hdisk := disk_prepare s output { disk, active }
  rw [hp] at hdisk
  obtain ⟨_, r₂, hsay, hc⟩ := bind_eq_ok hc
  cases hsay
  obtain ⟨_, r₃, hempty, hc⟩ := bind_eq_ok hc
  obtain ⟨_, r₄, hcopy, hc⟩ := bind_eq_ok hc
  cases hc
  have hcopied := change_ok hcopy
  refine ⟨r₃.disk, ?_, hcopied⟩
  rw [← change_ok hempty]
  exact congrArg (emptyFolder output).run hdisk.symm

/-- The pages are begun in a folder without links: copying the style sheet into an empty folder makes
none. -/
theorem setUp_settled {disk : Disk} {active : Option (Feature.Active Event)} {start : Run Event}
    (hs : (s.setUp output).run { disk, active } = (.ok (), start))
    (hd : EmptiesTo output disk dir) : start.disk.IsSettled output dir := by
  obtain ⟨emptied, hempty, hcopy⟩ := setUp_disks hs
  rw [EmptiesTo, hempty] at hd
  have hgrows := copy_grows s.stylesheet (output.join (Path.ofText s.config.stylesheet)) emptied
  rw [hcopy] at hgrows
  exact (IsSettled.of_empty hd).grows hgrows

/-- After a run into a folder without links, pages of one file have one name. -/
theorem OneFile.of_generate {disk : Disk} {active : Option (Feature.Active Event)}
    {files : List Path} (h : s.generate output disk active = (.ok files, r))
    (hd : EmptiesTo output disk dir) (hone : OneFile output r.disk p q) :
    q.place.fileName = p.place.fileName := by
  obtain ⟨start, r₁, hs, hall, -, hdisk⟩ := generate_wrote h
  rw [hdisk] at hone
  exact hone.fileName_eq ((setUp_settled hs hd).grows hall.grows)

/-- The file is the one that the last page is written to. -/
def IsLastFile (s : Site Event) (output : Path) (d : Disk) (f : Path) : Bool :=
  s.model.pages.getLast?.any fun p => decide (d.isSame f (pageFile output p) = .ok true)

/-- What the last page says if it can be built, whatever the line ends. -/
def lastInk? (s : Site Event) : Option (List UInt8) :=
  s.model.pages.getLast?.bind fun p => (s.pageText p).result.toOption.map LineEnd.ink

/-- After a run that ends well, the file of the last page says what this page says. -/
theorem read_last_file {disk : Disk} {active : Option (Feature.Active Event)} {files : List Path}
    {f : Path} (h : s.generate output disk active = (.ok files, r))
    (hlast : s.IsLastFile output r.disk f = true) :
    ∃ t, s.lastInk? = some (LineEnd.ink t) ∧
      r.disk.read f = .ok (s.config.lineEnd.apply t).toUTF8 := by
  obtain ⟨p, hp, hsame⟩ := (Option.any_eq_true _ _).1 hlast
  obtain ⟨start, r₁, -, hall, -, hdisk⟩ := generate_wrote h
  obtain ⟨place, hholds⟩ := hall.holds_last hp
  obtain ⟨t, ht, hread⟩ := hholds.read
  rw [← hdisk] at hread
  refine ⟨t, ?_, (read_eq_of_isSame (of_decide_eq_true hsame)).trans hread⟩
  rw [lastInk?, hp, Option.bind_some, ht]
  rfl

/-- Two runs that end well leave different things in a file that is the last page's in both, when
their last pages say different things. -/
theorem read_last_file_ne {s' : Site Event} {disk disk' : Disk}
    {active active' : Option (Feature.Active Event)} {files files' : List Path} {f : Path}
    (h : s.generate output disk active = (.ok files, r))
    (h' : s'.generate output disk' active' = (.ok files', r'))
    (hlast : s.IsLastFile output r.disk f = true) (hlast' : s'.IsLastFile output r'.disk f = true)
    (hink : s.lastInk? ≠ s'.lastInk?) : r.disk.read f ≠ r'.disk.read f := by
  obtain ⟨t, ht, hread⟩ := read_last_file h hlast
  obtain ⟨t', ht', hread'⟩ := read_last_file h' hlast'
  intro hsame
  apply hink
  rw [hread, hread'] at hsame
  rw [ht, ht']
  exact congrArg some (LineEnd.ink_eq_of_apply (Except.ok.inj hsame))

end Site

end RefSite
