import RefSite.Config.Decode
import RefSite.Proofs.Files.Making
import RefSite.Proofs.Site.Order

namespace RefSite

open Disk

theorem Place.ending_fileName (p : Place) : pageEnding.toList <:+ p.fileName.toList := by
  unfold fileName
  split
  · exact ⟨"index".toList, by decide⟩
  · exact ⟨(stem p.levels).toList, String.toList_append.symm⟩

namespace Config

/-- A style sheet that is accepted stays inside the folder that it is seen from. -/
theorem staysInside_stylesheet {es : Entries} {c : Config} (h : ofEntries es = .ok c) :
    staysInside (Path.ofText c.stylesheet) = true := by
  have any {α : Type} (x : Except Failure α) : Meets (fun _ => True) (fun _ => True) x := by
    cases x <;> trivial
  have hsheet (v : Value) : Meets (fun _ => True)
      (fun s => staysInside (Path.ofText s) = true) (stylesheetOfValue v) := by
    refine (any _).bind fun s _ => ?_
    split
    · next hs => exact hs
    · trivial
  have hmeets : Meets (fun _ => True) (fun c => staysInside (Path.ofText c.stylesheet) = true)
      (ofEntries es) :=
    (any _).bind fun _ _ => (hsheet _).bind fun _ hs => (any _).bind fun _ _ =>
      (any _).bind fun _ _ => (any _).bind fun _ _ => hs
  exact hmeets.of_ok h

end Config

/-- The parts of a path text name entries, apart from double dots. -/
theorem Path.isEntryName_of_mem {text n : String} (hn : n ∈ (ofText text).parts)
    (hup : n ≠ "..") : IsEntryName n := by
  obtain ⟨cs, hcs, rfl⟩ := List.mem_map.1 hn
  have hclean := (List.mem_filter.1 hcs).2
  rw [Bool.and_eq_true] at hclean
  refine ⟨hup, ?_, ?_⟩
  · intro hdot
    have hcs : cs = ['.'] := by rw [← String.toList_ofList (l := cs), hdot]; rfl
    rw [hcs] at hclean
    exact nomatch hclean.2
  · intro hempty
    have hcs : cs = [] := by rw [← String.toList_ofList (l := cs), hempty]; rfl
    rw [hcs] at hclean
    exact nomatch hclean.1

namespace Site

variable {Event : Type} {s : Site Event} {output : Path} {p : Placed} {ps done : List Placed}
  {r r' start : Run Event} {d d' disk : Disk} {dir : List String} {content : ByteArray}
  {active : Option (Feature.Active Event)}

/-- The names that lead from the output folder to the style sheet. -/
def sheetParts (s : Site Event) : List String := (Path.ofText s.config.stylesheet).parts

/-- The output path leads to a folder that holds these pages, the style sheet and the folders that
lead to it. There is nothing else in the folder. -/
structure HoldsOnly (s : Site Event) (output : Path) (dir : List String) (content : ByteArray)
    (done : List Placed) (d : Disk) : Prop where
  settled : d.IsSettled output dir
  sheet : d.root.at? (dir ++ s.sheetParts) = some (.file content)
  pages : ∀ p ∈ done, ∃ t, (s.pageText p).result = .ok t ∧
    d.root.at? (dir ++ [p.place.fileName]) = some (.file (s.config.lineEnd.apply t).toUTF8)
  nothingElse : ∀ rest, rest ≠ [] → d.root.at? (dir ++ rest) ≠ none →
    rest <+: s.sheetParts ∨ ∃ p ∈ done, rest = [p.place.fileName]

/-- The page of an item that was written is in the folder under its name, and nothing else has
changed. -/
theorem Wrote.frame (h : Wrote s output p r r') (hd : r.disk.IsSettled output dir) :
    r'.disk.IsSettled output dir ∧
    (∃ t, (s.pageText p).result = .ok t ∧ r'.disk.root.at? (dir ++ [p.place.fileName]) =
      some (.file (s.config.lineEnd.apply t).toUTF8)) ∧
    ∀ q, q ≠ dir ++ [p.place.fileName] → SameAt r.disk r'.disk q := by
  obtain ⟨t, ht, hw⟩ := h.text
  obtain ⟨x, d₁, hm, ⟨f, hwrite⟩ | ⟨place, d₂, hwrite, hg, hl, hsame⟩⟩ :=
    run_writeText_cases s.config.lineEnd (pageFile output p) t r.disk
  · rw [hw] at hwrite
    exact nomatch congrArg Prod.fst hwrite
  · rw [hw] at hwrite
    obtain rfl : r'.disk = d₂ := congrArg Prod.snd hwrite
    obtain ⟨hd₁, hmade⟩ := hd.makeFolders
    rw [pageFile, Path.parent_child] at hm
    rw [hm] at hd₁ hmade
    have hd' := hd₁.grows hg
    obtain rfl := hd'.place_eq p.place.isEntryName_fileName hl
    exact ⟨hd', ⟨t, ht, (locate_eq_ok_iff.1 hl).2.at_found⟩,
      fun q hq => (hmade q).trans (hsame q hq)⟩

/-- A page that is refused changes nothing. -/
theorem Refused.frame {f : Failure} (h : Refused s output p r f d)
    (hd : r.disk.IsSettled output dir) :
    d.IsSettled output dir ∧ ∀ q, SameAt r.disk d q := by
  cases h with
  | unbuilt _ => exact ⟨hd, .refl _⟩
  | shared _ _ => exact ⟨hd, .refl _⟩
  | @unwritten t f _ _ _ hw =>
    obtain ⟨x, d₁, hm, ⟨g, hwrite⟩ | ⟨place, d₂, hwrite, -, -, -⟩⟩ :=
      run_writeText_cases s.config.lineEnd (pageFile output p) t r.disk
    · rw [hw] at hwrite
      obtain rfl : d = d₁ := congrArg Prod.snd hwrite
      have hmade := hd.makeFolders
      rw [pageFile, Path.parent_child] at hm
      rw [hm] at hmade
      exact hmade
    · rw [hw] at hwrite
      exact nomatch congrArg Prod.fst hwrite

namespace HoldsOnly

/-- The folder stays as it is where nothing changes. -/
theorem same (h : HoldsOnly s output dir content done d) (hd : d'.IsSettled output dir)
    (hsame : ∀ q, SameAt d d' q) : HoldsOnly s output dir content done d' := by
  refine ⟨hd, (hsame _).file h.sheet, ?_, ?_⟩
  · intro p hp
    obtain ⟨t, ht, hat⟩ := h.pages p hp
    exact ⟨t, ht, (hsame _).file hat⟩
  · intro rest hne hrest
    exact h.nothingElse rest hne fun hnone => hrest ((hsame _).symm.eq_none hnone)

/-- Where a page is written that has a name of its own, the folder holds one more page. -/
theorem wrote (h : HoldsOnly s output dir content done r.disk) (hw : Wrote s output p r r')
    (hsheet : [p.place.fileName] ≠ s.sheetParts)
    (hdone : ∀ q ∈ done, q.place.fileName ≠ p.place.fileName) :
    HoldsOnly s output dir content (done ++ [p]) r'.disk := by
  obtain ⟨hd, ⟨t, ht, hat⟩, hsame⟩ := hw.frame h.settled
  -- whatever has another name than the page is as it was
  have others {ns : List String} (hns : ns ≠ [p.place.fileName]) :
      SameAt r.disk r'.disk (dir ++ ns) :=
    hsame _ fun heq => hns (List.append_cancel_left heq)
  refine ⟨hd, (others hsheet.symm).file h.sheet, ?_, ?_⟩
  · intro q hq
    obtain hq | hq := List.mem_append.1 hq
    · obtain ⟨u, hu, hold⟩ := h.pages q hq
      have hne : [q.place.fileName] ≠ [p.place.fileName] := by simpa using hdone q hq
      exact ⟨u, hu, (others hne).file hold⟩
    · obtain rfl := List.mem_singleton.1 hq
      exact ⟨t, ht, hat⟩
  · intro rest hne hrest
    by_cases hnew : rest = [p.place.fileName]
    · exact .inr ⟨p, by simp, hnew⟩
    · have hold : r.disk.root.at? (dir ++ rest) ≠ none := fun hnone =>
        hrest ((others hnew).symm.eq_none hnone)
      obtain hs | ⟨q, hq, hrest⟩ := h.nothingElse rest hne hold
      · exact .inl hs
      · exact .inr ⟨q, List.mem_append_left _ hq, hrest⟩

end HoldsOnly

/-- Pages that are written one after another add up in the folder, and outside it nothing
changes. -/
theorem WroteAll.holdsOnly (h : WroteAll s output ps r r')
    (hd : HoldsOnly s output dir content done r.disk)
    (hsheet : ∀ p : Placed, [p.place.fileName] ≠ s.sheetParts)
    (hnames : ((done ++ ps).map fun p => p.place.fileName).Nodup) :
    HoldsOnly s output dir content (done ++ ps) r'.disk ∧
      ∀ q, ¬ dir <+: q → SameAt r.disk r'.disk q := by
  -- each page that is written moves from the pages to come to those that are held
  induction h generalizing done with
  | nil r =>
    rw [List.append_nil]
    exact ⟨hd, fun q _ => .refl _ q⟩
  | @cons p ps r r₁ r₂ hp hps ih =>
    have hone : done ++ p :: ps = done ++ [p] ++ ps := by rw [List.append_assoc]; rfl
    have hdone (q : Placed) (hq : q ∈ done) : q.place.fileName ≠ p.place.fileName := by
      rw [List.map_append, List.map_cons] at hnames
      exact (List.nodup_append.1 hnames).2.2 _ (List.mem_map_of_mem hq) _ List.mem_cons_self
    rw [hone] at hnames ⊢
    obtain ⟨hall, hsame⟩ := ih (hd.wrote hp (hsheet p) hdone) hnames
    refine ⟨hall, fun q hq => ?_⟩
    have hfirst : q ≠ dir ++ [p.place.fileName] := by
      rintro rfl
      exact hq (List.prefix_append dir _)
    exact ((hp.frame hd.settled).2.2 q hfirst).trans (hsame q hq)

/-- The way from the output folder to a style sheet that is accepted goes from name to name. -/
theorem isEntryName_of_mem_sheetParts {es : Entries} (h : Config.ofEntries es = .ok s.config)
    {n : String} (hn : n ∈ s.sheetParts) : IsEntryName n := by
  have hinside := Config.staysInside_stylesheet h
  rw [Config.staysInside, Bool.and_eq_true, Bool.not_eq_true', Bool.not_eq_true'] at hinside
  refine Path.isEntryName_of_mem hn ?_
  rintro rfl
  have hup := List.contains_iff_mem.2 hn
  rw [sheetParts, hinside.2] at hup
  exact nomatch hup

theorem join_sheet {es : Entries} (h : Config.ofEntries es = .ok s.config) (output : Path) :
    output.join (Path.ofText s.config.stylesheet) =
      ⟨output.start, output.parts ++ s.sheetParts⟩ := by
  have hinside := Config.staysInside_stylesheet h
  rw [Config.staysInside, Bool.and_eq_true, Bool.not_eq_true'] at hinside
  rw [Path.join, hinside.1]
  rfl

/-- When everything is set up, the output folder holds the style sheet, and nothing outside it has
changed since it was emptied. -/
theorem setUp_holdsOnly {es : Entries} (hs : (s.setUp output).run { disk, active } = (.ok (), start))
    (hconfig : Config.ofEntries es = .ok s.config) (hne : s.sheetParts ≠ [])
    (hempty : EmptiesTo output disk dir)
    (hread : ((emptyFolder output).run disk).2.read s.stylesheet = .ok content) :
    HoldsOnly s output dir content [] start.disk ∧
      Grows (fun _ => True) ((emptyFolder output).run disk).2 start.disk ∧
      ∀ q, ¬ dir <+: q → SameAt ((emptyFolder output).run disk).2 start.disk q := by
  have hsettled := setUp_settled hs hempty
  obtain ⟨emptied, hrun, hcopy⟩ := setUp_disks hs
  rw [EmptiesTo] at hempty
  rw [hrun] at hempty hread ⊢
  rw [join_sheet hconfig] at hcopy
  have hgrows := copy_grows s.stylesheet ⟨output.start, output.parts ++ s.sheetParts⟩ emptied
  rw [hcopy] at hgrows
  -- copying has changed only the way from the empty folder to the style sheet
  obtain ⟨hsheet, hchanges⟩ := copy_into_empty hcopy hempty
    (fun n hn => isEntryName_of_mem_sheetParts hconfig hn) hne hread
  refine ⟨⟨hsettled, hsheet, fun p hp => (nomatch hp), ?_⟩, hgrows, ?_⟩
  · intro rest hrest hthere
    obtain hold | ⟨ns, -, hpart, hq⟩ := hchanges (dir ++ rest)
    · exact absurd (hold.symm.eq_none (at_below_empty hempty hrest)) hthere
    · rw [List.append_cancel_left hq]
      exact .inl hpart
  · intro q hq
    obtain hold | ⟨ns, -, -, rfl⟩ := hchanges q
    · exact hold
    · exact absurd (List.prefix_append dir ns) hq

/-- A run replaces the output folder and touches nothing else. When everything is set up, whether the
pages are all written or one of them is refused, the output folder holds the pages that are listed
as written, the style sheet as it was read before, the folders that lead to it, and nothing else.
Outside the folder there is what was there before, and folders that were missing and that a part of
the output path leads to. The folder is where the output path leads once it has been made and still
leads when it is empty. -/
theorem output_folder_is_replaced {es : Entries} {old : List (String × Entry)} {sheetName : String}
    (hs : (s.setUp output).run { disk, active } = (.ok (), start))
    (hconfig : Config.ofEntries es = .ok s.config) (hname : s.sheetParts.head? = some sheetName)
    (hpage : ¬ Place.pageEnding.toList <:+ sheetName.toList)
    (hread : disk.read s.stylesheet = .ok content)
    (hfolder : ((makeFolders output).run disk).2.locate .entry output =
      .ok (.found dir (.folder old)))
    (hempty : EmptiesTo output disk dir)
    (hkept : ((emptyFolder output).run disk).2.read s.stylesheet = disk.read s.stylesheet) :
    ∃ done rest, s.model.pages = done ++ rest ∧
      (s.generate output disk active).2.written = done.map (pageFile output) ∧
      (done.map (pageFile output)).Nodup ∧
      HoldsOnly s output dir content done (s.generate output disk active).2.disk ∧
      KeepsOutside output dir disk (s.generate output disk active).2.disk := by
  have hne : s.sheetParts ≠ [] := by
    intro hnil
    rw [hnil] at hname
    exact nomatch hname
  have hsheet (p : Placed) : [p.place.fileName] ≠ s.sheetParts := by
    intro hone
    rw [← hone] at hname
    cases hname
    exact hpage p.place.ending_fileName
  obtain ⟨hstart, hgrows, hsame⟩ := setUp_holdsOnly hs hconfig hne hempty (hkept.trans hread)
  obtain ⟨hwritten, howners⟩ := setUp_pages hs
  have houtside : KeepsOutside output dir disk start.disk := by
    obtain ⟨emptied, hrun, -⟩ := setUp_disks hs
    rw [hrun] at hgrows hsame
    rw [EmptiesTo, hrun] at hempty
    exact (emptyFolder_keepsOutside hrun hfolder hempty).grows hgrows hsame
  -- however far the run gets, the pages that come first have been written one after another
  have written {done : List Placed} {r : Run Event} (h : WroteAll s output done start r) :
      r.written = done.map (pageFile output) ∧ (done.map (pageFile output)).Nodup ∧
        HoldsOnly s output dir content done r.disk ∧ KeepsOutside output dir disk r.disk := by
    have hnames := h.nodup howners
    obtain ⟨hholds, hunchanged⟩ := h.holdsOnly hstart hsheet hnames
    refine ⟨?_, nodup_pageFile output hnames, hholds, houtside.grows h.grows hunchanged⟩
    rw [h.written, hwritten, List.nil_append]
  obtain ⟨r₁, r, hall, hw, hd, hg⟩ | ⟨done, p, later, f, r₁, r, he, hdone, hp, hw, hg⟩ :=
    generate_cases hs
  · rw [hg]
    dsimp only
    rw [hw, hd]
    exact ⟨s.model.pages, [], (List.append_nil _).symm, written hall⟩
  · obtain ⟨hfiles, hnodup, hholds, hkeeps⟩ := written hdone
    obtain ⟨hsettled, hunchanged⟩ := hp.frame hholds.settled
    rw [hg]
    dsimp only
    rw [hw]
    exact ⟨done, p :: later, he, hfiles, hnodup, hholds.same hsettled hunchanged,
      hkeeps.grows hp.grows fun q _ => hunchanged q⟩

/-- The plain site with its style sheet in a folder of its own. -/
def folderSite : Site Unit :=
  { plainSite with config? := some { Config.default with stylesheet := "css/site.css" } }

/-- An old output folder with links out of it: one has the name of the style sheet's folder. -/
def linkedDisk : Disk where
  root := .folder
    [("styles.css", .file ⟨#[98]⟩),
      ("notes", .folder [("todo.txt", .file ⟨#[99]⟩)]),
      ("site", .folder
        [("css", .link "/notes"),
          ("old", .folder [("todo.txt", .link "/notes/todo.txt")])])]
  here := []

/-- The links go with the old folder, and the notes that they lead to stay. -/
theorem linked_folder_is_replaced :
    ∃ done rest, folderSite.model.pages = done ++ rest ∧
      done.map (pageFile plainOutput) = ["index.html", "p.html"].map plainOutput.child ∧
      HoldsOnly folderSite plainOutput ["site"] ⟨#[98]⟩ done
        (folderSite.generate plainOutput linkedDisk none).2.disk ∧
      (folderSite.generate plainOutput linkedDisk none).2.disk.root.at? ["notes", "todo.txt"] =
        some (.file ⟨#[99]⟩) := by
  have hresult : ((folderSite.setUp plainOutput).run
      { disk := linkedDisk, active := none }).1.toOption = some () := by
    decide +kernel
  rcases hs : (folderSite.setUp plainOutput).run { disk := linkedDisk, active := none } with
    ⟨x, start⟩
  rw [hs] at hresult
  cases x with
  | error f => exact nomatch hresult
  | ok _ =>
    have hfiles : (folderSite.generate plainOutput linkedDisk none).2.written =
        ["index.html", "p.html"].map plainOutput.child := by
      decide +kernel
    have hconfig : Config.ofEntries [(.text "stylesheet", .text "css/site.css")] =
        .ok folderSite.config := rfl
    have hempty : EmptiesTo plainOutput linkedDisk ["site"] := by decide +kernel
    have hfolder : ((makeFolders plainOutput).run linkedDisk).2 = linkedDisk := by
      rw [makeFolders]
      rfl
    -- the style sheet stands outside the folder, at the place that its path spells
    have hkept : ((emptyFolder plainOutput).run linkedDisk).2.read folderSite.stylesheet =
        linkedDisk.read folderSite.stylesheet := by
      obtain ⟨emptied, hrun, -⟩ := setUp_disks hs
      have hplace : ((emptyFolder plainOutput).run linkedDisk).2.locate .entry plainOutput =
          .ok (.found ["site"] (.folder [])) := hempty
      rw [hrun] at hplace ⊢
      have houtside := emptyFolder_keepsOutside hrun (by rw [hfolder]; rfl) hplace
      exact houtside.read rfl (by decide) ⟨by decide +kernel, by decide +kernel⟩ (by decide +kernel)
    have hread : linkedDisk.read folderSite.stylesheet = .ok ⟨#[98]⟩ := by decide +kernel
    obtain ⟨done, rest, he, hdone, -, hholds, hkeeps⟩ :=
      output_folder_is_replaced hs hconfig rfl (by decide +kernel) hread (by rw [hfolder]; rfl)
        hempty hkept
    refine ⟨done, rest, he, hdone.symm.trans hfiles, hholds, ?_⟩
    obtain hsame | ⟨hnone, -⟩ := hkeeps ["notes", "todo.txt"] (by decide)
    · exact hsame.file rfl
    · exact nomatch hnone

/-- An output folder with a folder in it that the output path leads through. -/
def nestedDisk : Disk where
  root := .folder [("styles.css", .file .empty), ("site", .folder [("sub", .folder [])])]
  here := []

def nestedOutput : Path := ⟨.root, ["site", "sub", ".."]⟩

/-- The folder site with a style sheet that it reads through a link. -/
def borrowingSite : Site Unit := { folderSite with stylesheet := ⟨.root, ["borrowed.css"]⟩ }

/-- The way to the style sheet leads through the output folder and out of it again. -/
def borrowedDisk : Disk where
  root := .folder
    [("styles.css", .file ⟨#[99]⟩),
      ("borrowed.css", .link "/site/css/../../styles.css"),
      ("a", .folder [("styles.css", .file ⟨#[98]⟩), ("b", .folder [("c", .folder [])])]),
      ("site", .folder [("css", .link "/a/b/c")])]
  here := []

/-- Two runs that do not leave in the output folder what they should. In the first one the output
path leads through the folder itself: a folder in it comes back that is neither on the way to the
style sheet nor a page. In the second one the style sheet is outside the output folder, but the way
to it is not, and it leads to another file when the folder has been emptied. -/
theorem exceptions_to_replacement :
    (Config.ofEntries [] = .ok plainSite.config ∧ plainSite.sheetParts = ["styles.css"] ∧
      nestedDisk.isSame nestedOutput plainOutput = .ok true ∧
      nestedDisk.read plainSite.stylesheet = .ok .empty ∧
      (plainSite.generate nestedOutput nestedDisk none).2.written =
        ["index.html", "p.html"].map nestedOutput.child ∧
      ∀ done, done.map (pageFile nestedOutput) =
          (plainSite.generate nestedOutput nestedDisk none).2.written →
        ¬ HoldsOnly plainSite nestedOutput ["site"] .empty done
          (plainSite.generate nestedOutput nestedDisk none).2.disk) ∧
    Config.ofEntries [(.text "stylesheet", .text "css/site.css")] = .ok borrowingSite.config ∧
      borrowingSite.sheetParts = ["css", "site.css"] ∧
      borrowedDisk.isSame borrowingSite.stylesheet ⟨.root, ["a", "styles.css"]⟩ = .ok true ∧
      borrowedDisk.read borrowingSite.stylesheet = .ok ⟨#[98]⟩ ∧
      (borrowingSite.generate plainOutput borrowedDisk none).2.written =
        ["index.html", "p.html"].map plainOutput.child ∧
      ∀ done, ¬ HoldsOnly borrowingSite plainOutput ["site"] ⟨#[98]⟩ done
        (borrowingSite.generate plainOutput borrowedDisk none).2.disk := by
  have hfiles : (plainSite.generate nestedOutput nestedDisk none).2.written =
      ["index.html", "p.html"].map nestedOutput.child := by
    decide +kernel
  refine ⟨⟨rfl, by decide +kernel, by decide +kernel, by decide +kernel, hfiles, ?_⟩,
    rfl, by decide +kernel, by decide +kernel, by decide +kernel, by decide +kernel, ?_⟩
  · intro done hdone hholds
    have hsub : ((plainSite.generate nestedOutput nestedDisk none).2.disk.root.at?
        ["site", "sub"]).isSome = true := by
      decide +kernel
    obtain hsheet | ⟨p, hp, hpage⟩ := hholds.nothingElse ["sub"] (by simp) fun hnone => by
      rw [List.singleton_append] at hnone
      rw [hnone] at hsub
      exact nomatch hsub
    · have hparts : plainSite.sheetParts = ["styles.css"] := by decide +kernel
      rw [hparts] at hsheet
      exact absurd hsheet (by decide)
    · have hmem : nestedOutput.child "sub" ∈ done.map (pageFile nestedOutput) := by
        rw [List.singleton_inj.1 hpage]
        exact List.mem_map_of_mem hp
      rw [hdone, hfiles] at hmem
      exact absurd hmem (by decide)
  · intro done hholds
    have hcopy : (borrowingSite.generate plainOutput borrowedDisk none).2.disk.read
        ⟨.root, ["site", "css", "site.css"]⟩ ≠ .ok ⟨#[98]⟩ := by
      decide +kernel
    have hparts : ["site"] ++ borrowingSite.sheetParts = ["site", "css", "site.css"] := by
      decide +kernel
    exact hcopy (read_spelled (hparts ▸ hholds.sheet) ⟨by decide +kernel, by decide +kernel⟩
      (by decide +kernel))

end Site

end RefSite
