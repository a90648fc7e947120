import RefSite.Proofs.Site.Replacement

namespace RefSite

namespace Markup

/-- The link to a style sheet. -/
def linkText (href : String) : String :=
  "<link rel=\"stylesheet\" type=\"text/css\" href=\"" ++ escapeAttribute href ++ "\">"

/-- The text of a page with the link to its style sheet in its head. -/
def textWithHead (href body : String) : String :=
  "<!DOCTYPE html>\n" ++ enclose "html" "" (enclose "head" "" (linkText href) ++ body) ++ "\n"

theorem render_stylesheetLink (href : String) :
    render (stylesheetLink href) = .ok (linkText href) := by
  have hrel : escapeAttribute "stylesheet" = "stylesheet" := by decide +kernel
  have htype : escapeAttribute "text/css" = "text/css" := by decide +kernel
  have hvoid : voidTypes.contains "link" = true := by decide
  unfold linkText
  simp only [stylesheetLink, void, render, attributesText, Value.written?, renderValue, hvoid,
    if_true, hrel, htype]
  apply congrArg Except.ok
  apply String.toList_inj.1
  simp [String.toList_append]

theorem render_plain_block (type : String) (cs : List Markup) :
    render (plain type (block cs)) = (renderAll cs).map (enclose type "") := by
  rw [plain, render, attributesText]
  dsimp only
  cases renderAll cs <;> rfl

theorem render_document (href : String) (content : List Markup) :
    render (document [href] content) = (renderAll content).map fun inner =>
      enclose "html" "" (enclose "head" "" (linkText href) ++ enclose "body" "" inner) := by
  have hhead : renderAll [stylesheetLink href] = .ok (linkText href) := by
    rw [renderAll, render_stylesheetLink, renderAll]
    dsimp only
    rw [String.append_empty]
  rw [document, render_plain_block, List.map_singleton, renderAll, render_plain_block, hhead,
    Except.map]
  dsimp only
  rw [renderAll, render_plain_block, renderAll]
  cases renderAll content with
  | error f => rfl
  | ok inner => simp only [Except.map, String.append_empty]

theorem renderDocument_head {href t : String} {content : List Markup}
    (h : renderDocument [href] content = .ok t) : ∃ body, t = textWithHead href body := by
  unfold renderDocument at h
  split at h
  · next u hu =>
    cases h
    rw [render_document] at hu
    obtain ⟨inner, -, rfl⟩ := exists_of_map_ok hu
    exact ⟨_, rfl⟩
  · cases h

/-- The first byte of a page. -/
theorem head_ink_textWithHead (href body : String) :
    (LineEnd.ink (textWithHead href body)).head? = some 60 := by
  have hfirst : (LineEnd.ink "<!DOCTYPE html>\n").head? = some 60 := by decide +kernel
  unfold textWithHead
  rw [String.append_assoc, LineEnd.ink_append, List.head?_append]
  exact Option.or_eq_some_iff.2 (.inl hfirst)

end Markup

namespace Site

open Disk

variable {Event : Type} {s : Site Event} {output file : Path} {p : Placed} {ps : List Placed}
  {r r' : Run Event} {d disk : Disk} {active : Option (Feature.Active Event)} {files : List Path}

/-- The file that the style sheet is copied to. -/
def sheetFile (s : Site Event) (output : Path) : Path :=
  output.join (Path.ofText s.config.stylesheet)

/-- The file holds what some page says. -/
def HoldsPage (s : Site Event) (d : Disk) (file : Path) : Prop :=
  ∃ p t place, (s.pageText p).result = .ok t ∧
    d.locate .entry file = .ok (.found place (.file (s.config.lineEnd.apply t).toUTF8))

/-- A file that holds a page holds one still when another is written, if only to the same file. -/
theorem HoldsPage.wrote (h : HoldsPage s r.disk file) (hw : Wrote s output p r r') :
    HoldsPage s r'.disk file := by
  obtain ⟨q, t, place, ht, hl⟩ := h
  obtain ⟨place', hg, u, hu, hl'⟩ := hw.holds
  by_cases hplace : place = place'
  · subst hplace
    exact ⟨p, u, place, hu, hg.locate_same hl hl'⟩
  · exact ⟨q, t, place, ht, hg.locate_file hl hplace⟩

theorem WroteAll.holdPages (h : WroteAll s output ps r r')
    (hr : ∀ f ∈ r.written, HoldsPage s r.disk f) : ∀ f ∈ r'.written, HoldsPage s r'.disk f := by
  induction h with
  | nil r => exact hr
  | cons hp _ ih =>
    refine ih fun f hf => ?_
    rw [hp.written] at hf
    obtain hf | hf := List.mem_append.1 hf
    · exact (hr f hf).wrote hp
    · obtain rfl := List.mem_singleton.1 hf
      obtain ⟨place, -, t, ht, hl⟩ := hp.holds
      exact ⟨_, t, place, ht, hl⟩

/-- Whatever becomes of a run, the files it has written hold pages. Where the output path leads to the
emptied folder, each holds the page that it was written for. -/
theorem generate_pages_read (s : Site Event) (output : Path) (disk : Disk)
    (active : Option (Feature.Active Event)) :
    (∀ f ∈ (s.generate output disk active).2.written,
      HoldsPage s (s.generate output disk active).2.disk f) ∧
    ∃ done, done <+: s.model.pages ∧ (done.map fun p => p.place.fileName).Nodup ∧
      (s.generate output disk active).2.written = done.map (pageFile output) ∧
      ∀ p ∈ done, ∃ t, (s.pageText p).result = .ok t ∧ ∀ dir, EmptiesTo output disk dir →
        (s.generate output disk active).2.disk.read (pageFile output p) =
          .ok (s.config.lineEnd.apply t).toUTF8 := by
  rcases hs : (s.setUp output).run { disk, active } with ⟨x, start⟩
  cases x with
  | error f =>
    have hwritten : start.written = [] := by
      have hkeeps := keeps_setUp s output { disk, active }
      rw [hs] at hkeeps
      exact (Prod.mk.inj hkeeps).1
    rw [generate_of_setUp_error hs]
    dsimp only
    rw [hwritten]
    refine ⟨fun f hf => ?_, [], List.nil_prefix, List.nodup_nil, rfl, fun p hp => ?_⟩
    · exact nomatch hf
    · exact nomatch hp
  | ok _ =>
    obtain ⟨hwritten, howners⟩ := setUp_pages hs
    -- the pages of the run that were written one after another, whatever came next
    have wrote {done : List Placed} {r₁ r : Run Event} (hdone : done <+: s.model.pages)
        (hall : WroteAll s output done start r₁) (hg : Grows (fun _ => False) r₁.disk r.disk)
        (hw : r.written = r₁.written) :
        (∀ f ∈ r.written, HoldsPage s r.disk f) ∧
        ∃ done, done <+: s.model.pages ∧ (done.map fun p => p.place.fileName).Nodup ∧
          r.written = done.map (pageFile output) ∧
          ∀ p ∈ done, ∃ t, (s.pageText p).result = .ok t ∧ ∀ dir, EmptiesTo output disk dir →
            r.disk.read (pageFile output p) = .ok (s.config.lineEnd.apply t).toUTF8 := by
      have hholds : ∀ f ∈ r₁.written, HoldsPage s r₁.disk f := by
        apply hall.holdPages
        rw [hwritten]
        exact fun f hf => nomatch hf
      obtain ⟨hfiles, -, hread, hsettled⟩ := hall.files hg howners hwritten
      rw [hw]
      refine ⟨fun f hf => ?_, done, hdone, hall.nodup howners, hfiles, fun p hp => ?_⟩
      · obtain ⟨p, t, place, ht, hl⟩ := hholds f hf
        exact ⟨p, t, place, ht, hg.locate_file hl not_false⟩
      · obtain ⟨t, ht, hown⟩ := hread p hp
        refine ⟨t, ht, fun dir hempty => hown fun q _ hone => ?_⟩
        exact hsettled dir (setUp_settled hs hempty) p q hone
    obtain ⟨r₁, r, hall, hw, hd, hg⟩ | ⟨done, p, later, f, r₁, r, he, hall, hp, hw, hg⟩ :=
      generate_cases hs
    · rw [hg]
      exact wrote (List.prefix_refl _) hall (hd ▸ .refl _) hw
    · rw [hg]
      exact wrote ⟨_, he.symm⟩ hall hp.grows hw

theorem head_of_pageText {t : String} (h : (s.pageText p).result = .ok t) :
    ∃ body, t = Markup.textWithHead s.config.stylesheet body := by
  obtain ⟨content, -, h⟩ := Logged.bind_eq_ok.1 h
  split at h
  · next u hu =>
    cases h
    exact Markup.renderDocument_head hu
  · cases h

/-- Where the output folder was emptied, the style sheet has the file of a page only if it has its
name. -/
theorem sheetParts_of_isSame {es : Entries} {dir : List String}
    (hconfig : Config.ofEntries es = .ok s.config)
    (hs : (s.setUp output).run { disk, active } = (.ok (), r)) (hempty : EmptiesTo output disk dir)
    (hg : Grows (fun _ => True) r.disk d)
    (hsame : d.isSame (s.sheetFile output) (pageFile output p) = .ok true) :
    s.sheetParts = [p.place.fileName] := by
  obtain ⟨emptied, hrun, hcopy⟩ := setUp_disks hs
  have hcopied := copy_grows s.stylesheet (s.sheetFile output) emptied
  rw [sheetFile, hcopy] at hcopied
  have hsettled := (setUp_settled hs hempty).grows hg
  rw [EmptiesTo, hrun] at hempty
  obtain ⟨place, e, hsheet, hpage⟩ := isSame_iff.1 hsame
  -- no link is on the way to either of them, so that both are where their names say
  obtain rfl := hsettled.place_eq p.place.isEntryName_fileName hpage
  obtain ⟨entries, hdir⟩ := hsettled.found
  rw [sheetFile, join_sheet hconfig] at hsheet
  have hplace := place_eq_below hdir hsheet
    (fun n hn => isEntryName_of_mem_sheetParts hconfig hn)
    fun ns target _ hns => ne_link_below_empty hempty (hcopied.trans hg) hns target
  exact (List.append_cancel_left hplace).symm

/-- Every file of a run that ends well holds a page with the link to the style sheet in its head. -/
theorem heads_of_generate (h : s.generate output disk active = (.ok files, r)) :
    ∀ f ∈ files, ∃ body, r.disk.read f =
      .ok (s.config.lineEnd.apply (Markup.textWithHead s.config.stylesheet body)).toUTF8 := by
  obtain ⟨start, r₁, hs, hall, rfl, hdisk⟩ := generate_wrote h
  obtain ⟨hwritten, -⟩ := setUp_pages hs
  have hstart : ∀ f ∈ start.written, HoldsPage s start.disk f := by
    rw [hwritten]
    exact fun f hf => nomatch hf
  intro f hf
  obtain ⟨p, t, place, ht, hl⟩ := hall.holdPages hstart f hf
  obtain ⟨body, rfl⟩ := head_of_pageText ht
  rw [hdisk]
  exact ⟨body, read_eq_ok hl⟩

/-- The style sheet survives the run. When a run ends well, the file that the settings name for it
holds what the packaged style sheet holds, and what this held before if it could be read when the
output folder had been emptied, unless a page has been written to the one file or to the other.
Where the output path leads to the emptied folder, no page has the file of the style sheet but one
with the same name. Every file that is written holds a page with a link to the style sheet in its
head. -/
theorem stylesheet_survives {es : Entries} (hconfig : Config.ofEntries es = .ok s.config)
    (h : s.generate output disk active = (.ok files, r)) :
    (∃ content,
      (∀ old, ((emptyFolder output).run disk).2.read s.stylesheet = .ok old → content = old) ∧
      ((∀ p ∈ s.model.pages, r.disk.isSame (s.sheetFile output) (pageFile output p) ≠ .ok true) →
        r.disk.read (s.sheetFile output) = .ok content) ∧
      ((∀ p ∈ s.model.pages, r.disk.isSame s.stylesheet (pageFile output p) ≠ .ok true) →
        r.disk.read s.stylesheet = .ok content)) ∧
    (∀ dir, EmptiesTo output disk dir → ∀ p ∈ s.model.pages,
      r.disk.isSame (s.sheetFile output) (pageFile output p) = .ok true →
        s.sheetParts = [p.place.fileName]) ∧
    ∀ f ∈ files, ∃ body, r.disk.read f =
      .ok (s.config.lineEnd.apply (Markup.textWithHead s.config.stylesheet body)).toUTF8 := by
  have hheads := heads_of_generate h
  obtain ⟨start, r₁, hs, hall, -, hdisk⟩ := generate_wrote h
  rw [hdisk] at hheads ⊢
  refine ⟨?_, ?_, hheads⟩
  · -- after the copy both files hold the same, and pages only change what they are written to
    obtain ⟨emptied, hrun, hcopy⟩ := setUp_disks hs
    rw [hrun]
    obtain ⟨content, place, q, hold, hsheet, hpackaged⟩ := copy_same hcopy
    have hend : Grows (fun _ => False) r₁.disk r₁.disk := .refl _
    exact ⟨content, hold, fun hother => read_eq_ok (hall.keepsFile hsheet hend hother),
      fun hother => read_eq_ok (hall.keepsFile hpackaged hend hother)⟩
  · intro dir hempty p _ hsame
    exact sheetParts_of_isSame hconfig hs hempty hall.grows hsame

/-- A style sheet in a folder of its own is there at the end, and both pages link to it. -/
theorem stylesheet_in_folder_survives :
    let files := ["index.html", "p.html"].map plainOutput.child
    let run := folderSite.generate plainOutput linkedDisk none
    run.1 = .ok files ∧ run.2.disk.read ⟨.root, ["site", "css", "site.css"]⟩ = .ok ⟨#[98]⟩ ∧
      ∀ f ∈ files, ∃ body, run.2.disk.read f =
        .ok (folderSite.config.lineEnd.apply (Markup.textWithHead "css/site.css" body)).toUTF8 := by
  intro files run
  have hhref : folderSite.config.stylesheet = "css/site.css" := rfl
  have hruns : run.1 = .ok files := eq_ok_of_toOption (by decide +kernel)
  have hconfig : Config.ofEntries [(.text "stylesheet", .text "css/site.css")] =
      .ok folderSite.config := rfl
  have hempty : EmptiesTo plainOutput linkedDisk ["site"] := by decide +kernel
  have hparts : folderSite.sheetParts = ["css", "site.css"] := by decide +kernel
  have hfile : folderSite.sheetFile plainOutput = ⟨.root, ["site", "css", "site.css"]⟩ := by
    decide +kernel
  have hpackaged : ((emptyFolder plainOutput).run linkedDisk).2.read folderSite.stylesheet =
      .ok ⟨#[98]⟩ := by
    decide +kernel
  obtain ⟨⟨content, hcontent, hsheet, -⟩, hother, hpages⟩ :=
    stylesheet_survives hconfig (Prod.ext hruns rfl)
  have hapart : ∀ p ∈ folderSite.model.pages, run.2.disk.isSame (folderSite.sheetFile plainOutput)
      (pageFile plainOutput p) ≠ .ok true := by
    intro p hp hsame
    have hname := hother _ hempty p hp hsame
    rw [hparts] at hname
    exact absurd hname (by simp)
  have hread := hsheet hapart
  rw [hcontent _ hpackaged, hfile] at hread
  rw [hhref] at hpages
  exact ⟨hruns, hread, hpages⟩

/-- The plain site with the name of its first page for the style sheet. -/
def indexSite : Site Unit :=
  { plainSite with config? := some { Config.default with stylesheet := "index.html" } }

/-- The settings may give the style sheet the name of a page. The page is then written over it, and
the run ends well. -/
theorem stylesheet_with_page_name_is_lost :
    let run := indexSite.generate plainOutput linkedDisk none
    Config.ofEntries [(.text "stylesheet", .text "index.html")] = .ok indexSite.config ∧
      run.1 = .ok (["index.html", "p.html"].map plainOutput.child) ∧
      run.2.disk.read indexSite.stylesheet = .ok ⟨#[98]⟩ ∧
      run.2.disk.read (indexSite.sheetFile plainOutput) ≠ .ok ⟨#[98]⟩ := by
  intro run
  have hruns : run.1 = .ok (["index.html", "p.html"].map plainOutput.child) :=
    eq_ok_of_toOption (by decide +kernel)
  have hfile : indexSite.sheetFile plainOutput = plainOutput.child "index.html" := by
    decide +kernel
  refine ⟨rfl, hruns, by decide +kernel, fun hread => ?_⟩
  obtain ⟨body, hpage⟩ := heads_of_generate (Prod.ext hruns rfl) _ List.mem_cons_self
  rw [← hfile] at hpage
  have hcontent := Except.ok.inj (hread.symm.trans hpage)
  -- the first byte of a page is no letter
  have hink : LineEnd.ink (Markup.textWithHead indexSite.config.stylesheet body) =
      [98].filter LineEnd.isInk := by
    rw [← LineEnd.ink_apply indexSite.config.lineEnd, LineEnd.ink, ← hcontent]
  have hfirst := Markup.head_ink_textWithHead indexSite.config.stylesheet body
  rw [hink] at hfirst
  exact absurd hfirst (by decide)

end Site

end RefSite
