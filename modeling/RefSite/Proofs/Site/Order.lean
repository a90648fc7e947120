import RefSite.Proofs.Site.Faults
import RefSite.Proofs.Site.Storage

namespace RefSite.Site

open Disk

variable {Event : Type} {s : Site Event} {output : Path} {p : Placed} {ps : List Placed}
  {r r' start : Run Event} {d disk : Disk} {active : Option (Feature.Active Event)}

/-- Why the page of an item is not written after certain others: it cannot be built, one of them
has its file, or its file cannot be written. -/
inductive Obstacle (s : Site Event) (output : Path) (start : Run Event) (done : List Placed)
    (p : Placed) : Failure → Prop where
  | unbuilt {f : Failure} (h : (s.pageText p).result = .error f) (hf : f.IsPageFault) :
      Obstacle s output start done p f
  | shared {q : Placed} (hq : q ∈ done) (h : q.place.fileName = p.place.fileName) :
      Obstacle s output start done p
        (.sharedFile p.place.fileName q.place.description p.place.description)
  | unwritten {t : String} {f : FileFault} {r₁ : Run Event} {d : Disk}
      (ht : (s.pageText p).result = .ok t) (hdone : WroteAll s output done start r₁)
      (h : (writeText s.config.lineEnd (pageFile output p) t).run r₁.disk = (.error f, d)) :
      Obstacle s output start done p (.file f)

/-- A page that is refused after others were written has an obstacle. -/
theorem Refused.obstacle {f : Failure} {d : Disk} {done : List Placed}
    (h : Refused s output p r f d) (hdone : WroteAll s output done start r)
    (hstart : start.owners = []) : Obstacle s output start done p f := by
  cases h with
  | unbuilt h => exact .unbuilt h (Page.fails_text _ _ _ f h).isPageFault
  | @shared t owner _ h =>
    obtain ⟨before, after, howners, -⟩ := List.lookup_eq_some_iff.1 h
    have hmem : (p.place.fileName, owner) ∈ r.owners := by
      rw [howners]
      simp
    rw [hdone.owners, hstart, List.append_nil, List.mem_reverse] at hmem
    obtain ⟨q, hq, he⟩ := List.mem_map.1 hmem
    obtain ⟨hname, rfl⟩ := Prod.mk.inj he
    exact .shared hq hname
  | unwritten ht _ h => exact .unwritten ht hdone h

theorem nodup_pageFile (output : Path) (h : (ps.map fun p => p.place.fileName).Nodup) :
    (ps.map (pageFile output)).Nodup := by
  have hi : Function.Injective output.child := by
    intro a b hab
    have hparts := congrArg Path.parts hab
    simpa [Path.parts_child] using hparts
  have hm := h.map hi
  rwa [List.map_map] at hm

/-- Pages that were written have names of their own, and hold what they say while their files are
different. In a folder without links they are. -/
theorem WroteAll.files (h : WroteAll s output ps start r) (hg : Grows (fun _ => False) r.disk d)
    (howners : start.owners = []) (hwritten : start.written = []) :
    r.written = ps.map (pageFile output) ∧ (ps.map (pageFile output)).Nodup ∧
      (∀ p ∈ ps, ∃ t, (s.pageText p).result = .ok t ∧
        ((∀ q ∈ ps, OneFile output d p q → q.place.fileName = p.place.fileName) →
          d.read (pageFile output p) = .ok (s.config.lineEnd.apply t).toUTF8)) ∧
      ∀ dir, start.disk.IsSettled output dir →
        ∀ p q, OneFile output d p q → q.place.fileName = p.place.fileName := by
  have hnames := h.nodup howners
  refine ⟨?_, nodup_pageFile output hnames, ?_, ?_⟩
  · rw [h.written, hwritten, List.nil_append]
  · intro p hp
    obtain ⟨t, ht⟩ := h.text p hp
    refine ⟨t, ht, fun hother => ?_⟩
    obtain ⟨place, hholds⟩ := h.holds hg hnames p hp hother
    obtain ⟨t', ht', hread⟩ := hholds.read
    rw [ht] at ht'
    cases ht'
    exact hread
  · intro dir hdir p q hone
    exact hone.fileName_eq ((hdir.grows h.grows).grows hg)

/-- Pages are written in their order, up to the first that has an obstacle, and never overwrite each
other. When everything is set up, the files written are those of the pages that come first; each of
these pages could be built, no two have the same file name, and each file holds what its page says
when the run is over, unless links make the file of another page the same file. This cannot be where
the output folder has no links to begin with. The run ends well when all pages are written and the
last hook does not fail, and only then. -/
theorem pages_written_in_order (hs : (s.setUp output).run { disk, active } = (.ok (), start)) :
    ∃ done rest, s.model.pages = done ++ rest ∧
      (s.generate output disk active).2.written = done.map (pageFile output) ∧
      (done.map (pageFile output)).Nodup ∧
      (∀ p ∈ done, ∃ t, (s.pageText p).result = .ok t ∧
        ((∀ q ∈ done, OneFile output (s.generate output disk active).2.disk p q →
            q.place.fileName = p.place.fileName) →
          (s.generate output disk active).2.disk.read (pageFile output p) =
            .ok (s.config.lineEnd.apply t).toUTF8)) ∧
      (∀ dir, start.disk.IsSettled output dir → ∀ p q,
        OneFile output (s.generate output disk active).2.disk p q →
          q.place.fileName = p.place.fileName) ∧
      (∀ files, (s.generate output disk active).1 = .ok files ↔
        rest = [] ∧ hookResult { start with written := done.map (pageFile output) } = .ok () ∧
          files = done.map (pageFile output)) ∧
      ∀ f, (s.generate output disk active).1 = .error f →
        (rest = [] ∧
          hookResult { start with written := done.map (pageFile output) } = .error f) ∨
        ∃ p later, rest = p :: later ∧ Obstacle s output start done p f := by
  obtain ⟨hwritten, howners⟩ := setUp_pages hs
  obtain ⟨r₁, r, hall, hw, hd, hg⟩ | ⟨done, p, later, f, r₁, r, he, hdone, hp, hw, hg⟩ :=
    generate_cases hs
  · obtain ⟨hfiles, hnodup, hread, hsettled⟩ := hall.files (.refl _) howners hwritten
    -- the feature that is asked last was made active before the first page
    have hhook : hookResult { start with written := s.model.pages.map (pageFile output) } =
        hookResult r₁ := by
      unfold hookResult
      rw [hall.active, hfiles]
    rw [hg]
    refine ⟨s.model.pages, [], (List.append_nil _).symm, hw.trans hfiles, hnodup, ?_, ?_, ?_, ?_⟩
    · dsimp only
      rw [hd]
      exact hread
    · dsimp only
      rw [hd]
      exact hsettled
    · intro files
      dsimp only
      rw [hhook, hfiles]
      cases hookResult r₁ <;> simp [Except.map, eq_comm]
    · intro f hf
      dsimp only at hf
      rw [hhook]
      refine .inl ⟨rfl, ?_⟩
      cases hh : hookResult r₁ with
      | error g =>
        rw [hh] at hf
        cases hf
        rfl
      | ok _ =>
        rw [hh] at hf
        exact nomatch hf
  · obtain ⟨hfiles, hnodup, hread, hsettled⟩ := hdone.files hp.grows howners hwritten
    rw [hg]
    refine ⟨done, p :: later, he, hw.trans hfiles, hnodup, hread, hsettled, ?_, ?_⟩
    · intro files
      simp
    · intro g hg
      cases hg
      exact .inr ⟨p, later, rfl, hp.obstacle hdone howners⟩

/-- A feature that fails when the pages are written. -/
def failingLate : Feature Unit where
  name := "FailingLate"
  onInitialized _ := {}
  onFinished _ _ := { failure? := some .foreign }

/-- A site of packages without anything in them. -/
def ofPackages (comment : Option Comment) (names : List String) (plugins : List PluginName) :
    Site Unit where
  model := (Item.mk { kind := .known .model, name := "", comment }
    (names.map fun name => .mk { kind := .known .package, name } [])).placed
  config? := some { Config.default with plugins }
  origin := .site
  registry :=
    [{ name := "late", isPackage := false, features := [("FailingLate", failingLate)] }]
  stylesheet := ⟨.root, ["styles.css"]⟩

def twinSite : Site Unit := ofPackages none ["p", "p"] []

def lateSite : Site Unit := ofPackages none [] [⟨"late", "FailingLate"⟩]

/-- The root's page links to a number of 4301 digits. -/
def numberSite : Site Unit :=
  ofPackages (some ⟨[.link "LinkTag" .null (.int (Int.ofNat (Nat.pow 10 4300))) .null], none⟩) [] []

def plainSite : Site Unit := ofPackages none ["p"] []

def plainDisk : Disk := ⟨.folder [("styles.css", .file .empty)], []⟩

def plainOutput : Path := ⟨.root, ["site"]⟩

/-- The link in the folder `a` leads to a place from which double dots do not lead back. -/
def crossedDisk : Disk where
  root := .folder
    [("styles.css", .file .empty),
      ("a", .folder [("x", .link "/o/s/t")]),
      ("o", .folder [("s", .folder [("t", .folder [])]), ("b", .link "/a")]),
      ("b", .folder [("index.html", .link "p.html")])]
  here := []

/-- This path leads to the folder `a` as long as the link in there has not been removed. -/
def crossedOutput : Path := ⟨.root, ["a", "x", "..", "..", "b"]⟩

/-- Of two packages of one name the second has no page, and the first keeps its own. -/
theorem pages_of_two_packages_of_one_name :
    ∃ start, (twinSite.setUp plainOutput).run { disk := plainDisk, active := none } =
        (.ok (), start) ∧
      ∃ done rest, twinSite.model.pages = done ++ rest ∧
        done.map (pageFile plainOutput) = ["index.html", "p.html"].map plainOutput.child ∧
        ∀ p ∈ done, ∃ t, (twinSite.pageText p).result = .ok t ∧
          (twinSite.generate plainOutput plainDisk none).2.disk.read (pageFile plainOutput p) =
            .ok (twinSite.config.lineEnd.apply t).toUTF8 := by
  have hresult : ((twinSite.setUp plainOutput).run
      { disk := plainDisk, active := none }).1.toOption = some () := by
    decide +kernel
  rcases hs : (twinSite.setUp plainOutput).run { disk := plainDisk, active := none } with ⟨x, start⟩
  rw [hs] at hresult
  cases x with
  | error f => exact nomatch hresult
  | ok _ =>
    have hempties : EmptiesTo plainOutput plainDisk ["site"] := by decide +kernel
    have hfiles : (twinSite.generate plainOutput plainDisk none).2.written =
        ["index.html", "p.html"].map plainOutput.child := by
      decide +kernel
    obtain ⟨done, rest, he, hdone, -, hread, hone, -⟩ := pages_written_in_order hs
    refine ⟨start, rfl, done, rest, he, hdone.symm.trans hfiles, ?_⟩
    intro p hp
    obtain ⟨t, ht, hread⟩ := hread p hp
    exact ⟨t, ht, hread fun q _ => hone _ (setUp_settled hs hempties) p q⟩

/-- The run fails at a number that is too long. -/
def stopsAtNumber : Except Failure (List Path) → Bool
  | .error .longNumber => true
  | _ => false

theorem eq_longNumber {x : Except Failure (List Path)} (h : stopsAtNumber x = true) :
    x = .error .longNumber := by
  unfold stopsAtNumber at h
  split at h
  · rfl
  · cases h

/-- Three runs that the order of pages alone does not describe. In the first one all pages are
written and the last hook fails. In the second one the root's page has a number in it that is too
long to be written. In the third one the output path leads to another folder once its own is empty,
and there a link makes the file of the root the file of the package. -/
theorem exceptions_to_page_order :
    ((lateSite.generate plainOutput plainDisk none).2.written =
        lateSite.model.pages.map (pageFile plainOutput) ∧
      ∀ files, (lateSite.generate plainOutput plainDisk none).1 ≠ .ok files) ∧
    ((numberSite.generate plainOutput plainDisk none).2.written = [] ∧
      (numberSite.generate plainOutput plainDisk none).1 = .error .longNumber) ∧
    (plainSite.generate crossedOutput crossedDisk none).1 =
        .ok (plainSite.model.pages.map (pageFile crossedOutput)) ∧
      ¬ ∀ p ∈ plainSite.model.pages, ∃ t, (plainSite.pageText p).result = .ok t ∧
        (plainSite.generate crossedOutput crossedDisk none).2.disk.read (pageFile crossedOutput p) =
          .ok (plainSite.config.lineEnd.apply t).toUTF8 := by
  refine ⟨⟨by decide +kernel, ?_⟩, ⟨by decide +kernel, ?_⟩, ?_, ?_⟩
  · have hfails : (lateSite.generate plainOutput plainDisk none).1.toOption = none := by
      decide +kernel
    intro files hfiles
    rw [hfiles] at hfails
    exact nomatch hfails
  · apply eq_longNumber
    decide +kernel
  · have hresult : (plainSite.generate crossedOutput crossedDisk none).1.toOption =
        some (plainSite.model.pages.map (pageFile crossedOutput)) := by
      decide +kernel
    cases hrun : (plainSite.generate crossedOutput crossedDisk none).1 with
    | ok files =>
      rw [hrun] at hresult
      exact congrArg Except.ok (Option.some.inj hresult)
    | error f =>
      rw [hrun] at hresult
      exact nomatch hresult
  · intro h
    let package := plainSite.model.pages.get ⟨1, by decide +kernel⟩
    have hone : OneFile crossedOutput (plainSite.generate crossedOutput crossedDisk none).2.disk
        plainSite.model package := by
      unfold OneFile
      decide +kernel
    -- the two pages say different things, whatever the line ends
    have hink : (plainSite.pageText plainSite.model).result.toOption.map LineEnd.ink ≠
        (plainSite.pageText package).result.toOption.map LineEnd.ink := by
      decide +kernel
    obtain ⟨t, ht, hread⟩ := h _ plainSite.model.mem_pages_self
    obtain ⟨t', ht', hread'⟩ := h package (List.get_mem _ _)
    rw [read_eq_of_isSame hone, hread'] at hread
    apply hink
    rw [ht, ht']
    exact congrArg some (LineEnd.ink_eq_of_apply (Except.ok.inj hread)).symm

end RefSite.Site
