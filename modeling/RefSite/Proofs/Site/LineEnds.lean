import RefSite.Proofs.Files.Likeness
import RefSite.Proofs.Site.Order
import RefSite.Proofs.Site.StylesheetCopy
import RefSite.Proofs.Text.LineEnds

namespace RefSite.Site

open Disk LineEnd

variable {Event α β : Type} {s : Site Event} {output : Path} {k k' : LineEnd}

/-- The site with settings for other line ends. -/
def withLineEnd (s : Site Event) (k : LineEnd) : Site Event :=
  { s with config? := some (s.config.withLineEnd k) }

theorem pageText_withLineEnd (s : Site Event) (k : LineEnd) (p : Placed) :
    (s.withLineEnd k).pageText p = s.pageText p := rfl

theorem loadPlugins_withLineEnd (s : Site Event) (k : LineEnd) (context : Feature.Context)
    (ps : List PluginName) : (s.withLineEnd k).loadPlugins context ps = s.loadPlugins context ps := by
  induction ps with
  | nil => rfl
  | cons p ps ih =>
    rw [loadPlugins, loadPlugins, ih]
    rfl

/-- What comes before the pages does not depend on line ends. -/
theorem setUp_withLineEnd (s : Site Event) (k k' : LineEnd) (output : Path) :
    (s.withLineEnd k').setUp output = (s.withLineEnd k).setUp output := by
  have hprepare (k : LineEnd) : (s.withLineEnd k).prepare output =
      s.loadPlugins ⟨s.model, output⟩ s.config.plugins :=
    loadPlugins_withLineEnd s k _ _
  rw [setUp, setUp, hprepare, hprepare]
  rfl

/-- The disks of two runs, while pages are written with different line ends: they are the same before
the first page, and afterwards they have the output folder. -/
def DisksBeside (output : Path) (k k' : LineEnd) (d d' : Disk) : Prop :=
  d' = d ∨ (d.LeadsToFolder output ∧ SameButLineEnds k k' d d')

theorem writeText_made {file : Path} {d d' : Disk} (hout : d.LeadsToFolder file.parent)
    (h : SameButLineEnds k k' d d') (t : String) :
    ((writeText k' file t).run d').1 = ((writeText k file t).run d).1 ∧
      DisksBeside file.parent k k' ((writeText k file t).run d).2
        ((writeText k' file t).run d').2 := by
  obtain ⟨hends, hlike⟩ := h.writeText hout t
  exact ⟨hends, .inr ⟨hout.grows (writeText_grows k file t d), hlike⟩⟩

/-- A page that is written to both disks keeps them beside each other. The first page makes the output
folder on both. -/
theorem writeText_beside {file : Path} {d d' : Disk} (h : DisksBeside file.parent k k' d d')
    (t : String) : ((writeText k' file t).run d').1 = ((writeText k file t).run d).1 ∧
      DisksBeside file.parent k k' ((writeText k file t).run d).2
        ((writeText k' file t).run d').2 := by
  obtain rfl | ⟨hout, hlike⟩ := h
  · rcases hm : (makeFolders file.parent).run d' with ⟨x, made⟩
    cases x with
    | error f =>
      have hfails (k : LineEnd) : (writeText k file t).run d' = (.error f, made) :=
        run_bind_error hm _
      rw [hfails, hfails]
      exact ⟨rfl, .inl rfl⟩
    | ok _ =>
      have hout : made.LeadsToFolder file.parent := makeFolders_ok hm
      have hwrites (k : LineEnd) : (writeText k file t).run d' = (writeText k file t).run made := by
        rw [run_writeText_of_leads k t hout]
        exact run_bind_ok hm _
      rw [hwrites, hwrites]
      exact writeText_made hout (.refl made) t
  · exact writeText_made hout hlike t

/-- Two runs that only differ in the line ends of pages; the calls of features show these too. -/
structure Beside (output : Path) (k k' : LineEnd) (r r' : Run Event) : Prop where
  others : r' = { r with disk := r'.disk, calls := r'.calls }
  disks : DisksBeside output k k' r.disk r'.disk

/-- The steps keep two runs beside each other and have the same result. -/
def InStep (output : Path) (k k' : LineEnd) (m m' : Run.Step Event α) : Prop :=
  ∀ r r', Beside output k k' r r' →
    (m'.run r').1 = (m.run r).1 ∧ Beside output k k' (m.run r).2 (m'.run r').2

namespace InStep

theorem pure (a : α) : InStep output k k' (pure a : Run.Step Event α) (pure a) :=
  fun _ _ h => ⟨rfl, h⟩

theorem throw (f : Failure) : InStep output k k' (throw f : Run.Step Event α) (throw f) :=
  fun _ _ h => ⟨rfl, h⟩

theorem bind {m m' : Run.Step Event α} {f f' : α → Run.Step Event β}
    (hm : InStep output k k' m m') (hf : ∀ a, InStep output k k' (f a) (f' a)) :
    InStep output k k' (m >>= f) (m' >>= f') := by
  intro r r' h
  obtain ⟨hends, hbeside⟩ := hm r r' h
  rcases hrun : m.run r with ⟨x, r₁⟩
  rcases hrun' : m'.run r' with ⟨x', r₁'⟩
  rw [hrun, hrun'] at hends hbeside
  obtain rfl : x' = x := hends
  cases x' with
  | error e =>
    rw [run_bind_error hrun, run_bind_error hrun']
    exact ⟨rfl, hbeside⟩
  | ok a =>
    rw [run_bind_ok hrun, run_bind_ok hrun']
    exact hf a r₁ r₁' hbeside

/-- A step may look at the state if what it does then keeps the two states beside each other. -/
theorem bind_get {f f' : Run Event → Run.Step Event β}
    (hf : ∀ r r', Beside output k k' r r' → InStep output k k' (f r) (f' r')) :
    InStep output k k' (get >>= f) (get >>= f') := by
  intro r r' h
  rw [run_bind_ok (run_get _), run_bind_ok (run_get _)]
  exact hf r r' h r r' h

theorem modify {g : Run Event → Run Event}
    (hg : ∀ r disk calls, g { r with disk, calls } = { g r with disk, calls }) :
    InStep output k k' (modify g : Run.Step Event Unit) (modify g) := by
  intro r r' h
  have hdisk (r : Run Event) : (g r).disk = r.disk := by
    have hself := congrArg Run.disk (hg r r.disk r.calls)
    exact hself
  have hothers {disk : Disk} {calls : List Feature.Call} (hr : r' = { r with disk, calls }) :
      g r' = { g r with disk := (g r').disk, calls := (g r').calls } := by
    rw [hr, hg]
  rw [run_modify, run_modify]
  refine ⟨rfl, hothers h.others, ?_⟩
  rw [hdisk, hdisk]
  exact h.disks

theorem report (es : List Log.Entry) : InStep output k k' (report es : Run.Step Event Unit) (report es) :=
  .modify fun _ _ _ => rfl

theorem logged (m : Logged α) : InStep output k k' (logged m : Run.Step Event α) (logged m) := by
  refine .bind (.report _) fun _ => ?_
  cases m.result with
  | ok a => exact .pure a
  | error f => exact .throw f

theorem writeText (p : Placed) (t : String) :
    InStep output k k' (change (Disk.writeText k (pageFile output p) t) : Run.Step Event Unit)
      (change (Disk.writeText k' (pageFile output p) t)) := by
  intro r r' h
  have hdisks : DisksBeside (pageFile output p).parent k k' r.disk r'.disk := by
    rw [pageFile, Path.parent_child]
    exact h.disks
  obtain ⟨hends, hbeside⟩ := writeText_beside hdisks t
  rw [pageFile, Path.parent_child] at hbeside
  rcases hw : (Disk.writeText k (pageFile output p) t).run r.disk with ⟨x, d⟩
  rcases hw' : (Disk.writeText k' (pageFile output p) t).run r'.disk with ⟨x', d'⟩
  rw [hw, hw'] at hends
  rw [pageFile] at hw hw'
  rw [hw, hw'] at hbeside
  obtain rfl : x' = x := hends
  have hothers : ({ r' with disk := d' } : Run Event) =
      { r with disk := d', calls := r'.calls } := by
    rw [h.others]
  cases x' with
  | error f =>
    rw [pageFile, run_change_error hw, run_change_error hw']
    exact ⟨rfl, hothers, hbeside⟩
  | ok _ =>
    rw [pageFile, run_change_ok hw, run_change_ok hw']
    exact ⟨rfl, hothers, hbeside⟩

theorem writePage (s : Site Event) (k k' : LineEnd) (output : Path) (p : Placed) :
    InStep output k k' ((s.withLineEnd k).writePage output p)
      ((s.withLineEnd k').writePage output p) := by
  refine .bind (.logged (s.pageText p)) fun t => .bind_get fun r r' h => ?_
  have howners : r'.owners = r.owners := by rw [h.others]
  rw [howners]
  cases r.owners.lookup p.place.fileName with
  | some owner => exact .throw _
  | none =>
    exact .bind (.modify fun _ _ _ => rfl) fun _ => .bind (.writeText p t) fun _ =>
      .bind (.modify fun _ _ _ => rfl) fun _ => .report _

theorem writePages (s : Site Event) (k k' : LineEnd) (output : Path) (ps : List Placed) :
    InStep output k k' ((s.withLineEnd k).writePages output ps)
      ((s.withLineEnd k').writePages output ps) := by
  induction ps with
  | nil => exact .pure ()
  | cons p ps ih => exact .bind (.writePage s k k' output p) fun _ => ih

theorem invoke (a : Feature.Active Event) (hook : Feature.Hook) :
    InStep output k k' (invoke a hook) (invoke a hook) := by
  intro r r' h
  rw [run_invoke, run_invoke]
  refine ⟨rfl, ?_, h.disks⟩
  rw [h.others]

theorem finish : InStep output k k' (finish : Run.Step Event Unit) finish := by
  refine .bind_get fun r r' h => ?_
  have hsame : r'.active = r.active ∧ r'.written = r.written := by
    rw [h.others]
    exact ⟨rfl, rfl⟩
  rw [hsame.1, hsame.2]
  cases r.active with
  | none => exact .pure ()
  | some a => exact .invoke a _

end InStep

/-- Runs with different line ends begin in the same state and go on side by side to the same result. -/
theorem generate_beside (s : Site Event) (k k' : LineEnd) (output : Path) (disk : Disk)
    (active : Option (Feature.Active Event)) :
    ((s.withLineEnd k').generate output disk active).1 =
        ((s.withLineEnd k).generate output disk active).1 ∧
      Beside output k k' ((s.withLineEnd k).generate output disk active).2
        ((s.withLineEnd k').generate output disk active).2 := by
  have hself (r : Run Event) : Beside output k k' r r := ⟨rfl, .inl rfl⟩
  have hsame := setUp_withLineEnd s k k' output
  rcases hs : ((s.withLineEnd k).setUp output).run { disk, active } with ⟨x, start⟩
  have hs' : ((s.withLineEnd k').setUp output).run { disk, active } = (x, start) := by
    rw [hsame, hs]
  cases x with
  | error f =>
    rw [generate_of_setUp_error hs, generate_of_setUp_error hs']
    exact ⟨rfl, hself start⟩
  | ok _ =>
    rw [generate_eq hs, generate_eq hs']
    refine InStep.bind (.writePages s k k' output s.model.pages) (fun _ => .bind .finish fun _ =>
      .bind_get fun r r' h => ?_) start start (hself start)
    have hwritten : r'.written = r.written := by rw [h.others]
    rw [hwritten]
    exact .bind (.report _) fun _ => .pure _

/-- The files hold texts that are the same up to their line ends. -/
def HoldSameLines (d d' : Disk) (f f' : Path) : Prop :=
  ∃ t t', d.read f = .ok t.toUTF8 ∧ d'.read f' = .ok t'.toUTF8 ∧ SameLines t t'

/-- A file that holds a page in one run holds the same lines in another run beside it. -/
theorem Beside.holdSameLines {r r' : Run Event} {f : Path} (h : Beside output k k' r r')
    (hf : HoldsPage (s.withLineEnd k) r.disk f) : HoldSameLines r.disk r'.disk f f := by
  obtain ⟨p, t, place, -, hl⟩ := hf
  have hread := read_eq_ok hl
  obtain hdisk | ⟨-, hlike⟩ := h.disks
  · exact ⟨_, _, hread, hdisk ▸ hread, rfl⟩
  · obtain ⟨e, -, hl'⟩ := hlike.alike.grows.locate_found hl
    have hat := (locate_eq_ok_iff.1 hl).2.at_found
    have hat' := (locate_eq_ok_iff.1 hl').2.at_found
    obtain hsame | ⟨u, hu, hu'⟩ := hlike.files place
    · have hfile := hsame.file hat
      rw [hat'] at hfile
      obtain rfl := Option.some.inj hfile
      exact ⟨_, _, hread, read_eq_ok hl', rfl⟩
    · rw [hat'] at hu'
      obtain rfl := Option.some.inj hu'
      rw [hat] at hu
      rw [Entry.file.inj (Option.some.inj hu)] at hread
      exact ⟨_, _, hread, read_eq_ok hl', sameLines_apply k k' u⟩

/-- Where pages are those that come first, a name stands for one of them. -/
theorem eq_of_fileName {ps done done' : List Placed} (hdone : done <+: ps) (hdone' : done' <+: ps)
    (hnames : (done.map fun p => p.place.fileName).Nodup)
    (hnames' : (done'.map fun p => p.place.fileName).Nodup) {p p' : Placed} (hp : p ∈ done)
    (hp' : p' ∈ done') (hname : p'.place.fileName = p.place.fileName) : p' = p := by
  obtain hle | hle := List.prefix_or_prefix_of_prefix hdone hdone'
  · exact List.inj_on_of_nodup_map hnames' hp' (hle.subset hp) hname
  · exact List.inj_on_of_nodup_map hnames (hle.subset hp') hp hname

/-- Pages of one name have the same lines after two runs, each into a folder that was emptied for it. -/
theorem holdSameLines_of_emptied {output' : Path} {disk disk' : Disk}
    {active active' : Option (Feature.Active Event)} {dir dir' : List String} {name : String}
    (hempty : EmptiesTo output disk dir) (hempty' : EmptiesTo output' disk' dir')
    (hname : output.child name ∈ ((s.withLineEnd k).generate output disk active).2.written)
    (hname' : output'.child name ∈ ((s.withLineEnd k').generate output' disk' active').2.written) :
    HoldSameLines ((s.withLineEnd k).generate output disk active).2.disk
      ((s.withLineEnd k').generate output' disk' active').2.disk (output.child name)
      (output'.child name) := by
  have child_inj (out : Path) {a b : String} (h : out.child a = out.child b) : a = b := by
    have hparts := congrArg Path.parts h
    simpa [Path.parts_child] using hparts
  obtain ⟨-, done, hdone, hnames, hwritten, hread⟩ :=
    (s.withLineEnd k).generate_pages_read output disk active
  obtain ⟨-, done', hdone', hnames', hwritten', hread'⟩ :=
    (s.withLineEnd k').generate_pages_read output' disk' active'
  rw [hwritten] at hname
  rw [hwritten'] at hname'
  obtain ⟨p, hp, hfile⟩ := List.mem_map.1 hname
  obtain ⟨p', hp', hfile'⟩ := List.mem_map.1 hname'
  have hsame : p'.place.fileName = p.place.fileName :=
    (child_inj output' hfile').trans (child_inj output hfile).symm
  -- in both runs the file of this name is the one of the same page
  obtain rfl := eq_of_fileName hdone hdone' hnames hnames' hp hp' hsame
  obtain ⟨t, ht, ht'⟩ := hread p' hp
  obtain ⟨u, hu, hu'⟩ := hread' p' hp'
  rw [pageText_withLineEnd] at ht hu
  rw [ht] at hu
  cases hu
  rw [hfile] at ht'
  rw [hfile'] at hu'
  exact ⟨_, _, ht' dir hempty, hu' dir' hempty', sameLines_apply k k' t⟩

/-- Written files have uniform line ends and all their lines. A text is written as UTF-8, as it becomes
when it is read once from the left and every line end is replaced by the chosen one, which is what
three replacements one after the other make of it. With pairs every carriage return and line feed is
part of one, with line feeds there are no carriage returns, and what has been written is written again
as it is. Two runs of one site with different line ends write the same files, with the same result and
the same lines in each. Files of one name also have the same lines where the runs begin with other
files or go elsewhere, each into a folder that is emptied for it. -/
theorem written_files_keep_their_lines (s : Site Event) (k k' : LineEnd) (output : Path) (disk : Disk)
    (active : Option (Feature.Active Event)) :
    let run := (s.withLineEnd k).generate output disk active
    let run' := (s.withLineEnd k').generate output disk active
    (∀ file text d d', (writeText k file text).run d = (.ok (), d') →
      ∃ content t, d'.read file = .ok content ∧ String.fromUTF8? content = some t ∧
        (∀ cs, Scanned k.chars text.toList cs ↔ cs = t.toList) ∧
        t.toList = replaceAll ['\n'] k.chars
          (replaceAll ['\r'] ['\n'] (replaceAll crlf.chars ['\n'] text.toList)) ∧
        (k = .crlf → ∀ before c after, t.toList = before ++ c :: after →
          (c = '\r' → after.head? = some '\n') ∧ (c = '\n' → before.getLast? = some '\r')) ∧
        (k = .lf → '\r' ∉ t.toList) ∧
        ∀ file' e e', (writeText k file' t).run e = (.ok (), e') → e'.read file' = .ok content) ∧
    run'.1 = run.1 ∧ run'.2.written = run.2.written ∧
    (∀ f ∈ run.2.written, HoldSameLines run.2.disk run'.2.disk f f) ∧
    ∀ output' disk' active' dir dir', EmptiesTo output disk dir → EmptiesTo output' disk' dir' →
      let other := (s.withLineEnd k').generate output' disk' active'
      ∀ name, output.child name ∈ run.2.written → output'.child name ∈ other.2.written →
        HoldSameLines run.2.disk other.2.disk (output.child name) (output'.child name) := by
  intro run run'
  obtain ⟨hends, hbeside⟩ := generate_beside s k k' output disk active
  have hwritten : run'.2.written = run.2.written := by
    rw [hbeside.others]
  refine ⟨fun file text d d' h => ?_, hends, hwritten, fun f hf => ?_, ?_⟩
  · obtain ⟨place, -, hl⟩ := writeText_ok h
    have hchars := toList_apply k text
    have hunified := return_notMem_unify text.toList
    refine ⟨_, k.apply text, read_eq_ok hl, fromUTF8_toUTF8 _, fun cs => ?_,
      toList_apply_eq_replaceAll k text, ?_, ?_, fun file' e e' he => ?_⟩
    · rw [hchars]
      exact scanned_iff
    · rintro rfl before c after hsplit
      rw [hchars] at hsplit
      exact pair_of_mem_crlf hunified hsplit
    · rintro rfl
      rw [hchars, expand_lf]
      exact hunified
    · obtain ⟨place', -, hl'⟩ := writeText_ok he
      rw [read_eq_ok hl', apply_apply]
  · exact hbeside.holdSameLines (((s.withLineEnd k).generate_pages_read output disk active).1 f hf)
  · intro output' disk' active' dir dir' hempty hempty' other name hname hname'
    exact holdSameLines_of_emptied hempty hempty' hname hname'

/-- The run over the plain site with the given line ends. -/
def plainRun (k : LineEnd) : Except Failure (List Path) × Run Unit :=
  (plainSite.withLineEnd k).generate plainOutput plainDisk none

/-- A carriage return before a pair is a line end of its own. A page of a small site has the same lines
with pairs and with line feeds. -/
theorem plain_site_keeps_its_lines :
    (∃ d content, (writeText .crlf (plainOutput.child "a.txt") "a\r\r\nb\n").run plainDisk =
        (.ok (), d) ∧ d.read (plainOutput.child "a.txt") = .ok content ∧
      String.fromUTF8? content = some "a\r\n\r\nb\r\n") ∧
    plainOutput.child "p.html" ∈ (plainRun .crlf).2.written ∧
    HoldSameLines (plainRun .crlf).2.disk (plainRun .lf).2.disk (plainOutput.child "p.html")
      (plainOutput.child "p.html") := by
  obtain ⟨hwrites, -, -, hfiles, -⟩ :=
    written_files_keep_their_lines plainSite .crlf .lf plainOutput plainDisk none
  let d := ((writeText .crlf (plainOutput.child "a.txt") "a\r\r\nb\n").run plainDisk).2
  have hrun : (writeText .crlf (plainOutput.child "a.txt") "a\r\r\nb\n").run plainDisk =
      (.ok (), d) :=
    Prod.ext (eq_ok_of_toOption (by decide +kernel)) rfl
  obtain ⟨content, t, hread, hdecoded, hscanned, -⟩ := hwrites _ _ _ _ hrun
  have ht : t = "a\r\n\r\nb\r\n" := by
    have hchars := (hscanned _).1 (scanned_iff.2 rfl)
    rw [← String.toList_inj, ← hchars]
    decide +kernel
  have hwritten : (plainRun .crlf).2.written = ["index.html", "p.html"].map plainOutput.child := by
    decide +kernel
  have hpage : plainOutput.child "p.html" ∈ (plainRun .crlf).2.written := by
    rw [hwritten]
    decide +kernel
  exact ⟨⟨d, content, hrun, hread, ht ▸ hdecoded⟩, hpage, hfiles _ hpage⟩

end RefSite.Site
