import Mathlib.Data.List.Nodup
import RefSite.Proofs.Site.Steps

namespace RefSite.Site

variable {Event : Type} {s : Site Event} {output : Path} {p : Placed} {ps : List Placed}
  {r r' : Run Event}

/-- What an item's page says. -/
def pageText (s : Site Event) (p : Placed) : Logged String :=
  Page.text s.origin s.config s.model.place p

/-- The file that an item's page is written to. -/
def pageFile (output : Path) (p : Placed) : Path := output.child p.place.fileName

/-- The page of an item was written: how the run was before and how it is after. -/
structure Wrote (s : Site Event) (output : Path) (p : Placed) (r r' : Run Event) : Prop where
  fresh : r.owners.lookup p.place.fileName = none
  text : ∃ t, (s.pageText p).result = .ok t ∧
    (Disk.writeText s.config.lineEnd (pageFile output p) t).run r.disk = (.ok (), r'.disk)
  owners : r'.owners = (p.place.fileName, p.place) :: r.owners
  written : r'.written = r.written ++ [pageFile output p]
  active : r'.active = r.active

/-- The page of an item was refused in a state of the run, with a failure and what it left. -/
inductive Refused (s : Site Event) (output : Path) (p : Placed) (r : Run Event) :
    Failure → Disk → Prop where
  | unbuilt {f : Failure} (h : (s.pageText p).result = .error f) : Refused s output p r f r.disk
  | shared {t : String} {owner : Place} (ht : (s.pageText p).result = .ok t)
      (h : r.owners.lookup p.place.fileName = some owner) :
      Refused s output p r
        (.sharedFile p.place.fileName owner.description p.place.description) r.disk
  | unwritten {t : String} {f : FileFault} {disk : Disk} (ht : (s.pageText p).result = .ok t)
      (hfresh : r.owners.lookup p.place.fileName = none)
      (h : (Disk.writeText s.config.lineEnd (pageFile output p) t).run r.disk =
        (.error f, disk)) : Refused s output p r (.file f) disk

/-- The three ways for a page to be refused are the only ones for it not to be written. -/
theorem writePage_cases (s : Site Event) (output : Path) (p : Placed) (r : Run Event) :
    (∃ r', (s.writePage output p).run r = (.ok (), r') ∧ Wrote s output p r r') ∨
    ∃ f r', (s.writePage output p).run r = (.error f, r') ∧ Refused s output p r f r'.disk ∧
      r'.written = r.written := by
  have hl := run_logged (s.pageText p) r
  unfold pageText at hl
  unfold writePage
  cases ht : (s.pageText p).result with
  | error f =>
    unfold pageText at ht
    rw [ht] at hl
    exact .inr ⟨f, _, run_bind_error hl _, .unbuilt ht, rfl⟩
  | ok t =>
    unfold pageText at ht
    rw [ht] at hl
    rw [run_bind_ok hl]
    dsimp only
    rw [run_bind_ok (run_get _)]
    dsimp only
    cases ho : r.owners.lookup p.place.fileName with
    | some owner => exact .inr ⟨_, _, rfl, .shared ht ho, rfl⟩
    | none =>
      dsimp only
      rw [run_bind_ok (run_modify _ _)]
      -- the page has its name from here on, even if its file cannot be written
      let file := pageFile output p
      let begun : Run Event :=
        { r with log := r.log ++ (s.pageText p).log, owners := (p.place.fileName, p.place) :: r.owners }
      rcases hw : (Disk.writeText s.config.lineEnd file t).run begun.disk with ⟨x, disk⟩
      cases x with
      | error f =>
        exact .inr ⟨.file f, _, run_bind_error (run_change_error hw) _, .unwritten ht ho hw, rfl⟩
      | ok =>
        let after : Run Event :=
          { begun with
            disk
            written := r.written ++ [file]
            log := begun.log ++ [⟨s.origin, .debug, "Wrote " ++ file.text⟩] }
        have hc : (change (Disk.writeText s.config.lineEnd file t)).run begun =
            (.ok (), { begun with disk }) := run_change_ok hw
        exact .inl ⟨after, run_bind_ok hc _, ho, ⟨t, ht, hw⟩, rfl, rfl, rfl⟩

/-- The pages of items were written one after another. -/
inductive WroteAll (s : Site Event) (output : Path) : List Placed → Run Event → Run Event → Prop where
  | nil (r : Run Event) : WroteAll s output [] r r
  | cons {p : Placed} {ps : List Placed} {r r₁ r₂ : Run Event} (hp : Wrote s output p r r₁)
      (hps : WroteAll s output ps r₁ r₂) : WroteAll s output (p :: ps) r r₂

/-- Writing pages stops at the first page that is refused. -/
theorem writePages_cases (s : Site Event) (output : Path) (ps : List Placed) (r : Run Event) :
    (∃ r', (s.writePages output ps).run r = (.ok (), r') ∧ WroteAll s output ps r r') ∨
    ∃ done p rest f r₁ r', ps = done ++ p :: rest ∧ WroteAll s output done r r₁ ∧
      (s.writePages output ps).run r = (.error f, r') ∧ Refused s output p r₁ f r'.disk ∧
      r'.written = r₁.written := by
  induction ps generalizing r with
  | nil => exact .inl ⟨r, rfl, .nil r⟩
  | cons p ps ih =>
    -- the first page is written and the others follow, or nothing comes after it
    obtain ⟨r₁, hrun, hp⟩ | ⟨f, r₁, hrun, hp, hw⟩ := writePage_cases s output p r
    · obtain ⟨r₂, hps, hall⟩ | ⟨done, q, rest, f, r₂, r₃, he, hdone, hps, hq, hw⟩ := ih r₁
      · exact .inl ⟨r₂, (run_bind_ok hrun _).trans hps, .cons hp hall⟩
      · exact .inr ⟨p :: done, q, rest, f, r₂, r₃, by rw [he]; rfl, .cons hp hdone,
          (run_bind_ok hrun _).trans hps, hq, hw⟩
    · exact .inr ⟨[], p, ps, f, r, r₁, rfl, .nil r, run_bind_error hrun _, hp, hw⟩

namespace WroteAll

theorem written (h : WroteAll s output ps r r') :
    r'.written = r.written ++ ps.map (pageFile output) := by
  induction h with
  | nil r => simp
  | cons hp _ ih => rw [ih, hp.written, List.map_cons, List.append_assoc]; rfl

theorem active (h : WroteAll s output ps r r') : r'.active = r.active := by
  induction h with
  | nil r => rfl
  | cons hp _ ih => rw [ih, hp.active]

/-- The last page that was begun comes first among the owners. -/
theorem owners (h : WroteAll s output ps r r') :
    r'.owners = (ps.map fun p => (p.place.fileName, p.place)).reverse ++ r.owners := by
  induction h with
  | nil r => rfl
  | cons hp _ ih => rw [ih, hp.owners, List.map_cons, List.reverse_cons, List.append_assoc]; rfl

/-- Every page that was written could be built. -/
theorem text (h : WroteAll s output ps r r') : ∀ p ∈ ps, ∃ t, (s.pageText p).result = .ok t := by
  induction h with
  | nil r => intro p hp; exact nomatch hp
  | cons hq _ ih =>
    intro p hp
    obtain rfl | hp := List.mem_cons.1 hp
    · obtain ⟨t, ht, -⟩ := hq.text
      exact ⟨t, ht⟩
    · exact ih p hp

theorem nodup_owners (h : WroteAll s output ps r r') (hr : (r.owners.map Prod.fst).Nodup) :
    (r'.owners.map Prod.fst).Nodup := by
  induction h with
  | nil r => exact hr
  | cons hp _ ih =>
    apply ih
    rw [hp.owners, List.map_cons, List.nodup_cons]
    refine ⟨?_, hr⟩
    intro hmem
    obtain ⟨⟨name, owner⟩, ho, rfl⟩ := List.mem_map.1 hmem
    exact absurd rfl (bne_iff_ne.1 (List.lookup_eq_none_iff.1 hp.fresh _ ho))

/-- Pages that are written from the start of a run have files of their own. -/
theorem nodup (h : WroteAll s output ps r r') (hr : r.owners = []) :
    (ps.map fun p => p.place.fileName).Nodup := by
  have hn := h.nodup_owners (by rw [hr]; exact List.nodup_nil)
  rw [h.owners, hr, List.append_nil, List.map_reverse, List.map_map] at hn
  exact List.nodup_reverse.1 hn

end WroteAll

/-- Everything that comes before the first page. -/
def setUp (s : Site Event) (output : Path) : Run.Step Event Unit := do
  s.prepare output
  s.clear output

/-- What the last hook means for a run; without a feature there is nothing that could fail. -/
def hookResult (r : Run Event) : Except Failure Unit :=
  match r.active with
  | none => .ok ()
  | some a => (a.feature.onFinished a.context r.written).result

theorem hookResult_error {f : Failure} (h : hookResult r = .error f) :
    ∃ cause, f = .pluginRaised cause := by
  unfold hookResult at h
  split at h
  · exact nomatch h
  · exact Feature.Effect.result_error h

/-- The last hook leaves everything as it is but for the events and the calls. -/
theorem run_finish (r : Run Event) :
    ∃ events calls, finish.run r = (hookResult r, { r with events, calls }) := by
  obtain ⟨disk, active, log, events, written, owners, made, calls, earlier⟩ := r
  unfold finish hookResult
  rw [run_bind_ok (run_get _)]
  cases active with
  | none => exact ⟨events, calls, rfl⟩
  | some a => exact ⟨_, _, run_invoke _ _ _⟩

variable {disk : Disk} {active : Option (Feature.Active Event)} {start : Run Event}

/-- What is left of a run when everything is set up. -/
theorem generate_eq (h : (s.setUp output).run { disk, active } = (.ok (), start)) :
    s.generate output disk active = (do
      s.writePages output s.model.pages
      finish
      let written := (← get).written
      s.say .info ("Generated " ++ toString written.length ++ " HTML pages into: " ++ output.text)
      return written : Run.Step Event (List Path)).run start := by
  obtain ⟨_, r₁, hp, hc⟩ := bind_eq_ok h
  unfold generate run
  rw [run_bind_ok hp, run_bind_ok hc]

/-- A run that could not be set up is over. -/
theorem generate_of_setUp_error {f : Failure}
    (h : (s.setUp output).run { disk, active } = (.error f, start)) :
    s.generate output disk active = (.error f, start) := by
  obtain hp | ⟨_, r₁, hp, hc⟩ := bind_eq_error h
  · exact run_bind_error hp _
  · exact (run_bind_ok hp _).trans (run_bind_error hc _)

/-- A run that has been set up writes all pages and is then judged by the last hook, or it stops at
the first page that is refused. -/
theorem generate_cases (h : (s.setUp output).run { disk, active } = (.ok (), start)) :
    (∃ r₁ r, WroteAll s output s.model.pages start r₁ ∧ r.written = r₁.written ∧
      r.disk = r₁.disk ∧ s.generate output disk active =
        ((hookResult r₁).map fun _ => r₁.written, r)) ∨
    ∃ done p rest f r₁ r, s.model.pages = done ++ p :: rest ∧ WroteAll s output done start r₁ ∧
      Refused s output p r₁ f r.disk ∧ r.written = r₁.written ∧
      s.generate output disk active = (.error f, r) := by
  rw [generate_eq h]
  obtain ⟨r₁, hrun, hall⟩ | ⟨done, p, rest, f, r₁, r, he, hdone, hrun, hp, hw⟩ :=
    writePages_cases s output s.model.pages start
  · -- all pages are written, and the last hook decides how the run ends
    obtain ⟨events, calls, hf⟩ := run_finish r₁
    refine .inl ⟨r₁, ?_⟩
    rw [run_bind_ok hrun]
    cases hh : hookResult r₁ with
    | error f =>
      rw [hh] at hf
      exact ⟨{ r₁ with events, calls }, hall, rfl, rfl, run_bind_error hf _⟩
    | ok _ =>
      rw [hh] at hf
      let entry : Log.Entry := ⟨s.origin, .info, some ("Generated " ++
        toString r₁.written.length ++ " HTML pages into: " ++ output.text)⟩
      exact ⟨{ r₁ with events, calls, log := r₁.log ++ [entry] }, hall, rfl, rfl,
        run_bind_ok hf _⟩
  · exact .inr ⟨done, p, rest, f, r₁, r, he, hdone, hp, hw, run_bind_error hrun _⟩

/-- No page is begun while a run is set up: neither plugins nor the style sheet touch what the pages
are counted by. -/
theorem keeps_setUp (s : Site Event) (output : Path) :
    Keeps (fun r => (r.written, r.owners)) (s.setUp output) := by
  have hview : IgnoresPlugins fun r : Run Event => (r.written, r.owners) :=
    ⟨fun _ _ => rfl, fun _ _ => rfl, fun _ _ => rfl, fun _ _ => rfl, fun _ _ => rfl⟩
  exact .bind (.prepare hview s output) fun _ => .clear hview.log (fun _ _ => rfl) s output

theorem setUp_keeps_pages {begun : Run Event}
    (h : (s.setUp output).run begun = (.ok (), start)) :
    start.written = begun.written ∧ start.owners = begun.owners := by
  have hk := keeps_setUp s output begun
  rw [h] at hk
  exact Prod.mk.inj hk

theorem setUp_pages (h : (s.setUp output).run { disk, active } = (.ok (), start)) :
    start.written = [] ∧ start.owners = [] := setUp_keeps_pages h

/-- A run that ends well was set up and wrote all pages, and nothing has changed since in the file
system. -/
theorem generate_wrote {files : List Path} {r : Run Event}
    (h : s.generate output disk active = (.ok files, r)) :
    ∃ start r₁, (s.setUp output).run { disk, active } = (.ok (), start) ∧
      WroteAll s output s.model.pages start r₁ ∧ files = r₁.written ∧ r.disk = r₁.disk := by
  obtain ⟨_, r₁, hp, h'⟩ := bind_eq_ok h
  obtain ⟨_, start, hc, -⟩ := bind_eq_ok h'
  have hs : (s.setUp output).run { disk, active } = (.ok (), start) := (run_bind_ok hp _).trans hc
  refine ⟨start, ?_⟩
  obtain ⟨r₂, r', hall, -, hd, hg⟩ | ⟨done, p, rest, f, r₂, r', -, -, -, -, hg⟩ := generate_cases hs
  · rw [h] at hg
    cases hh : hookResult r₂ with
    | error f => rw [hh] at hg; exact nomatch hg
    | ok _ =>
      rw [hh] at hg
      cases hg
      exact ⟨r₂, hs, hall, rfl, hd⟩
  · rw [h] at hg
    exact nomatch hg

theorem generate_ok {files : List Path} {r : Run Event}
    (h : s.generate output disk active = (.ok files, r)) :
    ∃ start r₁, (s.setUp output).run { disk, active } = (.ok (), start) ∧
      WroteAll s output s.model.pages start r₁ ∧ files = r₁.written := by
  obtain ⟨start, r₁, hs, hall, hfiles, -⟩ := generate_wrote h
  exact ⟨start, r₁, hs, hall, hfiles⟩

/-- The files of a run that ends well are those of all pages. -/
theorem generate_files {files : List Path} {r : Run Event}
    (h : s.generate output disk active = (.ok files, r)) :
    files = s.model.pages.map (pageFile output) := by
  obtain ⟨start, r₁, hs, hall, hfiles⟩ := generate_ok h
  rw [hfiles, hall.written, (setUp_pages hs).1, List.nil_append]

/-- Whatever becomes of a run, it has written the pages that come first, and these could be built. -/
theorem generate_written (s : Site Event) (output : Path) (disk : Disk)
    (active : Option (Feature.Active Event)) : ∃ done rest, s.model.pages = done ++ rest ∧
      (s.generate output disk active).2.written = done.map (pageFile output) ∧
      ∀ p ∈ done, ∃ t, (s.pageText p).result = .ok t := by
  let begun : Run Event := { disk, active }
  rcases hs : (s.setUp output).run begun with ⟨x, start⟩
  cases x with
  | error f =>
    -- nothing is written before everything is set up
    have hk := keeps_setUp s output begun
    rw [hs] at hk
    rw [generate_of_setUp_error hs]
    exact ⟨[], s.model.pages, rfl, (Prod.mk.inj hk).1, fun p hp => nomatch hp⟩
  | ok _ =>
    have hwritten := (setUp_pages hs).1
    obtain ⟨r₁, r, hall, hw, -, hg⟩ | ⟨done, p, rest, f, r₁, r, he, hall, -, hw, hg⟩ :=
      generate_cases hs
    · rw [hg]
      refine ⟨s.model.pages, [], (List.append_nil _).symm, ?_, hall.text⟩
      exact hw.trans (by rw [hall.written, hwritten, List.nil_append])
    · rw [hg]
      refine ⟨done, p :: rest, he, ?_, hall.text⟩
      exact hw.trans (by rw [hall.written, hwritten, List.nil_append])

/-- A run that fails does so while its plugins are loaded, at a file, at a page that is refused, or in
the last hook. -/
theorem generate_failed {f : Failure} {r : Run Event}
    (h : s.generate output disk active = (.error f, r)) :
    (s.prepare output).run { disk, active } = (.error f, r) ∨ (∃ g, f = .file g) ∨
      (∃ cause, f = .pluginRaised cause) ∨
        ∃ p ∈ s.model.pages, ∃ r₁ d, Refused s output p r₁ f d := by
  obtain hp | ⟨_, r₁, hp, h'⟩ := bind_eq_error h
  · exact .inl hp
  right
  obtain hc | ⟨_, start, hc, -⟩ := bind_eq_error h'
  · exact .inl (clear_error hc)
  right
  -- everything is set up, so it is a page or the last hook that fails
  have hs : (s.setUp output).run { disk, active } = (.ok (), start) := (run_bind_ok hp _).trans hc
  obtain ⟨r₂, r', -, -, -, hg⟩ | ⟨done, p, rest, g, r₂, r', he, -, hp, -, hg⟩ := generate_cases hs
  · rw [h] at hg
    cases hh : hookResult r₂ with
    | error g =>
      rw [hh] at hg
      cases hg
      exact .inl (hookResult_error hh)
    | ok _ =>
      rw [hh] at hg
      exact nomatch hg
  · rw [h] at hg
    cases hg
    have hmem : p ∈ s.model.pages := by
      rw [he]
      exact List.mem_append_right _ List.mem_cons_self
    exact .inr ⟨p, hmem, r₂, _, hp⟩

end RefSite.Site
