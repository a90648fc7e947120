import RefSite.Proofs.Computations
import RefSite.Site.Generate

namespace RefSite

/-- A plugin is not found, or it fails itself. -/
def Failure.IsPluginFault : Failure → Prop
  | plugin _ | relativeModule | pluginRaised _ => True
  | _ => False

theorem Feature.Effect.result_error {Event : Type} {e : Feature.Effect Event} {f : Failure}
    (h : e.result = .error f) : ∃ cause, f = .pluginRaised cause := by
  unfold result at h
  split at h
  · exact nomatch h
  · next cause _ => exact ⟨cause, (Except.error.inj h).symm⟩

namespace Site

variable {Event α β : Type} {r : Run Event}

theorem run_say (s : Site Event) (level : Log.Level) (message : String) (r : Run Event) :
    (s.say level message).run r =
      (.ok (), { r with log := r.log ++ [⟨s.origin, level, message⟩] }) := rfl

theorem run_logged (m : Logged α) (r : Run Event) :
    (logged m).run r = (m.result, { r with log := r.log ++ m.log }) := by
  obtain ⟨log, result⟩ := m
  cases result <;> rfl

theorem run_change_ok {m : Disk.Change Unit} {disk : Disk} (h : m.run r.disk = (.ok (), disk)) :
    (change m).run r = (.ok (), { r with disk }) := by
  unfold change
  rw [run_bind_ok (run_get r), h]
  rfl

theorem run_change_error {m : Disk.Change Unit} {disk : Disk} {f : FileFault}
    (h : m.run r.disk = (.error f, disk)) :
    (change m).run r = (.error (.file f), { r with disk }) := by
  unfold change
  rw [run_bind_ok (run_get r), h]
  rfl

theorem run_effect (e : Feature.Effect Event) (r : Run Event) :
    (effect e).run r = (e.result, { r with events := r.events ++ e.events }) := by
  unfold effect
  rw [run_bind_ok (run_modify _ r)]
  cases e.result <;> rfl

theorem run_invoke (a : Feature.Active Event) (h : Feature.Hook) (r : Run Event) :
    (invoke a h).run r = ((a.react h).result, { r with
      calls := r.calls ++ [⟨a.number, h, r.disk⟩]
      events := r.events ++ (a.react h).events }) := by
  unfold invoke
  rw [run_bind_ok (run_modify _ r)]
  exact run_effect _ _

/-- Where no feature is active, nobody is told that the pages are written. -/
theorem run_finish_of_none (h : r.active = none) : finish.run r = (.ok (), r) := by
  unfold finish
  rw [run_bind_ok (run_get r), h]
  rfl

/-- The step leaves as it is what the view shows of a run. -/
def Keeps {γ : Type} (view : Run Event → γ) (m : Run.Step Event α) : Prop :=
  ∀ r, view (m.run r).2 = view r

/-- The view shows nothing that plugins change: no reports or events, and no features or calls of
them. -/
structure IgnoresPlugins {γ : Type} (view : Run Event → γ) : Prop where
  log : ∀ r log, view { r with log } = view r
  events : ∀ r events, view { r with events } = view r
  active : ∀ r active, view { r with active } = view r
  made : ∀ r made, view { r with made } = view r
  calls : ∀ r calls, view { r with calls } = view r

/-- The view shows nothing that the writing of pages changes. -/
structure IgnoresPages {γ : Type} (view : Run Event → γ) : Prop where
  log : ∀ r log, view { r with log } = view r
  disk : ∀ r disk, view { r with disk } = view r
  owners : ∀ r owners, view { r with owners } = view r
  written : ∀ r written, view { r with written } = view r

namespace Keeps

variable {γ : Type} {view : Run Event → γ}

theorem pure (a : α) : Keeps view (pure a : Run.Step Event α) := fun _ => rfl

theorem get : Keeps view (get : Run.Step Event (Run Event)) := fun _ => rfl

theorem bind {m : Run.Step Event α} {f : α → Run.Step Event β} (hm : Keeps view m)
    (hf : ∀ a, Keeps view (f a)) : Keeps view (m >>= f) :=
  run_bind_rel (fun r r' => view r' = view r) (fun h h' => h'.trans h) hm hf

theorem change (hview : ∀ r disk, view { r with disk } = view r) (m : Disk.Change Unit) :
    Keeps view (change m) := by
  intro r
  rcases h : m.run r.disk with ⟨x, disk⟩
  cases x with
  | ok a =>
    rw [run_change_ok h]
    exact hview r disk
  | error f =>
    rw [run_change_error h]
    exact hview r disk

theorem say (hlog : ∀ r log, view { r with log } = view r) (s : Site Event) (level : Log.Level)
    (message : String) : Keeps view (s.say level message) := fun r => hlog r _

theorem logged (hlog : ∀ r log, view { r with log } = view r) (m : Logged α) :
    Keeps view (logged m) := by
  intro r
  rw [run_logged]
  exact hlog r _

theorem clear (hlog : ∀ r log, view { r with log } = view r)
    (hdisk : ∀ r disk, view { r with disk } = view r) (s : Site Event) (output : Path) :
    Keeps view (s.clear output) :=
  .bind (.say hlog _ _ _) fun _ => .bind (.change hdisk _) fun _ =>
    .bind (.change hdisk _) fun _ => .say hlog _ _ _

theorem writePage (hview : IgnoresPages view) (s : Site Event) (output : Path) (p : Placed) :
    Keeps view (s.writePage output p) := by
  refine .bind (.logged hview.log _) fun text => .bind .get fun r => ?_
  cases r.owners.lookup p.place.fileName with
  | some owner => exact fun r => rfl
  | none =>
    exact .bind (fun r => hview.owners r _) fun _ => .bind (.change hview.disk _) fun _ =>
      .bind (fun r => hview.written r _) fun _ => .say hview.log _ _ _

theorem writePages (hview : IgnoresPages view) (s : Site Event) (output : Path)
    (ps : List Placed) : Keeps view (s.writePages output ps) := by
  induction ps with
  | nil => exact .pure ()
  | cons p ps ih => exact .bind (.writePage hview s output p) fun _ => ih

variable (hview : IgnoresPlugins view)

include hview

theorem effect (e : Feature.Effect Event) : Keeps view (effect e) := by
  intro r
  rw [run_effect]
  exact hview.events r _

theorem invoke (a : Feature.Active Event) (h : Feature.Hook) : Keeps view (invoke a h) :=
  .bind (fun r => hview.calls r _) fun _ => .effect hview _

theorem make (context : Feature.Context) (p : PluginName) (f : Feature Event) :
    Keeps view (make context p f) :=
  .bind .get fun _ => .bind (fun r => hview.made r _) fun _ =>
    .bind (.invoke hview _ _) fun _ => .pure _

theorem activate (s : Site Event) (context : Feature.Context) (p : PluginName)
    (f : Feature Event) : Keeps view (s.activate context p f) := by
  have rest : Keeps view (do
      let a ← Site.make context p f
      Site.invoke a .initialized
      modify fun r => { r with active := some a }
      s.say .info ("Loaded plugin feature " ++ p.module ++ "." ++ p.feature)) :=
    .bind (.make hview _ _ _) fun _ => .bind (.invoke hview _ _) fun _ =>
      .bind (fun r => hview.active r _) fun _ => .say hview.log _ _ _
  refine .bind .get fun r => ?_
  cases r.active with
  | none => exact rest
  | some old => exact .bind (.say hview.log _ _ _) fun _ => rest

theorem loadPlugin (s : Site Event) (context : Feature.Context) (p : PluginName) :
    Keeps view (s.loadPlugin context p) := by
  unfold Site.loadPlugin
  split
  · exact .activate hview s context p _
  · exact fun r => rfl

theorem loadPlugins (s : Site Event) (context : Feature.Context) (ps : List PluginName) :
    Keeps view (s.loadPlugins context ps) := by
  induction ps with
  | nil => exact .pure ()
  | cons p ps ih => exact .bind (.loadPlugin hview s context p) fun _ => ih

theorem prepare (s : Site Event) (output : Path) : Keeps view (s.prepare output) := by
  unfold Site.prepare
  split
  · exact .pure ()
  · exact .loadPlugins hview s _ _

theorem finish : Keeps view finish := by
  refine .bind .get fun r => ?_
  cases r.active with
  | none => exact .pure ()
  | some a => exact .invoke hview a _

end Keeps

variable {s : Site Event} {output : Path} {r' : Run Event} {f : Failure}

/-- Loading the plugins writes nothing. -/
theorem disk_prepare (s : Site Event) (output : Path) (r : Run Event) :
    ((s.prepare output).run r).2.disk = r.disk :=
  Keeps.prepare ⟨fun _ _ => rfl, fun _ _ => rfl, fun _ _ => rfl, fun _ _ => rfl, fun _ _ => rfl⟩
    s output r

theorem change_ok {m : Disk.Change Unit} (h : (change m).run r = (.ok (), r')) :
    m.run r.disk = (.ok (), r'.disk) := by
  rcases hm : m.run r.disk with ⟨x, disk⟩
  cases x with
  | ok a =>
    rw [run_change_ok hm] at h
    cases h
    rfl
  | error g =>
    rw [run_change_error hm] at h
    exact nomatch h

theorem change_error {m : Disk.Change Unit} (h : (change m).run r = (.error f, r')) :
    ∃ g, f = .file g := by
  rcases hm : m.run r.disk with ⟨x, disk⟩
  cases x with
  | ok a =>
    rw [run_change_ok hm] at h
    exact nomatch h
  | error g =>
    rw [run_change_error hm] at h
    cases h
    exact ⟨g, rfl⟩

theorem module_error {registry : Registry Event} {name : String}
    (h : registry.module name = .error f) : f.IsPluginFault := by
  unfold Registry.module at h
  split at h
  · cases h
    trivial
  · split at h
    · exact nomatch h
    all_goals
      cases h
      trivial

theorem feature_error {registry : Registry Event} {p : PluginName}
    (h : registry.feature p = .error f) : f.IsPluginFault := by
  unfold Registry.feature at h
  cases hm : registry.module p.module with
  | error g =>
    rw [hm] at h
    cases h
    exact module_error hm
  | ok m =>
    rw [hm] at h
    cases hf : m.features.lookup p.feature with
    | some g =>
      simp only [bind, Except.bind, hf] at h
      exact nomatch h
    | none =>
      simp only [bind, Except.bind, hf] at h
      cases h
      trivial

/-- The step fails with nothing but what is allowed. -/
def FailsOnlyWith (allowed : Failure → Prop) (m : Run.Step Event α) : Prop :=
  ∀ r f r', m.run r = (.error f, r') → allowed f

namespace FailsOnlyWith

variable {allowed : Failure → Prop}

theorem pure (a : α) : FailsOnlyWith allowed (pure a : Run.Step Event α) := fun _ _ _ h => nomatch h

theorem get : FailsOnlyWith allowed (get : Run.Step Event (Run Event)) := fun _ _ _ h => nomatch h

theorem say (s : Site Event) (level : Log.Level) (message : String) :
    FailsOnlyWith allowed (s.say level message) := fun _ _ _ h => nomatch h

theorem bind {m : Run.Step Event α} {g : α → Run.Step Event β} (hm : FailsOnlyWith allowed m)
    (hg : ∀ a, FailsOnlyWith allowed (g a)) : FailsOnlyWith allowed (m >>= g) := by
  intro r f r' h
  obtain h | ⟨a, r₁, -, h⟩ := bind_eq_error h
  · exact hm r f r' h
  · exact hg a r₁ f r' h

theorem effect (e : Feature.Effect Event) : FailsOnlyWith Failure.IsPluginFault (effect e) := by
  intro r f r' h
  rw [run_effect] at h
  obtain ⟨cause, rfl⟩ := Feature.Effect.result_error (congrArg Prod.fst h)
  trivial

theorem invoke (a : Feature.Active Event) (h : Feature.Hook) :
    FailsOnlyWith Failure.IsPluginFault (invoke a h) :=
  .bind (fun _ _ _ h => nomatch h) fun _ => .effect _

theorem make (context : Feature.Context) (p : PluginName) (f : Feature Event) :
    FailsOnlyWith Failure.IsPluginFault (make context p f) :=
  .bind .get fun _ => .bind (fun _ _ _ h => nomatch h) fun _ =>
    .bind (.invoke _ _) fun _ => .pure _

theorem activate (s : Site Event) (context : Feature.Context) (p : PluginName)
    (f : Feature Event) : FailsOnlyWith Failure.IsPluginFault (s.activate context p f) := by
  have rest : FailsOnlyWith Failure.IsPluginFault (do
      let a ← Site.make context p f
      Site.invoke a .initialized
      modify fun r => { r with active := some a }
      s.say .info ("Loaded plugin feature " ++ p.module ++ "." ++ p.feature)) :=
    .bind (.make _ _ _) fun _ => .bind (.invoke _ _) fun _ =>
      .bind (fun _ _ _ h => nomatch h) fun _ => .say s _ _
  refine .bind .get fun r => ?_
  cases r.active with
  | none => exact rest
  | some old => exact .bind (.say s _ _) fun _ => rest

theorem loadPlugin (s : Site Event) (context : Feature.Context) (p : PluginName) :
    FailsOnlyWith Failure.IsPluginFault (s.loadPlugin context p) := by
  unfold Site.loadPlugin
  cases hf : s.registry.feature p with
  | error e =>
    intro r f r' h
    cases h
    exact feature_error hf
  | ok g => exact .activate s context p g

/-- Loading the plugins fails only at a plugin. -/
theorem prepare (s : Site Event) (output : Path) :
    FailsOnlyWith Failure.IsPluginFault (s.prepare output) := by
  have all (context : Feature.Context) (ps : List PluginName) :
      FailsOnlyWith Failure.IsPluginFault (s.loadPlugins context ps) := by
    induction ps with
    | nil => exact .pure ()
    | cons p ps ih => exact .bind (.loadPlugin s context p) fun _ => ih
  unfold Site.prepare
  split
  · exact .pure ()
  · exact all _ _

end FailsOnlyWith

/-- Clearing the output folder can only fail at a file. -/
theorem clear_error (h : (s.clear output).run r = (.error f, r')) : ∃ g, f = .file g := by
  obtain h | ⟨_, r₁, -, h⟩ := bind_eq_error h
  · exact nomatch h
  obtain h | ⟨_, r₂, -, h⟩ := bind_eq_error h
  · exact change_error h
  obtain h | ⟨_, r₃, -, h⟩ := bind_eq_error h
  · exact change_error h
  · exact nomatch h

end Site

end RefSite
