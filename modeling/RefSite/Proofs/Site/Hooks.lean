import RefSite.Proofs.Site.Reruns

/-! When features are called. A run makes the features of its plugins one after another, before it
touches a file, and tells the last of them at its end that all pages are written; a feature of a run
before is never called again. -/
namespace RefSite

/-- A feature can be made, and its hooks come to their end. -/
structure Feature.Returns {Event : Type} (f : Feature Event) : Prop where
  onCreated : ∀ context, (f.onCreated context).failure? = none
  onInitialized : ∀ context, (f.onInitialized context).failure? = none
  onFinished : ∀ context written, (f.onFinished context written).failure? = none

theorem Feature.Returns.react {Event : Type} {a : Feature.Active Event} (h : a.feature.Returns)
    (hook : Feature.Hook) : (a.react hook).failure? = none := by
  cases hook with
  | created _ => exact h.onCreated a.context
  | initialized => exact h.onInitialized a.context
  | finished written => exact h.onFinished a.context written

namespace Registry

variable {Event : Type} {registry : Registry Event} {p : PluginName}

/-- What plugins are taken to keep to: their modules are there or cannot be imported, which no other
failure comes of, and their features return from every call. -/
structure Cooperates (registry : Registry Event) (ps : List PluginName) : Prop where
  module : ∀ p ∈ ps, ∀ e, registry.module p.module = .error e →
    ∃ cause, e = .plugin (.importFailed p.module cause)
  returns : ∀ p ∈ ps, ∀ f, registry.feature p = .ok f → f.Returns

/-- The module of a plugin cannot be imported, or has no feature of the plugin's name. -/
inductive Lacks (registry : Registry Event) (p : PluginName) : PluginFault → Prop where
  | module {cause : ImportFault}
      (h : registry.module p.module = .error (.plugin (.importFailed p.module cause))) :
      Lacks registry p (.importFailed p.module cause)
  | feature {m : PluginModule Event} (hm : registry.module p.module = .ok m)
      (h : m.features.lookup p.feature = none) :
      Lacks registry p (.notFeature p.module p.feature)

/-- A plugin whose module can be sought has a feature, or it is clear what it lacks. -/
theorem feature_cases (h : ∀ e, registry.module p.module = .error e →
    ∃ cause, e = .plugin (.importFailed p.module cause)) :
    (∃ f, registry.feature p = .ok f) ∨
      ∃ fault, registry.feature p = .error (.plugin fault) ∧ registry.Lacks p fault := by
  unfold feature
  cases hm : registry.module p.module with
  | ok m =>
    cases hf : m.features.lookup p.feature with
    | some f => exact .inl ⟨f, by simp only [bind, Except.bind, hf]; rfl⟩
    | none => exact .inr ⟨_, by simp only [bind, Except.bind, hf]; rfl, .feature hm hf⟩
  | error e =>
    obtain ⟨cause, rfl⟩ := h e hm
    exact .inr ⟨_, rfl, .module hm⟩

end Registry

namespace Site

open Registry

variable {Event : Type} {s : Site Event} {context : Feature.Context} {p : PluginName}
  {f : Feature Event} {ps : List PluginName}

/-- The calls by which the features of plugins are made and run their first hooks, one after
another. They get consecutive numbers. -/
def startCalls (disk : Disk) : Nat → List PluginName → List Feature.Call
  | _, [] => []
  | n, p :: ps => ⟨n, .created p, disk⟩ :: ⟨n, .initialized, disk⟩ :: startCalls disk (n + 1) ps

theorem startCalls_concat (disk : Disk) (n : Nat) (ps : List PluginName) (p : PluginName) :
    startCalls disk n (ps ++ [p]) = startCalls disk n ps ++
      [⟨n + ps.length, .created p, disk⟩, ⟨n + ps.length, .initialized, disk⟩] := by
  induction ps generalizing n with
  | nil => rfl
  | cons q ps ih =>
    rw [List.cons_append, startCalls, ih, List.length_cons, Nat.add_right_comm]
    rfl

theorem lt_of_mem_startCalls {disk : Disk} {n : Nat} {call : Feature.Call}
    (h : call ∈ startCalls disk n ps) : call.number < n + ps.length := by
  induction ps generalizing n with
  | nil => exact nomatch h
  | cons p ps ih =>
    rw [List.length_cons]
    obtain rfl | h := List.mem_cons.1 h
    · exact Nat.lt_add_of_pos_right (Nat.succ_pos _)
    obtain rfl | h := List.mem_cons.1 h
    · exact Nat.lt_add_of_pos_right (Nat.succ_pos _)
    · have hlt := ih h
      omega

theorem run_invoke_ok {a : Feature.Active Event} (ha : a.feature.Returns) (h : Feature.Hook)
    (r : Run Event) : (invoke a h).run r = (.ok (), { r with
      calls := r.calls ++ [⟨a.number, h, r.disk⟩]
      events := r.events ++ (a.react h).events }) := by
  rw [run_invoke, Feature.Effect.result, ha.react h]

theorem run_make (hf : f.Returns) (context : Feature.Context) (p : PluginName) (r : Run Event) :
    (make context p f).run r = (.ok ⟨f, context, r.made⟩, { r with
      made := r.made + 1
      calls := r.calls ++ [⟨r.made, .created p, r.disk⟩]
      events := r.events ++ (f.onCreated context).events }) := by
  let a : Feature.Active Event := ⟨f, context, r.made⟩
  unfold make
  rw [run_bind_ok (run_get r), run_bind_ok (run_modify _ r),
    run_bind_ok (run_invoke_ok (a := a) hf _ _)]
  rfl

theorem run_finish_of_returns {a : Feature.Active Event} {r : Run Event} (ha : r.active = some a)
    (hf : a.feature.Returns) : finish.run r = (.ok (), { r with
      calls := r.calls ++ [⟨a.number, .finished r.written, r.disk⟩]
      events := r.events ++ (a.react (.finished r.written)).events }) := by
  have hfinish : finish.run r = (invoke a (.finished r.written)).run r := by
    unfold finish
    rw [run_bind_ok (run_get r), ha]
  exact hfinish.trans (run_invoke_ok hf _ r)

/-- A plugin's feature is made and initialized, and takes the place of the one before it. -/
theorem run_activate (hf : f.Returns) (s : Site Event) (context : Feature.Context)
    (p : PluginName) (r : Run Event) :
    ∃ log events, (s.activate context p f).run r = (.ok (), { r with
      log
      events
      active := some ⟨f, context, r.made⟩
      made := r.made + 1
      calls := r.calls ++ startCalls r.disk r.made [p] }) := by
  let a : Feature.Active Event := ⟨f, context, r.made⟩
  have hcalls : r.calls ++ [⟨r.made, .created p, r.disk⟩] ++ [⟨r.made, .initialized, r.disk⟩] =
      r.calls ++ startCalls r.disk r.made [p] := List.append_assoc _ _ _
  unfold activate
  rw [run_bind_ok (run_get r), ← hcalls]
  cases r.active with
  | none =>
    dsimp only
    rw [run_bind_ok (run_make hf context p r), run_bind_ok (run_invoke_ok (a := a) hf _ _)]
    exact ⟨_, _, rfl⟩
  | some old =>
    dsimp only
    rw [run_bind_ok (run_say s _ _ r), run_bind_ok (run_make hf context p _),
      run_bind_ok (run_invoke_ok (a := a) hf _ _)]
    exact ⟨_, _, rfl⟩

/-- What the loading of plugins leaves in a run when their features are all there. -/
structure Loaded (registry : Registry Event) (ps : List PluginName) (r r' : Run Event) : Prop where
  found : ∀ p ∈ ps, ∃ f, registry.feature p = .ok f
  disk : r'.disk = r.disk
  made : r'.made = r.made + ps.length
  calls : r'.calls = r.calls ++ startCalls r.disk r.made ps
  idle : ps = [] → r'.active = r.active
  active : ps ≠ [] → ∃ a, r'.active = some a ∧ a.number + 1 = r'.made ∧ a.feature.Returns

namespace Loaded

variable {registry : Registry Event} {r r₁ r₂ : Run Event}

theorem nil (registry : Registry Event) (r : Run Event) : Loaded registry [] r r :=
  ⟨fun _ h => (nomatch h), rfl, rfl, (List.append_nil _).symm, fun _ => rfl,
    fun h => absurd rfl h⟩

theorem cons (hfound : registry.feature p = .ok f) (hf : f.Returns) {log : List Log.Entry}
    {events : List Event} (hr₁ : r₁ = { r with
      log
      events
      active := some ⟨f, context, r.made⟩
      made := r.made + 1
      calls := r.calls ++ startCalls r.disk r.made [p] })
    (h : Loaded registry ps r₁ r₂) : Loaded registry (p :: ps) r r₂ := by
  subst hr₁
  refine ⟨List.forall_mem_cons.2 ⟨⟨f, hfound⟩, h.found⟩, h.disk, ?_, ?_, nofun, fun _ => ?_⟩
  · rw [h.made, List.length_cons, Nat.add_assoc, Nat.add_comm 1]
  · rw [h.calls, List.append_assoc]
    rfl
  · by_cases hps : ps = []
    · subst hps
      exact ⟨_, h.idle rfl, h.made.symm, hf⟩
    · exact h.active hps

end Loaded

/-- Plugins are loaded one after another up to the first that lacks its feature. -/
theorem loadPlugins_cases (hplugins : s.registry.Cooperates ps) (context : Feature.Context)
    (r : Run Event) :
    (∃ r', (s.loadPlugins context ps).run r = (.ok (), r') ∧ Loaded s.registry ps r r') ∨
    ∃ loaded p rest fault r', ps = loaded ++ p :: rest ∧ Loaded s.registry loaded r r' ∧
      s.registry.Lacks p fault ∧
      (s.loadPlugins context ps).run r = (.error (.plugin fault), r') := by
  induction ps generalizing r with
  | nil => exact .inl ⟨r, rfl, .nil _ r⟩
  | cons p ps ih =>
    obtain ⟨hmodule, hmodules⟩ := List.forall_mem_cons.1 hplugins.module
    obtain ⟨hreturns, hothers⟩ := List.forall_mem_cons.1 hplugins.returns
    -- a feature that is found is made and initialized, and a missing one ends the loading
    obtain ⟨f, hfound⟩ | ⟨fault, herror, hlacks⟩ := feature_cases hmodule
    · have hf := hreturns f hfound
      have heq : s.loadPlugin context p = s.activate context p f := by
        unfold loadPlugin
        rw [hfound]
      obtain ⟨log, events, hload⟩ := run_activate hf s context p r
      rw [← heq] at hload
      obtain ⟨r₂, hrun, hall⟩ | ⟨loaded, q, rest, fault, r₂, rfl, hall, hlacks, hrun⟩ :=
        ih ⟨hmodules, hothers⟩ _
      · exact .inl ⟨r₂, (run_bind_ok hload _).trans hrun, hall.cons hfound hf rfl⟩
      · exact .inr ⟨p :: loaded, q, rest, fault, r₂, rfl, hall.cons hfound hf rfl, hlacks,
          (run_bind_ok hload _).trans hrun⟩
    · have hload : (s.loadPlugin context p).run r = (.error (.plugin fault), r) := by
        unfold loadPlugin
        rw [herror]
        rfl
      exact .inr ⟨[], p, ps, fault, r, rfl, .nil _ r, hlacks, run_bind_error hload _⟩

/-- The calls of features in a run of a generator, by how the run ends: in the state before the run
some features were made already, and some calls were made of them. -/
inductive LifeCycle (s : Site Event) (output : Path) (disk : Disk) (ps : List PluginName)
    (before : Run Event) : Except Failure (List Path) × Run Event → Prop where
  /-- A plugin lacks its feature. Those before it have been started, those after it are not made,
  and no file is touched. -/
  | lacking {loaded rest : List PluginName} {p : PluginName} {fault : PluginFault}
      {after : Run Event} (hps : ps = loaded ++ p :: rest)
      (hfound : ∀ q ∈ loaded, ∃ f, s.registry.feature q = .ok f)
      (hlacks : s.registry.Lacks p fault) (hdisk : after.disk = disk)
      (hmade : after.made = before.made + loaded.length)
      (hcalls : after.calls = before.calls ++ startCalls disk before.made loaded) :
      LifeCycle s output disk ps before (.error (.plugin fault), after)
  /-- The run fails after its plugins are loaded. Nobody is told of its end. -/
  | stopped {f : Failure} {after : Run Event}
      (hfound : ∀ q ∈ ps, ∃ f, s.registry.feature q = .ok f)
      (hmade : after.made = before.made + ps.length)
      (hcalls : after.calls = before.calls ++ startCalls disk before.made ps) :
      LifeCycle s output disk ps before (.error f, after)
  /-- There are no plugins, and nobody is called. -/
  | alone {files : List Path} {after : Run Event} (hps : ps = [])
      (hmade : after.made = before.made) (hcalls : after.calls = before.calls) :
      LifeCycle s output disk ps before (.ok files, after)
  /-- All pages are written, and after the last of them the feature that this run has made for the
  last plugin is told so. -/
  | finished {first : List PluginName} {p : PluginName} {files : List Path}
      {start after : Run Event} (hps : ps = first ++ [p])
      (hfound : ∀ q ∈ ps, ∃ f, s.registry.feature q = .ok f)
      (hsetUp : (s.setUp output).run (before.renew disk) = (.ok (), start))
      (hwrote : ∃ written, WroteAll s output s.model.pages start written ∧
        written.written = files ∧ after.disk = written.disk)
      (hfiles : files = s.model.pages.map (pageFile output))
      (hmade : after.made = before.made + ps.length)
      (hcalls : after.calls = before.calls ++ startCalls disk before.made first ++
        [⟨before.made + first.length, .created p, disk⟩,
          ⟨before.made + first.length, .initialized, disk⟩,
          ⟨before.made + first.length, .finished files, after.disk⟩]) :
      LifeCycle s output disk ps before (.ok files, after)

variable {c : Config} {output : Path} {disk : Disk} {r r' : Run Event}
  {result : Except Failure (List Path)}

namespace LifeCycle

/-- If the features that were called had been made, so they have after the run. -/
theorem numbers (h : LifeCycle s output disk ps r (result, r'))
    (hr : ∀ call ∈ r.calls, call.number < r.made) : ∀ call ∈ r'.calls, call.number < r'.made := by
  have hstarted {qs : List PluginName} {made : Nat} (hmade : r.made + qs.length ≤ made) :
      ∀ call ∈ r.calls ++ startCalls disk r.made qs, call.number < made := by
    intro call hcall
    obtain hcall | hcall := List.mem_append.1 hcall
    · have := hr call hcall
      omega
    · have := lt_of_mem_startCalls hcall
      omega
  cases h with
  | lacking _ _ _ _ hmade hcalls =>
    rw [hcalls]
    exact hstarted (Nat.le_of_eq hmade.symm)
  | stopped _ hmade hcalls =>
    rw [hcalls]
    exact hstarted (Nat.le_of_eq hmade.symm)
  | alone _ hmade hcalls =>
    rw [hcalls, hmade]
    exact hr
  | @finished first p files start _ hps _ _ _ _ hmade hcalls =>
    have hlength : r'.made = r.made + first.length + 1 := by
      rw [hmade, hps, List.length_append, List.length_singleton, Nat.add_assoc]
    rw [hcalls, List.forall_mem_append]
    refine ⟨hstarted (by omega), fun call hcall => ?_⟩
    -- the last three calls are of the feature that was made last
    simp only [List.mem_cons, List.not_mem_nil, or_false] at hcall
    rw [hlength]
    obtain rfl | rfl | rfl := hcall <;> exact Nat.lt_succ_self _

variable {r₁ r₂ start : Run Event}

/-- A run fails after its plugins are loaded, and no feature is called in between. -/
theorem of_stopped {f : Failure} (h : Loaded s.registry ps (r.renew disk) r₁)
    (hsame : (r₂.active, r₂.made, r₂.calls) = (r₁.active, r₁.made, r₁.calls)) :
    LifeCycle s output disk ps r (.error f, r₂) := by
  obtain ⟨-, hsame⟩ := Prod.mk.inj hsame
  obtain ⟨hmade, hcalls⟩ := Prod.mk.inj hsame
  exact .stopped h.found (hmade.trans h.made) (hcalls.trans h.calls)

/-- A run has written all pages and called no feature since its plugins were loaded. Then nothing is
left to fail. -/
theorem of_wroteAll (hactive : ps = [] → r.active = none)
    (h : Loaded s.registry ps (r.renew disk) r₁)
    (hsetUp : (s.setUp output).run (r.renew disk) = (.ok (), start))
    (hall : WroteAll s output s.model.pages start r₂)
    (hsame : (r₂.active, r₂.made, r₂.calls) = (r₁.active, r₁.made, r₁.calls)) :
    ∃ r₃, finish.run r₂ = (.ok (), r₃) ∧
      ∀ log, LifeCycle s output disk ps r (.ok r₃.written, { r₃ with log }) := by
  obtain ⟨hsame, hcounts⟩ := Prod.mk.inj hsame
  obtain ⟨hmade, hcalls⟩ := Prod.mk.inj hcounts
  replace hmade := hmade.trans h.made
  replace hcalls := hcalls.trans h.calls
  -- without plugins nothing is called; else the feature of the last one is told of the files
  obtain hnone | ⟨first, p, hps⟩ := List.eq_nil_or_concat' ps
  · have hidle : r₂.active = none := hsame.trans ((h.idle hnone).trans (hactive hnone))
    rw [hnone] at hmade hcalls
    exact ⟨r₂, run_finish_of_none hidle, fun log =>
      .alone hnone hmade (hcalls.trans (List.append_nil _))⟩
  · have hne : ps ≠ [] := by
      rw [hps]
      exact List.append_ne_nil_of_right_ne_nil _ (List.cons_ne_nil _ _)
    obtain ⟨a, ha, hnumber, hreturns⟩ := h.active hne
    have hlast : a.number = r.made + first.length := by
      rw [h.made, hps, List.length_append, List.length_singleton] at hnumber
      exact Nat.succ_inj.1 hnumber
    have hfiles : r₂.written = s.model.pages.map (pageFile output) := by
      have hnew : start.written = [] := (setUp_keeps_pages hsetUp).1
      rw [hall.written, hnew, List.nil_append]
    refine ⟨_, run_finish_of_returns (hsame.trans ha) hreturns, fun log =>
      .finished hps h.found hsetUp ⟨r₂, hall, rfl, rfl⟩ hfiles hmade ?_⟩
    dsimp only
    rw [hcalls, hps, startCalls_concat, hlast, ← List.append_assoc, List.append_assoc _ [_, _]]
    rfl

end LifeCycle

/-- Every run goes through the life cycle of its plugins, as long as no feature is active that no
plugin stands for. -/
theorem lifeCycle_rerun (hc : s.config? = some c) (hplugins : s.registry.Cooperates c.plugins)
    (hactive : c.plugins = [] → r.active = none) (output : Path) (disk : Disk) :
    LifeCycle s output disk c.plugins r (s.rerun output disk r) := by
  have hprepare : s.prepare output = s.loadPlugins ⟨s.model, output⟩ c.plugins := by
    unfold prepare
    rw [hc]
  -- neither the emptying of the folder nor the writing of pages calls a feature
  let view (r : Run Event) := (r.active, r.made, r.calls)
  have hview : IgnoresPages view :=
    ⟨fun _ _ => rfl, fun _ _ => rfl, fun _ _ => rfl, fun _ _ => rfl⟩
  have hload := loadPlugins_cases hplugins ⟨s.model, output⟩ (r.renew disk)
  rw [← hprepare] at hload
  obtain ⟨r₁, hload, hloaded⟩ | ⟨loaded, p, rest, fault, r₁, hps, hloaded, hlacks, hload⟩ := hload
  case inr =>
    have hrun : s.rerun output disk r = (.error (.plugin fault), r₁) := run_bind_error hload _
    rw [hrun]
    exact .lacking hps hloaded.found hlacks hloaded.disk hloaded.made hloaded.calls
  have hclearSame := Keeps.clear hview.log hview.disk s output r₁
  rcases hclear : (s.clear output).run r₁ with ⟨x, start⟩
  rw [hclear] at hclearSame
  cases x with
  | error f =>
    have hrun : s.rerun output disk r = (.error f, start) :=
      (run_bind_ok hload _).trans (run_bind_error hclear _)
    rw [hrun]
    exact .of_stopped hloaded hclearSame
  | ok _ =>
    have hwriteSame := Keeps.writePages hview s output s.model.pages start
    obtain ⟨r₂, hwrite, hall⟩ | ⟨done, p, rest, f, -, r₂, -, -, hwrite, -, -⟩ :=
      writePages_cases s output s.model.pages start
    all_goals rw [hwrite] at hwriteSame
    · have hsetUp : (s.setUp output).run (r.renew disk) = (.ok (), start) :=
        (run_bind_ok hload _).trans hclear
      obtain ⟨r₃, hfinish, hcycle⟩ :=
        LifeCycle.of_wroteAll hactive hloaded hsetUp hall (hwriteSame.trans hclearSame)
      have hrun : ∃ log, s.rerun output disk r = (.ok r₃.written, { r₃ with log }) :=
        ⟨_, (run_bind_ok hload _).trans ((run_bind_ok hclear _).trans
          ((run_bind_ok hwrite _).trans ((run_bind_ok hfinish _).trans rfl)))⟩
      obtain ⟨log, hrun⟩ := hrun
      rw [hrun]
      exact hcycle log
    · have hrun : s.rerun output disk r = (.error f, r₂) :=
        (run_bind_ok hload _).trans ((run_bind_ok hclear _).trans (run_bind_error hwrite _))
      rw [hrun]
      exact .of_stopped hloaded (hwriteSame.trans hclearSame)

/-- The calls of features follow the writing of pages, whatever runs a generator has made. The
numbers of features that were called before are below those of the features that the next run makes,
and that run goes through the life cycle of its plugins. -/
theorem hooks_follow_the_pages {results : List (Except Failure (List Path))}
    (hc : s.config? = some c) (hplugins : s.registry.Cooperates c.plugins)
    (h : s.Reached results r) (output : Path) (disk : Disk) :
    (∀ call ∈ r.calls, call.number < r.made) ∧
      LifeCycle s output disk c.plugins r (s.rerun output disk r) := by
  have hactive (hnone : c.plugins = []) {results : List (Except Failure (List Path))}
      {r : Run Event} (h : s.Reached results r) : r.active = none := by
    have hplugins : ∀ c, s.config? = some c → c.plugins = [] := by
      intro c' hc'
      obtain rfl : c = c' := Option.some.inj (hc.symm.trans hc')
      exact hnone
    exact (h.featureless hplugins).active
  refine ⟨?_, lifeCycle_rerun hc hplugins (fun hnone => hactive hnone h) output disk⟩
  induction h with
  | new disk => exact fun call hcall => nomatch hcall
  | rerun h output disk ih =>
    exact (lifeCycle_rerun hc hplugins (fun hnone => hactive hnone h) output disk).numbers ih

/-- A feature that notes its name and then the files that are written. -/
def meter (name : String) : Feature String where
  name
  onInitialized := fun _ => { events := [name] }
  onFinished := fun _ written => { events := written.map Path.text }

/-- A site with two plugins of one module. -/
def meteredSite : Site String where
  model := gaugeSite.model
  config? := some { Config.default with plugins := [⟨"meters", "First"⟩, ⟨"meters", "Second"⟩] }
  origin := .site
  registry := [{
    name := "meters"
    isPackage := false
    features := [("First", meter "First"), ("Second", meter "Second")] }]
  stylesheet := ⟨.root, ["styles.css"]⟩

/-- Three runs, of which the second finds no style sheet: of the six features that are made, the
second and the sixth are told that all pages are written. -/
theorem features_of_three_runs :
    let output : Path := ⟨.root, ["site"]⟩
    let disk : Disk := ⟨.folder [("styles.css", .file .empty)], []⟩
    let bare : Disk := ⟨.folder [], []⟩
    let plugins : List PluginName := [⟨"meters", "First"⟩, ⟨"meters", "Second"⟩]
    let first := meteredSite.rerun output disk { disk, active := none }
    let second := meteredSite.rerun output bare first.2
    let third := meteredSite.rerun output disk second.2
    let told (r : Run String) := r.calls.filterMap fun call =>
      match call.hook with
      | .finished _ => some call.number
      | _ => none
    meteredSite.config?.map (fun c => c.plugins) = some plugins ∧
    meteredSite.registry.Cooperates plugins ∧
    meteredSite.Reached [first.1, second.1] second.2 ∧
    second.1.toOption = none ∧
    third.1.toOption = some [output.child "index.html", output.child "gauge.html"] ∧
    told third.2 = [1, 5] ∧ third.2.made = 6 ∧
    (∀ call ∈ second.2.calls, call.number < second.2.made) ∧
    LifeCycle meteredSite output disk plugins second.2 third := by
  intro output disk bare plugins first second third told
  have hplugins : meteredSite.registry.Cooperates plugins := by
    have hfound : ∀ p ∈ plugins, meteredSite.registry.feature p = .ok (meter p.feature) := by
      simp only [plugins, List.forall_mem_cons]
      exact ⟨rfl, rfl, fun p hp => nomatch hp⟩
    have hmodules : ∀ p ∈ plugins, ∃ m, meteredSite.registry.module p.module = .ok m := by
      simp only [plugins, List.forall_mem_cons]
      exact ⟨⟨_, rfl⟩, ⟨_, rfl⟩, fun p hp => nomatch hp⟩
    refine ⟨fun p hp e h => ?_, fun p hp f hf => ?_⟩
    · obtain ⟨m, hm⟩ := hmodules p hp
      exact nomatch hm.symm.trans h
    · obtain rfl : meter p.feature = f := Except.ok.inj ((hfound p hp).symm.trans hf)
      exact ⟨fun _ => rfl, fun _ => rfl, fun _ _ => rfl⟩
  have hreached : meteredSite.Reached [first.1, second.1] second.2 :=
    ((Reached.new disk).rerun output disk).rerun output bare
  obtain ⟨hnumbers, hcycle⟩ :=
    hooks_follow_the_pages (s := meteredSite) rfl hplugins hreached output disk
  exact ⟨rfl, hplugins, hreached, by decide +kernel, by decide +kernel, by decide +kernel,
    by decide +kernel, hnumbers, hcycle⟩

end Site

end RefSite
