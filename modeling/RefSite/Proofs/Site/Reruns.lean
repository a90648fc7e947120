import RefSite.Proofs.Site.Loaded

namespace RefSite

/-- A run as it is when others came before it, whose reports and lists of files it goes on. -/
def Run.after {Event : Type} (r past : Run Event) : Run Event :=
  { r with log := past.log ++ r.log, earlier := past.earlier ++ past.written :: r.earlier }

namespace Site

variable {Event α β : Type} {s : Site Event} {output : Path}

/-- The states of a generator between its runs, with the results of its runs. These went to any
folders, any of them may have failed, and the files may have changed before each of them. -/
inductive Reached (s : Site Event) : List (Except Failure (List Path)) → Run Event → Prop where
  | new (disk : Disk) : Reached s [] { disk, active := none }
  | rerun {results : List (Except Failure (List Path))} {r : Run Event} (h : Reached s results r)
      (output : Path) (disk : Disk) :
      Reached s (results ++ [(s.rerun output disk r).1]) (s.rerun output disk r).2

/-- The step does the same whatever runs came before. -/
def ForgetsPast (m : Run.Step Event α) : Prop :=
  ∀ r past : Run Event, m.run (r.after past) = ((m.run r).1, (m.run r).2.after past)

namespace ForgetsPast

theorem pure (a : α) : ForgetsPast (pure a : Run.Step Event α) := fun _ _ => rfl

theorem bind {m : Run.Step Event α} {f : α → Run.Step Event β} (hm : ForgetsPast m)
    (hf : ∀ a, ForgetsPast (f a)) : ForgetsPast (m >>= f) := by
  intro r past
  have hr := hm r past
  rcases h : m.run r with ⟨x, r₁⟩
  rw [h] at hr
  cases x with
  | ok a =>
    rw [run_bind_ok hr, run_bind_ok h]
    exact hf a r₁ past
  | error e => rw [run_bind_error hr, run_bind_error h]

/-- A step may look at the state if what it does then is the same after other runs. -/
theorem bind_get {f : Run Event → Run.Step Event β} (hsame : ∀ r past, f (r.after past) = f r)
    (hf : ∀ r, ForgetsPast (f r)) : ForgetsPast (get >>= f) := by
  intro r past
  rw [run_bind_ok (run_get _), run_bind_ok (run_get _), hsame]
  exact hf r r past

theorem modify {g : Run Event → Run Event} (h : ∀ r past, g (r.after past) = (g r).after past) :
    ForgetsPast (modify g : Run.Step Event Unit) := by
  intro r past
  rw [run_modify, run_modify, h]

theorem report (es : List Log.Entry) : ForgetsPast (report es : Run.Step Event Unit) :=
  .modify fun r past => by simp only [Run.after, List.append_assoc]

theorem logged (m : Logged α) : ForgetsPast (logged m : Run.Step Event α) := by
  refine .bind (.report _) fun _ => ?_
  cases m.result <;> exact fun _ _ => rfl

theorem change (m : Disk.Change Unit) : ForgetsPast (change m : Run.Step Event Unit) := by
  intro r past
  rcases h : m.run r.disk with ⟨x, disk⟩
  cases x with
  | ok a => rw [run_change_ok h, run_change_ok (r := r.after past) h]; rfl
  | error f => rw [run_change_error h, run_change_error (r := r.after past) h]; rfl

theorem invoke (a : Feature.Active Event) (h : Feature.Hook) : ForgetsPast (invoke a h) := by
  intro r past
  rw [run_invoke, run_invoke]
  rfl

theorem clear (s : Site Event) (output : Path) : ForgetsPast (s.clear output) :=
  .bind (.report _) fun _ => .bind (.change _) fun _ => .bind (.change _) fun _ => .report _

theorem writePage (s : Site Event) (output : Path) (p : Placed) :
    ForgetsPast (s.writePage output p) := by
  refine .bind (.logged _) fun text => .bind_get (fun _ _ => rfl) fun r => ?_
  cases r.owners.lookup p.place.fileName with
  | some owner => exact fun _ _ => rfl
  | none =>
    exact .bind (.modify fun _ _ => rfl) fun _ => .bind (.change _) fun _ =>
      .bind (.modify fun _ _ => rfl) fun _ => .report _

theorem writePages (s : Site Event) (output : Path) (ps : List Placed) :
    ForgetsPast (s.writePages output ps) := by
  induction ps with
  | nil => exact .pure ()
  | cons p ps ih => exact .bind (.writePage s output p) fun _ => ih

theorem finish : ForgetsPast (finish : Run.Step Event Unit) := by
  refine .bind_get (fun _ _ => rfl) fun r => ?_
  cases r.active with
  | none => exact .pure ()
  | some a => exact .invoke a _

/-- Without plugins a whole run does the same whatever runs came before. -/
theorem run_of_no_plugins (h : ∀ c, s.config? = some c → c.plugins = []) (output : Path) :
    ForgetsPast (s.run output) := by
  have hprepare : ForgetsPast (s.prepare output) := fun r past => by
    rw [run_prepare_of_no_plugins h, run_prepare_of_no_plugins h]
  exact .bind hprepare fun _ => .bind (.clear s output) fun _ => .bind (.writePages s output _)
    fun _ => .bind .finish fun _ => .bind_get (fun _ _ => rfl) fun _ => .bind (.report _)
      fun _ => .pure _

end ForgetsPast

variable {results : List (Except Failure (List Path))} {r : Run Event}

/-- No run changes the lists of the runs before. -/
theorem keeps_earlier (s : Site Event) (output : Path) :
    Keeps (fun r => r.earlier) (s.run output) := by
  have hplugins : IgnoresPlugins fun r : Run Event => r.earlier :=
    ⟨fun _ _ => rfl, fun _ _ => rfl, fun _ _ => rfl, fun _ _ => rfl, fun _ _ => rfl⟩
  have hpages : IgnoresPages fun r : Run Event => r.earlier :=
    ⟨fun _ _ => rfl, fun _ _ => rfl, fun _ _ => rfl, fun _ _ => rfl⟩
  exact .bind (.prepare hplugins s output) fun _ => .bind (.clear hpages.log hpages.disk s output)
    fun _ => .bind (.writePages hpages s output _) fun _ => .bind (.finish hplugins)
    fun _ => .bind .get fun _ => .bind (.say hpages.log _ _ _) fun _ => .pure _

theorem earlier_rerun (s : Site Event) (output : Path) (disk : Disk) (r : Run Event) :
    (s.rerun output disk r).2.earlier = r.earlier ++ [r.written] :=
  keeps_earlier s output (r.renew disk)

/-- The list that a run gives is the one that it has put together. -/
theorem written_rerun {disk : Disk} {files : List Path} {r' : Run Event}
    (h : s.rerun output disk r = (.ok files, r')) : r'.written = files := by
  obtain ⟨_, r₁, -, h⟩ := bind_eq_ok h
  obtain ⟨_, r₂, -, h⟩ := bind_eq_ok h
  obtain ⟨_, r₃, -, h⟩ := bind_eq_ok h
  obtain ⟨_, r₄, -, h⟩ := bind_eq_ok h
  cases h
  rfl

/-- The lists that were given are all still there. The first list is the one from before all runs. -/
theorem Reached.lists (h : s.Reached results r) :
    (r.earlier ++ [r.written]).length = results.length + 1 ∧
    ∀ (k : Nat) (files : List Path), results[k]? = some (.ok files) →
      (r.earlier ++ [r.written])[k + 1]? = some files := by
  induction h with
  | new disk => exact ⟨rfl, fun k files h => nomatch h⟩
  | @rerun results r h output disk ih =>
    obtain ⟨hlength, hlists⟩ := ih
    rw [earlier_rerun]
    refine ⟨by rw [List.length_append, hlength, List.length_append]; rfl, fun k files hk => ?_⟩
    obtain hlt | hge := Nat.lt_or_ge k results.length
    · -- the list of a run before stands where it stood
      rw [List.getElem?_append_left hlt] at hk
      rw [List.getElem?_append_left (by omega)]
      exact hlists k files hk
    · -- the list of the last run comes last
      have hk' := (List.getElem?_eq_some_iff.1 hk).1
      rw [List.length_append, List.length_singleton] at hk'
      obtain rfl : k = results.length := by omega
      rw [List.getElem?_concat_length] at hk
      rw [← hlength, List.getElem?_concat_length]
      exact congrArg some (written_rerun (Prod.ext (Option.some.inj hk) rfl))

/-- No feature was made so far. -/
structure Featureless (r : Run Event) : Prop where
  active : r.active = none
  events : r.events = []
  made : r.made = 0
  calls : r.calls = []

/-- The step makes no feature where none was made before. -/
def MakesNoFeature (m : Run.Step Event α) : Prop := ∀ r, Featureless r → Featureless (m.run r).2

namespace MakesNoFeature

theorem of_keeps {m : Run.Step Event α}
    (h : Keeps (fun r => (r.active, r.events, r.made, r.calls)) m) : MakesNoFeature m := by
  intro r hr
  obtain ⟨hactive, hrest⟩ := Prod.mk.inj (h r)
  obtain ⟨hevents, hrest⟩ := Prod.mk.inj hrest
  obtain ⟨hmade, hcalls⟩ := Prod.mk.inj hrest
  exact ⟨hactive.trans hr.active, hevents.trans hr.events, hmade.trans hr.made,
    hcalls.trans hr.calls⟩

theorem bind {m : Run.Step Event α} {f : α → Run.Step Event β} (hm : MakesNoFeature m)
    (hf : ∀ a, MakesNoFeature (f a)) : MakesNoFeature (m >>= f) :=
  run_bind_rel (fun r r' => Featureless r → Featureless r') (fun h h' => h' ∘ h) hm hf

theorem finish : MakesNoFeature (finish : Run.Step Event Unit) := by
  intro r hr
  rw [run_finish_of_none hr.active]
  exact hr

theorem run_of_no_plugins (h : ∀ c, s.config? = some c → c.plugins = []) (output : Path) :
    MakesNoFeature (s.run output) := by
  have hpages : IgnoresPages fun r : Run Event => (r.active, r.events, r.made, r.calls) :=
    ⟨fun _ _ => rfl, fun _ _ => rfl, fun _ _ => rfl, fun _ _ => rfl⟩
  have hprepare : MakesNoFeature (s.prepare output) := fun r hr => by
    rw [run_prepare_of_no_plugins h]
    exact hr
  exact .bind hprepare fun _ => .bind (.of_keeps (.clear hpages.log hpages.disk s output))
    fun _ => .bind (.of_keeps (.writePages hpages s output _)) fun _ => .bind .finish
    fun _ => .bind (fun _ hr => hr) fun _ => .bind (.of_keeps (.say hpages.log _ _ _))
    fun _ _ hr => hr

end MakesNoFeature

/-- Without plugins no feature is ever made. -/
theorem Reached.featureless (hplugins : ∀ c, s.config? = some c → c.plugins = [])
    (h : s.Reached results r) : Featureless r := by
  induction h with
  | new disk => exact ⟨rfl, rfl, rfl, rfl⟩
  | @rerun results r h output disk ih =>
    have hrenew : Featureless (r.renew disk) := ⟨ih.active, ih.events, ih.made, ih.calls⟩
    exact MakesNoFeature.run_of_no_plugins hplugins output _ hrenew

/-- Without plugins a generator that has made any runs behaves like a new one. Its next run gives the
same result and leaves the same files and the same list of them as a run of a new generator on the
same files, and it reports the same after what was reported before. All lists that were given before
are still there, unchanged. -/
theorem reused_generators_are_like_fresh_ones
    (hplugins : ∀ c, s.config? = some c → c.plugins = []) (h : s.Reached results r)
    (output : Path) (disk : Disk) :
    let fresh := s.generate output disk none
    s.rerun output disk r = (fresh.1, { fresh.2 with
      log := r.log ++ fresh.2.log
      earlier := r.earlier ++ [r.written] }) ∧
    ∀ (k : Nat) (files : List Path), results[k]? = some (.ok files) →
      (s.rerun output disk r).2.earlier[k + 1]? = some files := by
  intro fresh
  obtain ⟨hactive, hevents, hmade, hcalls⟩ := h.featureless hplugins
  let begun : Run Event := { disk, active := none }
  have hbegun : r.renew disk = begun.after r := by
    simp only [Run.renew, Run.after, begun, hactive, hevents, hmade, hcalls, List.append_nil]
    rfl
  have hrun : s.rerun output disk r = (fresh.1, fresh.2.after r) := by
    unfold rerun
    rw [hbegun]
    exact ForgetsPast.run_of_no_plugins hplugins output begun r
  have hearlier : fresh.2.earlier = [] := keeps_earlier s output begun
  refine ⟨?_, fun k files hk => ?_⟩
  · rw [hrun, Run.after, hearlier]
  · rw [earlier_rerun]
    exact h.lists.2 k files hk

/-- A site of one package. -/
def gaugeSite : Site Unit where
  model := (Item.mk { kind := .known .model, name := "" }
    [.mk { kind := .known .package, name := "@lab/gauge" } []]).placed
  config? := some Config.default
  origin := .site
  registry := []
  stylesheet := ⟨.root, ["styles.css"]⟩

/-- A run that finds its style sheet again, after one that did and one that did not. -/
theorem run_after_failed_run :
    let output : Path := ⟨.root, ["site"]⟩
    let disk : Disk := ⟨.folder [("styles.css", .file .empty)], []⟩
    let bare : Disk := ⟨.folder [], []⟩
    let first := gaugeSite.rerun output disk { disk, active := none }
    let second := gaugeSite.rerun output bare first.2
    let third := gaugeSite.rerun output disk second.2
    let fresh := gaugeSite.generate output disk none
    let files := [output.child "index.html", output.child "gauge.html"]
    (∀ c, gaugeSite.config? = some c → c.plugins = []) ∧
    gaugeSite.Reached [first.1, second.1] second.2 ∧
    first.1.toOption = some files ∧ second.1.toOption = none ∧ third.1.toOption = some files ∧
    third = (fresh.1, { fresh.2 with
      log := second.2.log ++ fresh.2.log
      earlier := second.2.earlier ++ [second.2.written] }) ∧
    third.2.earlier[1]? = some files := by
  intro output disk bare first second third fresh files
  have hplugins : ∀ c, gaugeSite.config? = some c → c.plugins = [] := by
    intro c hc
    cases hc
    rfl
  have hreached : gaugeSite.Reached [first.1, second.1] second.2 :=
    ((Reached.new disk).rerun output disk).rerun output bare
  have hfirst : first.1.toOption = some files := by decide +kernel
  obtain ⟨hthird, hlists⟩ := reused_generators_are_like_fresh_ones hplugins hreached output disk
  exact ⟨hplugins, hreached, hfirst, by decide +kernel, by decide +kernel, hthird,
    hlists 0 files (congrArg some (eq_ok_of_toOption hfirst))⟩

end Site

end RefSite
