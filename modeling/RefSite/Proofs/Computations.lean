import Mathlib.Data.List.Forall2
import RefSite.Logged

namespace RefSite

variable {ε σ α β : Type} {s s' : σ}

theorem eq_ok_of_toOption {x : Except ε α} {a : α} (h : x.toOption = some a) : x = .ok a := by
  cases x with
  | ok b => exact congrArg Except.ok (Option.some.inj h)
  | error e => exact nomatch h

/-- A result comes from a first result and from what follows it. -/
theorem exists_of_bind_ok {x : Except ε α} {f : α → Except ε β} {b : β}
    (h : x >>= f = .ok b) : ∃ a, x = .ok a ∧ f a = .ok b := by
  cases x with
  | ok a => exact ⟨a, rfl, h⟩
  | error e => exact nomatch h

theorem exists_of_map_ok {x : Except ε α} {f : α → β} {b : β} (h : x.map f = .ok b) :
    ∃ a, x = .ok a ∧ f a = b := by
  cases x with
  | ok a => exact ⟨a, rfl, Except.ok.inj h⟩
  | error e => exact nomatch h

/-- Each element has its own result, in order. -/
theorem mapM_eq_ok_iff {f : α → Except ε β} {as : List α} {bs : List β} :
    as.mapM f = .ok bs ↔ List.Forall₂ (fun a b => f a = .ok b) as bs := by
  constructor
  · intro h
    induction as generalizing bs with
    | nil =>
      cases h
      exact .nil
    | cons a as ih =>
      rw [List.mapM_cons] at h
      obtain ⟨b, hb, h⟩ := exists_of_bind_ok h
      obtain ⟨bs, hbs, h⟩ := exists_of_bind_ok h
      cases h
      exact .cons hb (ih hbs)
  · intro h
    induction h with
    | nil => rfl
    | cons hb _ ih =>
      rw [List.mapM_cons, hb, ih]
      rfl

theorem exists_of_mem_right {R : α → β → Prop} {as : List α} {bs : List β}
    (h : List.Forall₂ R as bs) {b : β} (hb : b ∈ bs) : ∃ a ∈ as, R a b := by
  induction h with
  | nil => exact nomatch hb
  | cons hab _ ih =>
    obtain rfl | hb := List.mem_cons.1 hb
    · exact ⟨_, List.mem_cons_self, hab⟩
    · obtain ⟨a, ha, hab⟩ := ih hb
      exact ⟨a, List.mem_cons_of_mem _ ha, hab⟩

/-- There is a result that is as wanted, or a failure that is allowed. -/
def Meets (allowed : ε → Prop) (wanted : α → Prop) : Except ε α → Prop
  | .ok a => wanted a
  | .error f => allowed f

namespace Meets

variable {allowed allowed' : ε → Prop} {wanted : α → Prop} {wanted' : β → Prop}

theorem of_ok {x : Except ε α} {a : α} (h : Meets allowed wanted x) (hx : x = .ok a) :
    wanted a := by
  rw [hx] at h
  exact h

theorem of_error {x : Except ε α} {f : ε} (h : Meets allowed wanted x) (hx : x = .error f) :
    allowed f := by
  rw [hx] at h
  exact h

theorem mono {x : Except ε α} (h : Meets allowed wanted x) (hf : ∀ f, allowed f → allowed' f) :
    Meets allowed' wanted x := by
  cases x with
  | ok a => exact h
  | error f => exact hf f h

theorem imp {wanted' : α → Prop} {x : Except ε α} (h : Meets allowed wanted x)
    (hw : ∀ a, wanted a → wanted' a) : Meets allowed wanted' x := by
  cases x with
  | ok a => exact hw a h
  | error f => exact h

theorem bind {x : Except ε α} {f : α → Except ε β} (hx : Meets allowed wanted x)
    (hf : ∀ a, wanted a → Meets allowed wanted' (f a)) : Meets allowed wanted' (x >>= f) := by
  cases x with
  | ok a => exact hf a hx
  | error e => exact hx

theorem map {x : Except ε α} {f : α → β} (hx : Meets allowed wanted x)
    (hf : ∀ a, wanted a → wanted' (f a)) : Meets allowed wanted' (x.map f) := by
  cases x with
  | ok a => exact hf a hx
  | error e => exact hx

theorem mapM {f : α → Except ε β} {as : List α} (h : ∀ a ∈ as, Meets allowed wanted' (f a)) :
    Meets allowed (fun bs => ∀ b ∈ bs, wanted' b) (as.mapM f) := by
  induction as with
  | nil => exact fun b hb => nomatch hb
  | cons a as ih =>
    rw [List.mapM_cons]
    refine (h a List.mem_cons_self).bind fun b hb => ?_
    refine (ih fun a ha => h a (List.mem_cons_of_mem _ ha)).bind fun bs hbs => ?_
    exact List.forall_mem_cons.2 ⟨hb, hbs⟩

end Meets

theorem run_bind_ok {m : ExceptT ε (StateM σ) α} {a : α} (h : m.run s = (.ok a, s'))
    (f : α → ExceptT ε (StateM σ) β) : (m >>= f).run s = (f a).run s' := by
  have hb : (m >>= f).run s = ExceptT.bindCont f (m.run s).1 (m.run s).2 := rfl
  rw [hb, h]
  rfl

theorem run_bind_error {m : ExceptT ε (StateM σ) α} {e : ε} (h : m.run s = (.error e, s'))
    (f : α → ExceptT ε (StateM σ) β) : (m >>= f).run s = (.error e, s') := by
  have hb : (m >>= f).run s = ExceptT.bindCont f (m.run s).1 (m.run s).2 := rfl
  rw [hb, h]
  rfl

/-- What goes well went well in its first step and in all that follows it. -/
theorem bind_eq_ok {m : ExceptT ε (StateM σ) α} {f : α → ExceptT ε (StateM σ) β} {b : β}
    (h : (m >>= f).run s = (.ok b, s')) :
    ∃ a s₁, m.run s = (.ok a, s₁) ∧ (f a).run s₁ = (.ok b, s') := by
  rcases hm : m.run s with ⟨x, s₁⟩
  cases x with
  | ok a =>
    rw [run_bind_ok hm] at h
    exact ⟨a, s₁, rfl, h⟩
  | error e =>
    rw [run_bind_error hm] at h
    exact nomatch h

/-- What fails fails in its first step or in what follows it. -/
theorem bind_eq_error {m : ExceptT ε (StateM σ) α} {f : α → ExceptT ε (StateM σ) β} {e : ε}
    (h : (m >>= f).run s = (.error e, s')) : m.run s = (.error e, s') ∨
      ∃ a s₁, m.run s = (.ok a, s₁) ∧ (f a).run s₁ = (.error e, s') := by
  rcases hm : m.run s with ⟨x, s₁⟩
  cases x with
  | ok a =>
    rw [run_bind_ok hm] at h
    exact .inr ⟨a, s₁, rfl, h⟩
  | error g =>
    rw [run_bind_error hm] at h
    cases h
    exact .inl rfl

theorem run_tryCatch_ok {m : ExceptT ε (StateM σ) α} {a : α} (h : m.run s = (.ok a, s'))
    (f : ε → ExceptT ε (StateM σ) α) : (tryCatch m f).run s = (.ok a, s') := by
  have ht : (tryCatch m f).run s = (match (m.run s).1 with
    | .ok a => (pure (.ok a) : StateM σ (Except ε α))
    | .error e => f e) (m.run s).2 := rfl
  rw [ht, h]
  rfl

theorem run_tryCatch_error {m : ExceptT ε (StateM σ) α} {e : ε} (h : m.run s = (.error e, s'))
    (f : ε → ExceptT ε (StateM σ) α) : (tryCatch m f).run s = (f e).run s' := by
  have ht : (tryCatch m f).run s = (match (m.run s).1 with
    | .ok a => (pure (.ok a) : StateM σ (Except ε α))
    | .error e => f e) (m.run s).2 := rfl
  rw [ht, h]
  rfl

/-- What goes well went well at once or after its failure was handled. -/
theorem tryCatch_eq_ok {m : ExceptT ε (StateM σ) α} {f : ε → ExceptT ε (StateM σ) α} {a : α}
    (h : (tryCatch m f).run s = (.ok a, s')) : m.run s = (.ok a, s') ∨
      ∃ e s₁, m.run s = (.error e, s₁) ∧ (f e).run s₁ = (.ok a, s') := by
  rcases hm : m.run s with ⟨x, s₁⟩
  cases x with
  | ok b =>
    rw [run_tryCatch_ok hm] at h
    exact .inl h
  | error e =>
    rw [run_tryCatch_error hm] at h
    exact .inr ⟨e, s₁, rfl, h⟩

/-- A relation from the state before each part of a computation to the state after it holds of the
whole. -/
theorem run_bind_rel (R : σ → σ → Prop) (htrans : ∀ {a b c}, R a b → R b c → R a c)
    {m : ExceptT ε (StateM σ) α} {f : α → ExceptT ε (StateM σ) β} (hm : ∀ s, R s (m.run s).2)
    (hf : ∀ a s, R s ((f a).run s).2) (s : σ) : R s ((m >>= f).run s).2 := by
  have hr := hm s
  rcases h : m.run s with ⟨x, s₁⟩
  rw [h] at hr
  cases x with
  | ok a =>
    rw [run_bind_ok h]
    exact htrans hr (hf a s₁)
  | error e =>
    rw [run_bind_error h]
    exact hr

theorem run_tryCatch_rel (R : σ → σ → Prop) (htrans : ∀ {a b c}, R a b → R b c → R a c)
    {m : ExceptT ε (StateM σ) α} {f : ε → ExceptT ε (StateM σ) α} (hm : ∀ s, R s (m.run s).2)
    (hf : ∀ e s, R s ((f e).run s).2) (s : σ) : R s ((tryCatch m f).run s).2 := by
  have hr := hm s
  rcases h : m.run s with ⟨x, s₁⟩
  rw [h] at hr
  cases x with
  | ok a =>
    rw [run_tryCatch_ok h]
    exact hr
  | error e =>
    rw [run_tryCatch_error h]
    exact htrans hr (hf e s₁)

theorem run_get (s : σ) : (get : ExceptT ε (StateM σ) σ).run s = (.ok s, s) := rfl

theorem run_modify (f : σ → σ) (s : σ) :
    (modify f : ExceptT ε (StateM σ) Unit).run s = (.ok (), f s) := rfl

namespace Logged

variable {allowed : Failure → Prop}

theorem pure_bind (a : α) (f : α → Logged β) : (pure a >>= f) = f a := rfl

theorem fail_bind (e : Failure) (f : α → Logged β) : (fail e >>= f) = fail e := rfl

theorem bind_assoc {γ : Type} (m : Logged α) (f : α → Logged β) (g : β → Logged γ) :
    m >>= f >>= g = m >>= fun a => f a >>= g := by
  obtain ⟨log, result⟩ := m
  cases result with
  | error e => rfl
  | ok a =>
    rw [bind_ok, bind_ok]
    rcases hf : f a with ⟨log', result'⟩
    cases result' with
    | error e => rfl
    | ok b =>
      rw [bind_ok, bind_ok]
      dsimp only
      rw [List.append_assoc]

theorem bind_pure (m : Logged α) : m >>= pure = m := by
  obtain ⟨log, result⟩ := m
  cases result with
  | error e => rfl
  | ok a =>
    rw [bind_ok, pure_def, List.append_nil]

/-- A computation of two parts has a result when both have one. -/
theorem bind_eq_ok {m : Logged α} {f : α → Logged β} {b : β} :
    (m >>= f).result = .ok b ↔ ∃ a, m.result = .ok a ∧ (f a).result = .ok b := by
  obtain ⟨log, result⟩ := m
  cases result with
  | ok a => simp [Logged.bind_ok]
  | error e => simp [Logged.bind_error]

/-- A computation of two parts fails in the first or in the second. -/
theorem bind_eq_error {m : Logged α} {f : α → Logged β} {e : Failure} :
    (m >>= f).result = .error e ↔
      m.result = .error e ∨ ∃ a, m.result = .ok a ∧ (f a).result = .error e := by
  obtain ⟨log, result⟩ := m
  cases result with
  | ok a => simp [Logged.bind_ok]
  | error e => simp [Logged.bind_error]

theorem meets_bind {wanted : α → Prop} {wanted' : β → Prop} {m : Logged α} {f : α → Logged β}
    (hm : Meets allowed wanted m.result) (hf : ∀ a, wanted a → Meets allowed wanted' (f a).result) :
    Meets allowed wanted' (m >>= f).result := by
  obtain ⟨log, result⟩ := m
  cases result with
  | ok a => exact hf a hm
  | error e => exact hm

/-- The computation fails with nothing but what is allowed. -/
def FailsOnlyWith (allowed : Failure → Prop) (m : Logged α) : Prop :=
  ∀ f, m.result = .error f → allowed f

namespace FailsOnlyWith

theorem pure (a : α) : FailsOnlyWith allowed (pure a : Logged α) := fun _ h => nomatch h

theorem report (e : Log.Entry) : FailsOnlyWith allowed (report e) := fun _ h => nomatch h

theorem fail {f : Failure} (h : allowed f) : FailsOnlyWith allowed (fail f : Logged α) := by
  intro g hg
  cases hg
  exact h

theorem mono {allowed' : Failure → Prop} {m : Logged α} (h : FailsOnlyWith allowed m)
    (hf : ∀ f, allowed f → allowed' f) : FailsOnlyWith allowed' m := fun f hm => hf f (h f hm)

theorem bind {m : Logged α} {f : α → Logged β} (hm : FailsOnlyWith allowed m)
    (hf : ∀ a, FailsOnlyWith allowed (f a)) : FailsOnlyWith allowed (m >>= f) := by
  obtain ⟨log, result⟩ := m
  intro g hg
  cases result with
  | ok a => exact hf a g hg
  | error e =>
    cases hg
    exact hm g rfl

end FailsOnlyWith

end Logged

end RefSite
