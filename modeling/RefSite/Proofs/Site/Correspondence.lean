import Mathlib.Data.List.Forall2
import Mathlib.Data.List.Perm.Basic
import RefSite.Proofs.Site.Links

namespace RefSite

open List (Forall₂)

/-- What corresponds element by element, up to the order, does so after each element is replaced by
a list. -/
theorem forall₂_perm_flatMap {α β γ δ : Type} {P : γ → δ → Prop} {R : α → β → Prop}
    {f : α → List γ} {g : β → List δ}
    (hfg : ∀ a b, R a b → ∃ ds, ds.Perm (g b) ∧ Forall₂ P (f a) ds) {as : List α} {bs : List β}
    (h : Forall₂ R as bs) : ∃ ds, ds.Perm (bs.flatMap g) ∧ Forall₂ P (as.flatMap f) ds := by
  induction h with
  | nil => exact ⟨[], .refl _, .nil⟩
  | cons hab _ ih =>
    obtain ⟨ds, hds, hfirst⟩ := hfg _ _ hab
    obtain ⟨es, hes, hrest⟩ := ih
    refine ⟨ds ++ es, ?_, ?_⟩
    · rw [List.flatMap_cons]
      exact hds.append hes
    · rw [List.flatMap_cons]
      exact List.rel_append hfirst hrest

/-- What is found first in lists that correspond corresponds. -/
theorem forall₂_find {α β : Type} {R : α → β → Prop} {f : α → Bool} {g : β → Bool}
    (hfg : ∀ a b, R a b → g b = f a) {as : List α} {bs : List β} (h : Forall₂ R as bs) :
    (as.find? f = none ∧ bs.find? g = none) ∨
      ∃ a b, as.find? f = some a ∧ bs.find? g = some b ∧ R a b := by
  induction h with
  | nil => exact .inl ⟨rfl, rfl⟩
  | @cons a b as bs hab _ ih =>
    rw [List.find?_cons, List.find?_cons, hfg a b hab]
    cases f a with
    | true => exact .inr ⟨a, b, rfl, rfl, hab⟩
    | false => exact ih

namespace Placed

variable {R : Placed → Placed → Prop} {p p' : Placed}

/-- When the children of items that correspond do so in order, their pages do too. -/
theorem pages_forall₂ (hR : ∀ p p', R p p' → Forall₂ R p.children p'.children) (h : R p p') :
    Forall₂ R p.pages p'.pages := by
  induction p using pages_induction generalizing p' with
  | step p ih =>
    have hchildren : Forall₂ (fun q q' => q ∈ p.children ∧ R q q') p.children p'.children :=
      (List.forall₂_and_left _ _).2 ⟨fun _ hq => hq, hR p p' h⟩
    rw [pages_eq, pages_eq]
    exact .cons h (List.rel_flatMap hchildren fun q q' hq => ih q hq.1 hq.2)

/-- When the children of items that correspond do so in another order, their pages do too. -/
theorem pages_perm
    (hR : ∀ p p', R p p' → ∃ qs, qs.Perm p'.children ∧ Forall₂ R p.children qs) (h : R p p') :
    ∃ qs, qs.Perm p'.pages ∧ Forall₂ R p.pages qs := by
  induction p using pages_induction generalizing p' with
  | step p ih =>
    obtain ⟨cs, hcs, hchildren⟩ := hR p p' h
    have hchildren : Forall₂ (fun q q' => q ∈ p.children ∧ R q q') p.children cs :=
      (List.forall₂_and_left _ _).2 ⟨fun _ hq => hq, hchildren⟩
    obtain ⟨qs, hqs, hpages⟩ := forall₂_perm_flatMap (fun q q' hq => ih q hq.1 hq.2) hchildren
    rw [pages_eq, pages_eq]
    exact ⟨p' :: qs, (hqs.trans (hcs.flatMap_right _)).cons p', .cons h hpages⟩

end Placed

end RefSite
