import Mathlib.Data.List.Forall2
import RefSite.Proofs.Site.Links

namespace RefSite

open Markup

namespace Page

variable {origin : Log.Origin} {page k : Kind} {t : Section} {p : Placed} {ms : List Placed}
  {rs : List (Section × Markup)}

/-- The row of a member in a table has a cell for each column. -/
def IsRowOf (origin : Log.Origin) (t : Section) (m : Placed) (row : Markup) : Prop :=
  ∃ cs, List.Forall₂ (fun c b => (cell origin m.place c.cell).result = .ok b) t.columns cs ∧
    row = Markup.row cs

theorem cells_eq_ok {q : Place} {columns : List Column} {cs : List Markup}
    (h : (cells origin q columns).result = .ok cs) :
    List.Forall₂ (fun c b => (cell origin q c.cell).result = .ok b) columns cs := by
  induction columns generalizing cs with
  | nil =>
    cases h
    exact .nil
  | cons column columns ih =>
    obtain ⟨b, hb, h⟩ := Logged.bind_eq_ok.1 h
    obtain ⟨bs, hbs, h⟩ := Logged.bind_eq_ok.1 h
    cases h
    exact .cons hb (ih hbs)

/-- Rows that could be made are those of known members, and the ones of a table are those of the
members that are put in it. -/
theorem rows_eq_ok (h : (rows origin page ms).result = .ok rs) :
    (∀ m ∈ ms, m.self.kind.isKnown = true) ∧ ∀ t, List.Forall₂ (IsRowOf origin t)
      (ms.filter fun m => Section.forMember? page m.self = some t) (rowsOf t rs) := by
  induction ms generalizing rs with
  | nil =>
    cases h
    exact ⟨List.forall_mem_nil _, fun t => .nil⟩
  | cons m ms ih =>
    rw [rows] at h
    split at h
    · cases h
    · next hknown =>
      have hm : m.self.kind.isKnown = true := by simpa using hknown
      split at h
      · next hnone =>
        obtain ⟨hall, hrows⟩ := ih h
        refine ⟨List.forall_mem_cons.2 ⟨hm, hall⟩, fun t => ?_⟩
        rw [List.filter_cons, hnone, if_neg (by simp)]
        exact hrows t
      · next s hs =>
        obtain ⟨cs, hcs, h⟩ := Logged.bind_eq_ok.1 h
        obtain ⟨rest, hrest, h⟩ := Logged.bind_eq_ok.1 h
        cases h
        obtain ⟨hall, hrows⟩ := ih hrest
        refine ⟨List.forall_mem_cons.2 ⟨hm, hall⟩, fun t => ?_⟩
        rw [rowsOf, List.filter_cons, List.filter_cons, hs]
        -- the member's row is in the table that the member is put in, and in no other
        by_cases ht : s = t
        · subst ht
          rw [if_pos (by simp), if_pos (by simp)]
          exact .cons ⟨cs, cells_eq_ok hcs, rfl⟩ (hrows s)
        · rw [if_neg (by simpa using ht), if_neg (by simpa using ht)]
          exact hrows t

/-- A page on which there can be tables lists known members only, and shows each table with the rows
of the members that are put in it. -/
theorem main_tables {root : Place} {content : List Markup} (hk : p.self.kind.kind? = some k)
    (htables : Section.allOn k ≠ []) (h : (main origin root p).result = .ok content) :
    (∀ m ∈ p.listed k, m.self.kind.isKnown = true) ∧ ∀ t ∈ Section.allOn k, ∃ rows,
      List.Forall₂ (IsRowOf origin t)
        ((p.listed k).filter fun m => Section.forMember? k m.self = some t) rows ∧
      titled t.title t.headings rows <:+: content := by
  obtain ⟨k', title, about, first, bodies, last, hk', -, hbody, -, -, rfl⟩ := main_parts h
  rw [hk] at hk'
  cases hk'
  have hne : (Section.allOn k).isEmpty = false := List.isEmpty_eq_false_iff.2 htables
  simp only [body, hne, Bool.false_eq_true, if_false] at hbody
  obtain ⟨rs, hrs, hbody⟩ := Logged.bind_eq_ok.1 hbody
  cases hbody
  obtain ⟨hknown, hrows⟩ := rows_eq_ok hrs
  refine ⟨hknown, fun t ht => ⟨rowsOf t rs, hrows t, ?_⟩⟩
  obtain ⟨before, after, htables⟩ := List.append_of_mem ht
  have hpart : titled t.title t.headings (rowsOf t rs) <:+: tables k rs := by
    rw [tables, htables, List.flatMap_append, List.flatMap_cons]
    exact ⟨_, _, List.append_assoc _ _ _⟩
  exact (hpart.trans (List.prefix_append _ _).isInfix).trans (List.infix_append _ _ _)

end Page

namespace Site

variable {Event : Type} {s : Site Event} {p : Placed}

/-- The page of an item could be built, and shows the content in the frame that all pages have. -/
structure Shows (s : Site Event) (p : Placed) (content : List Markup) : Prop where
  main : (Page.main s.origin s.model.place p).result = .ok content
  text : ∃ t, render (Page.tree s.config content) = .ok t ∧
    (s.pageText p).result = .ok ("<!DOCTYPE html>\n" ++ t ++ "\n")

theorem shows_of_pageText {t : String} (h : (s.pageText p).result = .ok t) :
    ∃ content, s.Shows p content := by
  obtain ⟨content, u, hmain, hrender, rfl⟩ := Page.text_parts h
  exact ⟨content, hmain, u, hrender, h⟩

theorem shows_of_built (h : (s.pageText p).result.toOption.isSome = true) :
    ∃ content, s.Shows p content := by
  obtain ⟨t, ht⟩ := Option.isSome_iff_exists.1 h
  exact shows_of_pageText (eq_ok_of_toOption ht)

end Site

end RefSite
