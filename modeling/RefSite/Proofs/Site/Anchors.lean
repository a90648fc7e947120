import Mathlib.Data.List.Perm.Basic
import RefSite.Proofs.Comment.Traversal
import RefSite.Site.Page

namespace RefSite

namespace Markup

/-- The written form of an attribute. -/
def attribute? (name : String) (attributes : List (String × Value)) : Option String :=
  (attributes.lookup name).bind Value.written?

mutual

/-- The addresses of the anchors of a class in their order; an anchor need not have one. -/
def hrefs (c : String) : Markup → List (Option String)
  | value _ => []
  | block ms => hrefsAll c ms
  | element type attributes content =>
    (if type = "a" ∧ attribute? "class" attributes = some c then [attribute? "href" attributes]
      else []) ++ hrefs c content

def hrefsAll (c : String) : List Markup → List (Option String)
  | [] => []
  | m :: ms => hrefs c m ++ hrefsAll c ms

end

variable {c : String}

theorem hrefsAll_eq_flatMap (c : String) (ms : List Markup) :
    hrefsAll c ms = ms.flatMap (hrefs c) := by
  induction ms with
  | nil => rfl
  | cons m ms ih => rw [hrefsAll, ih, List.flatMap_cons]

theorem hrefsAll_append (c : String) (ms ns : List Markup) :
    hrefsAll c (ms ++ ns) = hrefsAll c ms ++ hrefsAll c ns := by
  simp only [hrefsAll_eq_flatMap, List.flatMap_append]

theorem hrefsAll_eq_nil {ms : List Markup} (h : ∀ m ∈ ms, hrefs c m = []) : hrefsAll c ms = [] := by
  rw [hrefsAll_eq_flatMap]
  exact List.flatMap_eq_nil_iff.2 h

theorem hrefs_block (c : String) (ms : List Markup) : hrefs c (block ms) = hrefsAll c ms := by
  rw [hrefs]

theorem hrefs_text (c s : String) : hrefs c (text s) = [] := rfl

theorem hrefs_ofValue (c : String) (v : Value) : hrefs c (ofValue v) = [] := by
  unfold ofValue
  split
  · next items _ =>
    rw [hrefs_block, hrefsAll_eq_flatMap, List.flatMap_map]
    exact List.flatMap_eq_nil_iff.2 fun _ _ => rfl
  · rfl

theorem hrefs_plain (c type : String) (m : Markup) : hrefs c (plain type m) = hrefs c m := by
  simp [plain, hrefs, attribute?]

theorem hrefs_classed {type : String} (h : type ≠ "a") (className : String) (m : Markup) :
    hrefs c (classed type className m) = hrefs c m := by
  simp [classed, hrefs, h]

theorem hrefs_anchorOf_null (c : String) (m : Markup) (href : Value) :
    hrefs c (anchorOf m href .null) = hrefs c m := by
  have hc : attribute? "class" [("href", href)] = none := rfl
  simp [anchorOf, hrefs, Value.truthy, hc]

/-- An anchor of a class is found under this class and no other. -/
theorem hrefs_anchor (c label href : String) {className : String} (h : className ≠ "") :
    hrefs c (anchor label href className) = if c = className then [some href] else [] := by
  have ha : (Value.text className).truthy = true := by simpa [Value.truthy] using h
  have hc : attribute? "class" [("href", .text href), ("class", .text className)] =
      some className := rfl
  have hh : attribute? "href" [("href", .text href), ("class", .text className)] = some href := rfl
  simp [anchor, anchorOf, hrefs, ha, hc, hh, hrefs_text, eq_comm]

theorem hrefs_row (c : String) (ms : List Markup) : hrefs c (row ms) = hrefsAll c ms := by
  have hcell (m : Markup) : hrefs c (cell m) = hrefs c m := by
    unfold cell
    split
    · rw [hrefs_plain]; rfl
    · rw [hrefs_plain, hrefs_block, hrefsAll, hrefsAll, List.append_nil]
  rw [row, hrefs_plain, hrefs_block, hrefsAll_eq_flatMap, hrefsAll_eq_flatMap, List.flatMap_map]
  simp only [hcell]

end Markup

namespace Comment

open Markup

/-- Nothing in a comment is an anchor of a class: its links have addresses but no classes. -/
theorem hrefs_of_shownAs (c : String) {n : Node} {m : Markup} (h : ShownAs n m) :
    hrefs c m = [] := by
  apply h.induction (P := fun _ m => hrefs c m = [])
  case paragraph =>
    intro ns ms hms
    rw [hrefs_plain, hrefs_block]
    refine hrefsAll_eq_nil fun m hm => ?_
    obtain ⟨_, -, hnone⟩ := exists_of_mem_right hms hm
    exact hnone
  case code => exact fun content => by rw [hrefs_plain, hrefs_ofValue]
  case link => exact fun _ => by rw [hrefs_anchorOf_null, hrefs_ofValue]
  case unaddressed => exact fun _ => by rw [hrefs_anchorOf_null, hrefs_ofValue]
  case plain => exact fun text => by rw [hrefs_plain, hrefs_ofValue]

theorem hrefs_nodesMarkup (c : String) (origin : Log.Origin) (ns : List Node) (ms : List Markup)
    (h : (nodesMarkup origin ns).result = .ok ms) : hrefsAll c ms = [] := by
  have hshown : AreShownAs ns ms := (meets_areShownAs origin ns).of_ok h
  refine hrefsAll_eq_nil fun m hm => ?_
  obtain ⟨_, -, hn⟩ := exists_of_mem_right hshown hm
  exact hrefs_of_shownAs c hn

end Comment

namespace Page

open Markup

variable {c : String} {origin : Log.Origin} {page : Kind}

theorem hrefs_breadcrumb (c : String) (root p : Place) :
    hrefsAll c (breadcrumb root p) = if c = "breadcrumb" then
      some root.link :: (trail p).map (fun q => some q.link) else [] := by
  have hb : "breadcrumb" ≠ "" := by decide
  have level (q : Place) : hrefsAll c
      [classed "span" "breadcrumb" (Markup.text " / "), anchor q.self.name q.link "breadcrumb"] =
        if c = "breadcrumb" then [some q.link] else [] := by
    rw [hrefsAll, hrefsAll, hrefsAll, hrefs_classed (by decide), hrefs_text, hrefs_anchor _ _ _ hb,
      List.append_nil, List.nil_append]
  rw [breadcrumb, hrefsAll, hrefs_anchor _ _ _ hb, hrefsAll_eq_flatMap, List.flatMap_assoc]
  simp only [← hrefsAll_eq_flatMap, level]
  split
  · rw [List.map_eq_flatMap, List.singleton_append]
  · simp

theorem hrefs_betaNotice (c : String) (d : Declaration) : hrefsAll c (betaNotice d) = [] := by
  unfold betaNotice
  split
  · rw [hrefsAll, hrefs_classed (by decide)]; rfl
  · rfl

theorem hrefs_signature (c : String) (d : Declaration) : hrefsAll c (signature d) = [] := by
  unfold signature
  split
  · rfl
  · rw [hrefsAll, hrefsAll, hrefs_classed (by decide), hrefs_classed (by decide)]; rfl

theorem hrefs_summary (c : String) {d : Declaration} {ms : List Markup}
    (h : (summary origin d).result = .ok ms) : hrefsAll c ms = [] := by
  unfold summary at h
  split at h
  · cases h
    rfl
  · obtain ⟨ns, hns, h⟩ := Logged.bind_eq_ok.1 h
    cases h
    rw [hrefsAll, hrefsAll, hrefs_classed (by decide), hrefs_block,
      Comment.hrefs_nodesMarkup c origin _ ns hns]
    rfl

theorem hrefs_remarks (c : String) {d : Declaration} {ms : List Markup}
    (h : (remarks origin d).result = .ok ms) : hrefsAll c ms = [] := by
  unfold remarks at h
  split at h
  · cases h
    rfl
  · obtain ⟨ns, hns, h⟩ := Logged.bind_eq_ok.1 h
    cases h
    rw [hrefsAll, hrefsAll, hrefsAll, hrefs_classed (by decide), hrefs_plain, hrefs_block,
      Comment.hrefs_nodesMarkup c origin _ ns hns]
    rfl

/-- The one cell with a link is the reference to the member. -/
theorem hrefs_cell (c : String) {p : Place} {l : Cell} {m : Markup}
    (h : (cell origin p l).result = .ok m) :
    hrefs c m = if c = "ref" ∧ l = .reference then [some p.link] else [] := by
  cases l with
  | reference =>
    obtain ⟨-, -, h⟩ := Logged.bind_eq_ok.1 h
    cases h
    rw [hrefs_anchor _ _ _ (by decide)]
    simp
  | signature =>
    cases h
    simp [hrefs_text]
  | modifiers =>
    cases hs : p.self.isStatic <;> simp only [cell, hs] at h <;> cases h
    · simp [hrefs_classed, hrefs_block, hrefsAll]
    · simp [hrefs_classed, hrefs_text]
  | propertyType =>
    cases h
    simp [hrefs_classed, hrefs_text]
  | initializer =>
    cases h
    simp [hrefs_text]
  | description =>
    simp only [cell] at h
    split at h
    · cases h
      simp [hrefs_classed, hrefs_block, hrefsAll]
    · obtain ⟨ms, hms, h⟩ := Logged.bind_eq_ok.1 h
      cases h
      rw [hrefs_classed (by decide), hrefs_block, Comment.hrefs_nodesMarkup c origin _ ms hms]
      simp

/-- A row has a link for each of its reference columns. -/
theorem hrefs_cells (c : String) {p : Place} {columns : List Column} {ms : List Markup}
    (h : (cells origin p columns).result = .ok ms) :
    hrefsAll c ms = if c = "ref" then
      List.replicate ((columns.map Column.cell).count .reference) (some p.link) else [] := by
  induction columns generalizing ms with
  | nil =>
    cases h
    simp [hrefsAll]
  | cons column columns ih =>
    obtain ⟨m, hm, h⟩ := Logged.bind_eq_ok.1 h
    obtain ⟨ms', hms, h⟩ := Logged.bind_eq_ok.1 h
    cases h
    rw [hrefsAll, hrefs_cell c hm, ih hms, List.map_cons, List.count_cons]
    by_cases hc : c = "ref"
    · by_cases hl : column.cell = .reference
      · simp [hc, hl, List.replicate_succ]
      · simp [hc, hl]
    · simp [hc]

/-- A member that is listed is put in one of the tables of the page. -/
theorem mem_allOn_of_forMember {k : Kind} {d : Declaration} {s : Section}
    (h : Section.forMember? k d = some s) : s ∈ Section.allOn k := by
  unfold Section.forMember? at h
  split at h
  case h_1 => cases h; decide
  case h_2 => exact Section.mem_allOn_of_ofDeclaration h
  case h_3 => exact Section.mem_allOn_of_ofDeclaration h
  case h_6 | h_9 => cases h; split <;> decide
  case h_11 => exact nomatch h
  all_goals cases h; decide

/-- Every table but that of enumeration members has exactly one column of links. -/
theorem count_reference {k : Kind} (hk : k ≠ .enum) {s : Section} (hs : s ∈ Section.allOn k) :
    (s.columns.map Column.cell).count .reference = 1 := by
  revert s
  cases k <;> first | exact absurd rfl hk | decide

theorem nodup_allOn (k : Kind) : (Section.allOn k).Nodup := by cases k <;> decide

theorem count_reference_enum {s : Section} (hs : s ∈ Section.allOn .enum) :
    (s.columns.map Column.cell).count .reference = 0 := by
  revert s
  decide

/-- The members that a page of the given kind links to. -/
def linked (page : Kind) (ms : List Placed) : List Placed :=
  if page = .enum then [] else ms.filter fun m => (Section.forMember? page m.self).isSome

/-- The rows of a page link to the members that are put in its tables, in their order. -/
theorem hrefs_rows (c : String) {ms : List Placed} {rs : List (Section × Markup)}
    (h : (rows origin page ms).result = .ok rs) :
    (∀ r ∈ rs, r.1 ∈ Section.allOn page) ∧ rs.flatMap (fun r => hrefs c r.2) =
      if c = "ref" then (linked page ms).map (fun m => some m.place.link) else [] := by
  induction ms generalizing rs with
  | nil =>
    cases h
    simp [linked]
  | cons m ms ih =>
    rw [rows] at h
    split at h
    · exact nomatch h
    · split at h
      · next hs =>
        obtain ⟨hall, hrs⟩ := ih h
        refine ⟨hall, hrs.trans ?_⟩
        simp [linked, hs]
      · next s hs =>
        obtain ⟨cs, hcs, h⟩ := Logged.bind_eq_ok.1 h
        obtain ⟨rest, hrest, h⟩ := Logged.bind_eq_ok.1 h
        cases h
        obtain ⟨hall, hrs⟩ := ih hrest
        have hmem := mem_allOn_of_forMember hs
        refine ⟨List.forall_mem_cons.2 ⟨hmem, hall⟩, ?_⟩
        rw [List.flatMap_cons, hrs, hrefs_row, hrefs_cells c hcs]
        -- an enumeration has rows without links, and its page links to nothing
        by_cases hp : page = .enum
        · subst hp
          simp [linked, count_reference_enum hmem]
        · simp only [count_reference hp hmem, List.replicate_one, linked, hp, if_false,
            List.filter_cons, hs, Option.isSome_some, if_true, List.map_cons]
          split <;> rfl

theorem hrefs_titled (c title : String) (headings : List String) (rs : List Markup) :
    hrefsAll c (titled title headings rs) = rs.flatMap (hrefs c) := by
  have hhead : hrefs c (Table.head headings) = [] := by
    rw [Table.head, hrefs_plain, hrefs_block, hrefsAll, hrefsAll, hrefs_plain, hrefs_block,
      hrefsAll_eq_flatMap, List.flatMap_map, List.append_nil]
    exact List.flatMap_eq_nil_iff.2 fun s _ => by rw [hrefs_plain, hrefs_text]
  unfold titled
  split
  · next h =>
    rw [List.isEmpty_iff.1 h]
    rfl
  · rw [hrefsAll, hrefsAll, hrefsAll, hrefs_classed (by decide), hrefs_text, Table.toMarkup,
      hrefs_plain, hrefs_block, hrefsAll, hhead, hrefsAll_eq_flatMap, List.nil_append,
      List.nil_append, List.append_nil]

/-- Sorting rows into tables keeps all of them, and what they hold. -/
theorem perm_flatMap_filter {α β γ : Type} [DecidableEq β] (key : α → β) (f : α → List γ)
    {ks : List β} (hks : ks.Nodup) {xs : List α} (h : ∀ x ∈ xs, key x ∈ ks) :
    (ks.flatMap fun k => (xs.filter fun x => key x = k).flatMap f).Perm (xs.flatMap f) := by
  -- among different keys, what goes with one of them is met once
  have once (l : List γ) {k : β} (hk : k ∈ ks) :
      (ks.flatMap fun j => if k = j then l else []) = l := by
    clear h
    induction ks with
    | nil => exact nomatch hk
    | cons j js ih =>
      obtain ⟨hj, hjs⟩ := List.nodup_cons.1 hks
      rw [List.flatMap_cons]
      obtain rfl | hk := List.mem_cons.1 hk
      · have hrest : (js.flatMap fun i => if k = i then l else []) = [] :=
          List.flatMap_eq_nil_iff.2 fun i hi => if_neg fun he : k = i => hj (he ▸ hi)
        rw [if_pos rfl, hrest, List.append_nil]
      · rw [if_neg fun he : k = j => hj (he ▸ hk), ih hjs hk, List.nil_append]
  induction xs with
  | nil => simp
  | cons x xs ih =>
    obtain ⟨hx, hxs⟩ := List.forall_mem_cons.1 h
    have split (k : β) : ((x :: xs).filter fun x => key x = k).flatMap f =
        (if key x = k then f x else []) ++ (xs.filter fun x => key x = k).flatMap f := by
      rw [List.filter_cons]
      by_cases hk : key x = k <;> simp [hk]
    simp only [split]
    refine (List.flatMap_append_perm _ _ _).symm.trans ?_
    rw [once (f x) hx, List.flatMap_cons]
    exact (ih hxs).append_left (f x)

theorem hrefs_tables (c : String) {rs : List (Section × Markup)}
    (h : ∀ r ∈ rs, r.1 ∈ Section.allOn page) :
    (hrefsAll c (tables page rs)).Perm (rs.flatMap fun r => hrefs c r.2) := by
  rw [tables, hrefsAll_eq_flatMap, List.flatMap_assoc]
  simp only [← hrefsAll_eq_flatMap, hrefs_titled, rowsOf, List.flatMap_map]
  exact perm_flatMap_filter Prod.fst _ (nodup_allOn page) h

theorem children_eq_linked {k : Kind} {p : Placed} (hk : p.self.kind.kind? = some k) :
    p.children = linked k (p.listed k) := by
  unfold Placed.children linked
  rw [hk]
  cases k <;> rfl

/-- A page without tables links to nothing, since no member is put in one. -/
theorem linked_eq_nil {k : Kind} (hk : Section.allOn k = []) (ms : List Placed) :
    linked k ms = [] := by
  have hnone (m : Placed) : (Section.forMember? k m.self).isSome = false := by
    rw [Option.isSome_eq_false_iff, Option.isNone_iff_eq_none]
    cases hs : Section.forMember? k m.self with
    | none => rfl
    | some s =>
      have hmem := mem_allOn_of_forMember hs
      rw [hk] at hmem
      exact nomatch hmem
  unfold linked
  split
  · rfl
  · exact List.filter_eq_nil_iff.2 fun m _ => by rw [hnone m]; decide

theorem hrefs_parameterTable (c : String) (d : Declaration) :
    hrefsAll c (parameterTable d) = [] := by
  rw [parameterTable, hrefs_titled, List.flatMap_map]
  apply List.flatMap_eq_nil_iff.2
  intro q _
  rw [hrefs_row, hrefsAll, hrefsAll, hrefsAll, hrefs_text, hrefs_text]
  rfl

/-- The tables of an item's page link to its children, once to each. -/
theorem hrefs_body (c : String) {k : Kind} {p : Placed} {ms : List Markup}
    (hk : p.self.kind.kind? = some k) (h : (body origin k p).result = .ok ms) :
    (hrefsAll c ms).Perm
      (if c = "ref" then p.children.map fun q => some q.place.link else []) := by
  have rest : hrefsAll c (if k.isFunctionLike then parameterTable p.self else []) = [] := by
    split
    · exact hrefs_parameterTable c p.self
    · rfl
  rw [children_eq_linked hk]
  -- without tables the members are not even looked at
  by_cases hs : (Section.allOn k).isEmpty
  · simp only [body, hs, if_true] at h
    cases h
    have hnil := List.isEmpty_iff.1 hs
    rw [hrefsAll_append, rest, tables, hnil, linked_eq_nil hnil, List.flatMap_nil]
    simp [hrefsAll]
  · simp only [body, hs] at h
    obtain ⟨rs, hrs, h⟩ := Logged.bind_eq_ok.1 h
    cases h
    obtain ⟨hall, hrefs⟩ := hrefs_rows c hrs
    rw [hrefsAll_append, rest, List.append_nil, ← hrefs]
    exact hrefs_tables c hall

/-- The parts of what an item's page says about it, each as its own computation gives it. -/
theorem main_parts {root : Place} {p : Placed} {ms : List Markup}
    (h : (main origin root p).result = .ok ms) :
    ∃ k title about first tables last, p.self.kind.kind? = some k ∧
      (summary origin p.self).result = .ok about ∧ (body origin k p).result = .ok tables ∧
      (first = [] ∨ (remarks origin p.self).result = .ok first) ∧
      (last = [] ∨ (remarks origin p.self).result = .ok last) ∧
      ms = breadcrumb root p.place ++ [classed "h1" "page-header" (Markup.text title)] ++
        betaNotice p.self ++ about ++ signature p.self ++ first ++ tables ++ last := by
  unfold main at h
  obtain ⟨-, -, h⟩ := Logged.bind_eq_ok.1 h
  obtain ⟨title, -, h⟩ := Logged.bind_eq_ok.1 h
  obtain ⟨about, habout, h⟩ := Logged.bind_eq_ok.1 h
  cases hk : p.self.kind.kind? with
  | none =>
    simp only [hk] at h
    exact nomatch h
  | some k =>
    simp only [hk] at h
    obtain ⟨_, he, h⟩ := Logged.bind_eq_ok.1 h
    cases he
    -- remarks stand before the tables or after them
    by_cases hr : hasRemarksFirst k
    · simp only [hr, if_true] at h
      obtain ⟨first, hfirst, h⟩ := Logged.bind_eq_ok.1 h
      obtain ⟨tables, htables, h⟩ := Logged.bind_eq_ok.1 h
      cases h
      exact ⟨k, title, about, first, tables, [], rfl, habout, htables, .inr hfirst, .inl rfl, rfl⟩
    · simp only [hr] at h
      obtain ⟨first, hfirst, h⟩ := Logged.bind_eq_ok.1 h
      cases hfirst
      obtain ⟨tables, htables, h⟩ := Logged.bind_eq_ok.1 h
      obtain ⟨last, hlast, h⟩ := Logged.bind_eq_ok.1 h
      cases h
      exact ⟨k, title, about, [], tables, last, rfl, habout, htables, .inl rfl, .inr hlast, rfl⟩

/-- The anchors of what an item's page says about it: the way from the root and the children. -/
theorem hrefs_main (c : String) {root : Place} {p : Placed} {ms : List Markup}
    (h : (main origin root p).result = .ok ms) :
    (hrefsAll c ms).Perm (hrefsAll c (breadcrumb root p.place) ++
      if c = "ref" then p.children.map fun q => some q.place.link else []) := by
  obtain ⟨k, title, about, first, tables, last, hk, habout, htables, hfirst, hlast, rfl⟩ :=
    main_parts h
  have noRemarks {ns : List Markup} (hn : ns = [] ∨ (remarks origin p.self).result = .ok ns) :
      hrefsAll c ns = [] := by
    obtain rfl | hn := hn
    · rfl
    · exact hrefs_remarks c hn
  have htitle : hrefsAll c [classed "h1" "page-header" (Markup.text title)] = [] := by
    rw [hrefsAll, hrefs_classed (by decide)]
    rfl
  simp only [hrefsAll_append, htitle, hrefs_betaNotice, hrefs_summary c habout, hrefs_signature,
    noRemarks hfirst, noRemarks hlast, List.append_nil]
  exact (hrefs_body c hk htables).append_left _

/-- The tree of a page whose item has the given content. -/
def tree (c : Config) (content : List Markup) : Markup :=
  document [c.stylesheet] [banner c, classed "div" "main" (block content)]

/-- The text of a page is that of its tree, after the mark of its type. -/
theorem text_parts {settings : Config} {root : Place} {p : Placed} {t : String}
    (h : (text origin settings root p).result = .ok t) :
    ∃ content s, (main origin root p).result = .ok content ∧
      render (tree settings content) = .ok s ∧ t = "<!DOCTYPE html>\n" ++ s ++ "\n" := by
  obtain ⟨content, hcontent, h⟩ := Logged.bind_eq_ok.1 h
  refine ⟨content, ?_⟩
  unfold tree
  unfold renderDocument at h
  cases hr : render (document [settings.stylesheet]
      [banner settings, classed "div" "main" (block content)]) with
  | error f =>
    rw [hr] at h
    exact nomatch h
  | ok s =>
    rw [hr] at h
    cases h
    exact ⟨s, hcontent, rfl, rfl⟩

/-- Around its content a page has one anchor only, and its class is another. -/
theorem hrefs_tree {c : String} (hc : c ≠ "header-logo") (settings : Config)
    (content : List Markup) : hrefs c (tree settings content) = hrefsAll c content := by
  have hstyle : hrefs c (stylesheetLink settings.stylesheet) = [] := by
    simp [stylesheetLink, hrefs, void]
  have hbanner : hrefs c (banner settings) = [] := by
    simp [banner, hrefs_plain, hrefs_block, hrefsAll, hrefs_classed, hrefs_anchor, hc]
  simp [tree, document, hrefs_plain, hrefs_block, hrefsAll, hrefs_classed, hstyle, hbanner]

end Page

end RefSite
