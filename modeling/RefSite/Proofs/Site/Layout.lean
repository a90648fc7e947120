import Mathlib.Data.List.TakeWhile
import RefSite.Proofs.Site.RowOrder
import RefSite.Proofs.Site.StylesheetCopy
import RefSite.Proofs.Site.Tables

namespace RefSite

namespace Text

theorem trimBoth_eq_nil_iff {α : Type} (p : α → Bool) (xs : List α) :
    trimBoth p xs = [] ↔ ∀ x ∈ xs, p x = true := by
  rw [trimBoth, List.reverse_eq_nil_iff, List.dropWhile_eq_nil_iff]
  constructor
  · intro h
    -- what is left at the front would start with an element that does not satisfy the predicate
    have hfront : xs.dropWhile p = [] := by
      by_contra hne
      have hhead := List.head_dropWhile_not p hne
      rw [h _ (List.mem_reverse.2 (List.head_mem hne))] at hhead
      exact Bool.false_ne_true hhead.symm
    exact List.dropWhile_eq_nil_iff.1 hfront
  · intro h x hx
    exact h x ((List.dropWhile_suffix p).subset (List.mem_reverse.1 hx))

/-- Nothing is left of a text exactly if it has blanks only. -/
theorem strip_eq_empty_iff (s : String) : strip s = "" ↔ s.toList.all isBlank = true := by
  rw [List.all_eq_true, ← trimBoth_eq_nil_iff, strip, ← String.toList_inj, String.toList_ofList]
  rfl

end Text

namespace Page

open Markup Placed Section

variable {origin : Log.Origin} {root : Place} {p : Placed} {k : Kind} {d : Declaration}
  {ms : List Markup}

/-- What is shown for something that can be missing: nothing for what is missing. -/
inductive IfGiven {α : Type} (Shows : α → List Markup → Prop) : Option α → List Markup → Prop where
  | missing : IfGiven Shows none []
  | given {a : α} {ms : List Markup} (h : Shows a ms) : IfGiven Shows (some a) ms

/-- The nodes of a comment as they are shown. -/
def AreShown (origin : Log.Origin) (nodes : List Comment.Node) (ms : List Markup) : Prop :=
  (Comment.nodesMarkup origin nodes).result = .ok ms

/-- The tables of an item's page: those of its members, with a row for each, or that of its
parameters. -/
inductive AreTables (origin : Log.Origin) (p : Placed) : Kind → List Markup → Prop where
  | members {k : Kind} {rows : Section → List Markup} (hk : k ∈ containerKinds)
      (hrows : ∀ t ∈ allOn k, List.Forall₂ (IsRowOf origin t)
        ((p.listed k).filter fun m => Takes k t m.self) (rows t)) :
      AreTables origin p k (shownTables k rows)
  | parameters {k : Kind} (hk : k.isFunctionLike = true) :
      AreTables origin p k (if p.self.parameters = [] then []
        else [classed "h3" "section-heading" (Markup.text "Parameters"),
          Table.toMarkup ⟨["Parameter", "Type", "Description"], p.self.parameters.map fun q =>
            plain "tr" (block [plain "td" (Markup.text q.name), plain "td" (Markup.text q.type)])⟩])
  | none {k : Kind} (hk : k ∉ containerKinds) (hf : k.isFunctionLike = false) :
      AreTables origin p k []

/-- The parts of a page. -/
structure Parts where
  way : List Markup
  title : Markup
  notice : List Markup
  summary : List Markup
  signature : List Markup
  tables : List Markup
  remarks : List Markup

namespace Parts

/-- The parts from top to bottom, with the remarks in front of the tables or behind them. -/
def content (ps : Parts) (k : Kind) : List Markup :=
  ps.way ++ [ps.title] ++ ps.notice ++ ps.summary ++ ps.signature ++
    if k = .classDecl ∨ k = .interface ∨ k = .namespaceDecl ∨ k = .package
    then ps.remarks ++ ps.tables else ps.tables ++ ps.remarks

/-- The parts show what an item of the kind says about itself. -/
structure AreOf (ps : Parts) (origin : Log.Origin) (root : Place) (p : Placed) (k : Kind) : Prop where
  way : ps.way = anchor "Home" root.link "breadcrumb" :: (trail p.place).flatMap fun q =>
    [classed "span" "breadcrumb" (Markup.text " / "), anchor q.self.name q.link "breadcrumb"]
  title : ∃ heading,
    headingText? k (if k = .package then unscopedName p.self.name else p.place.scopedName) =
      some heading ∧ ps.title = classed "h1" "page-header" (Markup.text heading)
  notice : ps.notice =
    if p.self.release = some .beta then [classed "div" "beta-warning" (block [])] else []
  summary : IfGiven (fun c ms => ∃ about, AreShown origin c.summary about ∧
    ms = [classed "div" "summary" (block about)]) p.self.comment ps.summary
  signature : ps.signature =
    if p.self.excerpt.toList.all Text.isBlank then []
    else [classed "div" "signature-heading" (Markup.text "Signature"),
      classed "pre" "signature" (Markup.text p.self.signature)]
  tables : AreTables origin p k ps.tables
  remarks : IfGiven (fun nodes ms => ∃ more, AreShown origin nodes more ∧
    ms = [classed "div" "remarks" (Markup.text "Remarks"), plain "div" (block more)])
      (p.self.comment.bind Comment.remarks) ps.remarks

end Parts

theorem summary_eq_ok (h : (summary origin d).result = .ok ms) :
    IfGiven (fun c ms => ∃ about, AreShown origin c.summary about ∧
      ms = [classed "div" "summary" (block about)]) d.comment ms := by
  rw [summary] at h
  cases hc : d.comment with
  | none =>
    rw [hc] at h
    cases h
    exact .missing
  | some c =>
    rw [hc] at h
    obtain ⟨about, habout, h⟩ := Logged.bind_eq_ok.1 h
    cases h
    exact .given ⟨about, habout, rfl⟩

theorem remarks_eq_ok (h : (remarks origin d).result = .ok ms) :
    IfGiven (fun nodes ms => ∃ more, AreShown origin nodes more ∧
      ms = [classed "div" "remarks" (Markup.text "Remarks"), plain "div" (block more)])
        (d.comment.bind Comment.remarks) ms := by
  rw [remarks] at h
  cases hc : d.comment.bind Comment.remarks with
  | none =>
    rw [hc] at h
    cases h
    exact .missing
  | some nodes =>
    rw [hc] at h
    obtain ⟨more, hmore, h⟩ := Logged.bind_eq_ok.1 h
    cases h
    exact .given ⟨more, hmore, rfl⟩

theorem heading_eq_ok {q : Place} {title : String} (hk : q.self.kind.kind? = some k)
    (h : (heading origin q).result = .ok title) :
    headingText? k (if k = .package then unscopedName q.self.name else q.scopedName) =
      some title := by
  rw [heading, hk] at h
  by_cases hpackage : k = .package
  · subst hpackage
    obtain ⟨_, -, h⟩ := Logged.bind_eq_ok.1 h
    cases h
    rfl
  · rw [if_neg hpackage]
    cases k <;> first | exact absurd rfl hpackage | (cases h <;> rfl)

theorem signature_eq (d : Declaration) : signature d =
    if d.excerpt.toList.all Text.isBlank then []
    else [classed "div" "signature-heading" (Markup.text "Signature"),
      classed "pre" "signature" (Markup.text d.signature)] := by
  unfold signature
  simp only [Text.strip_eq_empty_iff]

theorem parameterTable_eq (d : Declaration) : parameterTable d = if d.parameters = [] then []
    else [classed "h3" "section-heading" (Markup.text "Parameters"),
      Table.toMarkup ⟨["Parameter", "Type", "Description"], d.parameters.map fun q =>
        plain "tr" (block [plain "td" (Markup.text q.name), plain "td" (Markup.text q.type)])⟩] := by
  unfold parameterTable titled
  simp only [List.isEmpty_iff, List.map_eq_nil_iff]
  rfl

/-- What the body of a page shows are its tables. -/
theorem body_tables {ts : List Markup} (h : (body origin k p).result = .ok ts) :
    AreTables origin p k ts := by
  unfold body at h
  by_cases hk : k ∈ containerKinds
  · have hne : (allOn k).isEmpty = false := List.isEmpty_eq_false_iff.2 (Site.allOn_ne_nil hk)
    rw [hne, isFunctionLike_of_mem_containerKinds hk] at h
    obtain ⟨rs, hrs, h⟩ := Logged.bind_eq_ok.1 h
    cases h
    rw [tables_eq_shownTables]
    simp only [Bool.false_eq_true, if_false, List.append_nil]
    refine .members hk fun t _ => ?_
    have hrows := (rows_eq_ok hrs).2 t
    simp only [forMember_eq_some_iff] at hrows
    exact hrows
  · have hnone : allOn k = [] := by
      revert hk
      cases k <;> decide
    rw [hnone] at h
    cases h
    rw [tables, hnone, List.flatMap_nil, List.nil_append]
    cases hf : k.isFunctionLike with
    | true =>
      rw [if_pos rfl, parameterTable_eq]
      exact .parameters hf
    | false => exact .none hk hf

/-- What a page says about an item are its parts from top to bottom. -/
theorem main_content {content : List Markup} (h : (main origin root p).result = .ok content) :
    ∃ k ps, p.self.kind.kind? = some k ∧ Parts.AreOf ps origin root p k ∧ content = ps.content k := by
  obtain ⟨k, -, -, -, -, -, hk, -⟩ := main_parts h
  obtain ⟨title, about, first, ts, last, -, htitle, habout, hfirst, hts, hlast, rfl⟩ :=
    (main_eq_ok hk).1 h
  -- the remarks are on one side of the tables, and nothing is on the other
  have hremarks (ms : List Markup) (hms : (remarks origin p.self).result = .ok ms) :
      Parts.AreOf ⟨breadcrumb root p.place, classed "h1" "page-header" (Markup.text title),
        betaNotice p.self, about, signature p.self, ts, ms⟩ origin root p k :=
    { way := rfl
      title := ⟨title, heading_eq_ok hk htitle, rfl⟩
      notice := rfl
      summary := summary_eq_ok habout
      signature := signature_eq p.self
      tables := body_tables hts
      remarks := remarks_eq_ok hms }
  have hfirstKinds : hasRemarksFirst k = true ↔
      (k = .classDecl ∨ k = .interface ∨ k = .namespaceDecl ∨ k = .package) := by
    cases k <;> decide
  cases hplace : hasRemarksFirst k with
  | true =>
    rw [hplace] at hfirst hlast
    cases hlast
    refine ⟨k, _, hk, hremarks first hfirst, ?_⟩
    rw [Parts.content, if_pos (hfirstKinds.1 hplace), List.append_nil]
    simp only [List.append_assoc]
  | false =>
    rw [hplace] at hfirst hlast
    cases hfirst
    refine ⟨k, _, hk, hremarks last hlast, ?_⟩
    rw [Parts.content, if_neg (mt hfirstKinds.2 (Bool.not_eq_true _ ▸ hplace)), List.append_nil]
    simp only [List.append_assoc]

/-- The type of an element and its class, if it has one. -/
def label : Markup → String × String
  | .element type attributes _ =>
    match attributes.lookup "class" with
    | some (.text c) => (type, c)
    | _ => (type, "")
  | _ => ("", "")

/-- The elements of an item's page, when there are so many steps on the way to it and so many tables
with rows. -/
def outline (k : Kind) (d : Declaration) (steps tables : Nat) : List (String × String) :=
  let remarks := if (d.comment.bind Comment.remarks).isSome then [("div", "remarks"), ("div", "")]
    else []
  let pairs := (List.replicate tables [("h3", "section-heading"), ("table", "")]).flatten
  ("a", "breadcrumb") ::
    (List.replicate steps [("span", "breadcrumb"), ("a", "breadcrumb")]).flatten ++
    [("h1", "page-header")] ++
    (if d.release = some .beta then [("div", "beta-warning")] else []) ++
    (if d.comment.isSome then [("div", "summary")] else []) ++
    (if d.excerpt.toList.all Text.isBlank then []
      else [("div", "signature-heading"), ("pre", "signature")]) ++
    if k = .classDecl ∨ k = .interface ∨ k = .namespaceDecl ∨ k = .package
    then remarks ++ pairs else pairs ++ remarks

theorem IfGiven.labels {α : Type} {Shows : α → List Markup → Prop} {x : Option α}
    (h : IfGiven Shows x ms) {labels : List (String × String)}
    (hshows : ∀ a ms, Shows a ms → ms.map label = labels) :
    ms.map label = if x.isSome then labels else [] := by
  cases h with
  | missing => rfl
  | given h => exact hshows _ _ h

theorem labels_flatMap {α : Type} {f : α → List Markup} {labels : List (String × String)}
    (xs : List α) (hf : ∀ x, (f x).map label = labels) :
    (xs.flatMap f).map label = (List.replicate xs.length labels).flatten := by
  induction xs with
  | nil => rfl
  | cons x xs ih =>
    rw [List.flatMap_cons, List.map_append, hf, ih, List.length_cons, List.replicate_succ,
      List.flatten_cons]

theorem exists_labels_flatMap {α : Type} {f : α → List Markup} {labels : List (String × String)}
    (xs : List α) (hf : ∀ x, f x = [] ∨ (f x).map label = labels) :
    ∃ n, (xs.flatMap f).map label = (List.replicate n labels).flatten := by
  induction xs with
  | nil => exact ⟨0, rfl⟩
  | cons x xs ih =>
    obtain ⟨n, hn⟩ := ih
    rw [List.flatMap_cons, List.map_append, hn]
    rcases hf x with hx | hx
    · exact ⟨n, by rw [hx, List.map_nil, List.nil_append]⟩
    · exact ⟨n + 1, by rw [hx, List.replicate_succ, List.flatten_cons]⟩

/-- Tables are shown in pairs with their titles. -/
theorem AreTables.labels {ts : List Markup} (h : AreTables origin p k ts) : ∃ n, ts.map label =
    (List.replicate n [("h3", "section-heading"), ("table", "")]).flatten := by
  cases h with
  | @members rows hk hrows =>
    refine exists_labels_flatMap (allOn k) fun t => ?_
    split
    · exact .inl rfl
    · exact .inr rfl
  | parameters hk =>
    split
    · exact ⟨0, rfl⟩
    · exact ⟨1, rfl⟩
  | none hk hf => exact ⟨0, rfl⟩

theorem Parts.AreOf.labels {ps : Parts} (h : ps.AreOf origin root p k) :
    ∃ n, (ps.content k).map label = outline k p.self (trail p.place).length n := by
  obtain ⟨n, htables⟩ := h.tables.labels
  obtain ⟨heading, -, htitle⟩ := h.title
  have hway : ps.way.map label = ("a", "breadcrumb") ::
      (List.replicate (trail p.place).length [("span", "breadcrumb"), ("a", "breadcrumb")]).flatten := by
    rw [h.way, List.map_cons]
    exact congrArg (("a", "breadcrumb") :: ·) (labels_flatMap _ fun _ => rfl)
  have hnotice : ps.notice.map label =
      if p.self.release = some .beta then [("div", "beta-warning")] else [] := by
    rw [h.notice]
    split <;> rfl
  have hsummary : ps.summary.map label =
      if p.self.comment.isSome then [("div", "summary")] else [] := by
    apply h.summary.labels
    rintro c ms ⟨about, -, rfl⟩
    rfl
  have hsignature : ps.signature.map label =
      if p.self.excerpt.toList.all Text.isBlank then []
      else [("div", "signature-heading"), ("pre", "signature")] := by
    rw [h.signature]
    split <;> rfl
  have hremarks : ps.remarks.map label =
      if (p.self.comment.bind Comment.remarks).isSome then [("div", "remarks"), ("div", "")]
      else [] := by
    apply h.remarks.labels
    rintro nodes ms ⟨more, -, rfl⟩
    rfl
  -- each part has been labelled by itself, and the page is the parts one after the other
  refine ⟨n, ?_⟩
  have htitleLabel : label ps.title = ("h1", "page-header") := by
    rw [htitle]
    rfl
  rw [Parts.content, outline]
  simp only [List.map_append, List.map_cons, List.map_nil, hway, htitleLabel, hnotice, hsummary,
    hsignature, apply_ite (List.map label), hremarks, htables]

/-- Whatever the item, its remarks are there once if it has any. -/
theorem count_remarks_outline (k : Kind) (d : Declaration) (steps tables : Nat) :
    (outline k d steps tables).count ("div", "remarks") =
      if (d.comment.bind Comment.remarks).isSome then 1 else 0 := by
  have hpairs (n : Nat) (pair : List (String × String)) (h : ("div", "remarks") ∉ pair) :
      (List.replicate n pair).flatten.count ("div", "remarks") = 0 := by
    apply List.count_eq_zero.2
    intro hmem
    obtain ⟨l, hl, hmem⟩ := List.mem_flatten.1 hmem
    exact h (List.eq_of_mem_replicate hl ▸ hmem)
  have hsteps := hpairs steps [("span", "breadcrumb"), ("a", "breadcrumb")] (by decide)
  have htables := hpairs tables [("h3", "section-heading"), ("table", "")] (by decide)
  unfold outline
  simp only [List.count_append, List.count_cons, apply_ite (List.count ("div", "remarks")), hsteps,
    htables]
  simp

end Page

namespace Site

variable {Event : Type} {s : Site Event} {p : Placed}

/-- The page of an item shows the parts from top to bottom and nothing else, each where its kind has
it, and the remarks once if there are any. -/
structure LaidOut (s : Site Event) (p : Placed) (k : Kind) (ps : Page.Parts) : Prop where
  kind : p.self.kind.kind? = some k
  parts : ps.AreOf s.origin s.model.place p k
  shown : s.Shows p (ps.content k)
  outline : ∃ tables, (ps.content k).map Page.label =
    Page.outline k p.self (Page.trail p.place).length tables
  remarks : ((ps.content k).map Page.label).count ("div", "remarks") =
    if (p.self.comment.bind Comment.remarks).isSome then 1 else 0

theorem Shows.laidOut {content : List Markup} (h : s.Shows p content) :
    ∃ k ps, content = ps.content k ∧ s.LaidOut p k ps := by
  obtain ⟨k, ps, hk, hparts, rfl⟩ := Page.main_content h.main
  obtain ⟨n, hlabels⟩ := hparts.labels
  have hcount := Page.count_remarks_outline k p.self (Page.trail p.place).length n
  rw [← hlabels] at hcount
  exact ⟨k, ps, rfl, hk, hparts, h, ⟨n, hlabels⟩, hcount⟩

/-- Whatever becomes of a run, the pages that it has written are laid out in the parts that show what
their items say about themselves. Where the output path leads to the emptied folder, this is what the
files hold when the run is over. -/
theorem pages_have_documented_layout (s : Site Event) (output : Path) (disk : Disk)
    (active : Option (Feature.Active Event)) :
    let run := s.generate output disk active
    ∃ done, done <+: s.model.pages ∧ run.2.written = done.map (pageFile output) ∧
      ∀ p ∈ done, ∃ k ps t, s.LaidOut p k ps ∧
        Markup.render (Page.tree s.config (ps.content k)) = .ok t ∧
        ∀ dir, EmptiesTo output disk dir → run.2.disk.read (pageFile output p) =
          .ok (s.config.lineEnd.apply ("<!DOCTYPE html>\n" ++ t ++ "\n")).toUTF8 := by
  intro run
  obtain ⟨-, done, hdone, -, hwritten, hread⟩ := s.generate_pages_read output disk active
  refine ⟨done, hdone, hwritten, fun p hp => ?_⟩
  obtain ⟨text, htext, hfile⟩ := hread p hp
  obtain ⟨content, hshows⟩ := shows_of_pageText htext
  obtain ⟨k, ps, rfl, hlaid⟩ := hshows.laidOut
  obtain ⟨t, hrender, ht⟩ := hlaid.shown.text
  rw [htext] at ht
  cases ht
  exact ⟨k, ps, t, hlaid, hrender, hfile⟩

/-- A class that is not yet stable, with all that a page can show. -/
def notedClass : Item :=
  .mk { kind := .known .classDecl, name := "Dial", excerpt := "class Dial", release := some .beta,
        comment := some ⟨[.plain Comment.plainKind (.text "Turns.")],
          some [.plain Comment.plainKind (.text "Slowly.")]⟩ }
    [.mk { kind := .known .method, name := "turn" } []]

def notedSite : Site Unit where
  model := notedClass.placed
  config? := none
  origin := .site
  registry := []
  stylesheet := ⟨.root, ["styles.css"]⟩

/-- The remarks of a class stand in front of its tables. -/
theorem noted_class_is_laid_out :
    let run := notedSite.generate plainOutput plainDisk none
    pageFile plainOutput notedSite.model ∈ run.2.written ∧
      ∃ ps, notedSite.LaidOut notedSite.model .classDecl ps ∧
        (ps.content .classDecl).map Page.label =
          [("a", "breadcrumb"), ("span", "breadcrumb"), ("a", "breadcrumb"), ("h1", "page-header"),
            ("div", "beta-warning"), ("div", "summary"), ("div", "signature-heading"),
            ("pre", "signature"), ("div", "remarks"), ("div", ""), ("h3", "section-heading"),
            ("table", "")] := by
  intro run
  have hcount : run.2.written.length = notedSite.model.pages.length := by decide +kernel
  obtain ⟨done, hdone, hwritten, hlaid⟩ :=
    pages_have_documented_layout notedSite plainOutput plainDisk none
  have hall : done = notedSite.model.pages := by
    apply hdone.eq_of_length
    rw [← hcount, hwritten, List.length_map]
  have hmodel : notedSite.model ∈ done := by
    rw [hall, Placed.pages]
    exact List.mem_cons_self
  obtain ⟨k, ps, t, hparts, -⟩ := hlaid _ hmodel
  obtain rfl : .classDecl = k := Option.some.inj hparts.kind
  have hlabels : some ((ps.content .classDecl).map Page.label) =
      (Page.main notedSite.origin notedSite.model.place notedSite.model).result.toOption.map
        (List.map Page.label) := by
    rw [hparts.shown.main]
    rfl
  exact ⟨hwritten ▸ List.mem_map_of_mem hmodel, ps, hparts,
    Option.some.inj (hlabels.trans (by decide +kernel))⟩

end Site

end RefSite
