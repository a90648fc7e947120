import RefSite.Proofs.Comment.Showing
import RefSite.Proofs.Item.Reading
import RefSite.Proofs.Site.Links

namespace RefSite

/-- The item is of a known kind, its comment can be shown, and the number of its overload can be
written. -/
structure Declaration.IsShowable (d : Declaration) : Prop where
  kind : d.kind.isKnown = true
  comment : ∀ c, d.comment = some c → c.IsShowable
  overload : Place.hasWritableOverload d = true

theorem Declaration.IsShowable.kind? {d : Declaration} (h : d.IsShowable) :
    ∃ k, d.kind.kind? = some k := by
  have hk := h.kind
  cases hd : d.kind with
  | known k => exact ⟨k, rfl⟩
  | bare s =>
    rw [hd] at hk
    exact nomatch hk

/-- Everything on the way to a place can be shown. -/
def Place.IsShowable (p : Place) : Prop := ∀ d ∈ p.levels, d.IsShowable

theorem Place.IsShowable.self {p : Place} (h : p.IsShowable) : p.self.IsShowable :=
  h p.self (List.mem_append_right _ List.mem_cons_self)

theorem Place.IsShowable.isNameable {p : Place} (h : p.IsShowable) : p.isNameable = true := by
  have hall : p.levels.all hasWritableOverload = true :=
    List.all_eq_true.2 fun d hd => (h d hd).overload
  rw [Place.isNameable, hall, Bool.or_true]

namespace Placed

/-- Everything in a tree of places, and on the way to it, can be shown. -/
def IsShowable (p : Placed) : Prop :=
  ∃ above i, p = Item.placedBelow above i ∧ (∀ d ∈ above, d.IsShowable) ∧
    ∀ d ∈ i.declarations, d.IsShowable

variable {p q : Placed}

theorem mem_declarationsOf {i : Item} {is : List Item} {d : Declaration} (hi : i ∈ is)
    (hd : d ∈ i.declarations) : d ∈ Item.declarationsOf is := by
  induction is with
  | nil => exact nomatch hi
  | cons j js ih =>
    rw [Item.declarationsOf, List.mem_append]
    obtain rfl | hi := List.mem_cons.1 hi
    · exact .inl hd
    · exact .inr (ih hi)

theorem IsShowable.place (h : p.IsShowable) : p.place.IsShowable := by
  obtain ⟨above, ⟨d, ms⟩, rfl, habove, hi⟩ := h
  rw [Item.place_placedBelow]
  refine List.forall_mem_append.2 ⟨habove, List.forall_mem_singleton.2 (hi d ?_)⟩
  rw [Item.declarations]
  exact List.mem_cons_self

theorem IsShowable.of_mem_members (h : p.IsShowable) (hq : q ∈ p.members) : q.IsShowable := by
  have hp := h.place
  obtain ⟨above, ⟨d, ms⟩, rfl, habove, hi⟩ := h
  rw [Item.members_placedBelow] at hq
  obtain ⟨j, hj, rfl⟩ := List.mem_map.1 hq
  rw [Item.place_placedBelow] at hp
  refine ⟨_, j, rfl, hp, fun e he => hi e ?_⟩
  rw [Item.declarations]
  exact List.mem_cons_of_mem _ (mem_declarationsOf hj he)

theorem IsShowable.of_lists (h : p.IsShowable) (hq : p.Lists q) : q.IsShowable := by
  obtain hq | ⟨e, he, -, hq⟩ := mem_members_of_lists hq
  · exact h.of_mem_members hq
  · exact (h.of_mem_members he).of_mem_members hq

end Placed

/-- Pages of the kind have a heading. -/
def Kind.HasPage (k : Kind) : Prop := ∀ name, ∃ s, Page.headingText? k name = some s

namespace Page

open Markup Failure

variable {origin : Log.Origin} {p : Place} {d : Declaration}

/-- A member with a page of its own is of a kind that pages have headings for. -/
theorem hasPage_of_forMember {page k : Kind} (hpage : page ≠ .enum)
    (hk : d.kind.kind? = some k) (h : (Section.forMember? page d).isSome = true) : k.HasPage := by
  intro name
  unfold Section.forMember? at h
  rw [hk] at h
  cases page <;> cases k <;> first | exact absurd rfl hpage | exact ⟨_, rfl⟩ | exact nomatch h

theorem hasPage_of_mem_children {p q : Placed} {k : Kind} (hq : q ∈ p.children)
    (hk : q.self.kind.kind? = some k) : k.HasPage := by
  unfold Placed.children at hq
  split at hq
  · exact nomatch hq
  · exact nomatch hq
  · next page hne _ => exact hasPage_of_forMember hne hk (List.mem_filter.1 hq).2

/-- The trail to a place leads along it. -/
theorem isShowable_of_mem_trail (h : p.IsShowable) {q : Place} (hq : q ∈ trail p) :
    q.IsShowable := by
  obtain ⟨i, hi, rfl⟩ := List.mem_map.1 hq
  have hlt : trailStart p.levels + i < p.levels.length := by
    have := List.mem_range.1 hi
    omega
  have hself : (p.levels.getD (trailStart p.levels + i) default).IsShowable := by
    rw [List.getD_eq_getElem _ _ hlt]
    exact h _ (List.getElem_mem hlt)
  have habove : ∀ d ∈ p.levels.take (trailStart p.levels + i), d.IsShowable :=
    fun d hd => h d (List.mem_of_mem_take hd)
  exact List.forall_mem_append.2 ⟨habove, List.forall_mem_singleton.2 hself⟩

theorem meets_expectNameable {ps : List Place} (h : ∀ q ∈ ps, q.IsShowable) :
    Meets IsCommentFault (fun _ => True) (expectNameable ps).result := by
  have hall : ps.all Place.isNameable = true := List.all_eq_true.2 fun q hq => (h q hq).isNameable
  rw [expectNameable, if_pos hall]
  trivial

theorem meets_heading {k : Kind} (hk : p.self.kind.kind? = some k) (hpage : k.HasPage) :
    Meets IsCommentFault (fun _ => True) (heading origin p).result := by
  unfold heading
  rw [hk]
  split
  · next h => exact nomatch h
  · trivial
  · next k' _ h =>
    cases h
    obtain ⟨s, hs⟩ := hpage p.scopedName
    rw [hs]
    trivial

theorem meets_summary (h : d.IsShowable) :
    Meets IsCommentFault (fun ms => ∀ m ∈ ms, m.Renders) (summary origin d).result := by
  unfold summary
  split
  · exact List.forall_mem_nil _
  · next c hc =>
    refine Logged.meets_bind (Comment.meets_nodesMarkup origin _ (h.comment c hc).1) fun ms hms => ?_
    exact List.forall_mem_singleton.2 (renders_classed_block "div" "summary" hms)

theorem meets_remarks (h : d.IsShowable) :
    Meets IsCommentFault (fun ms => ∀ m ∈ ms, m.Renders) (remarks origin d).result := by
  unfold remarks
  split
  · exact List.forall_mem_nil _
  · next ns hns =>
    obtain ⟨c, hc, hr⟩ := Option.bind_eq_some_iff.1 hns
    have hshow := (h.comment c hc).2 ns hr
    refine Logged.meets_bind (Comment.meets_nodesMarkup origin ns hshow) fun ms hms => ?_
    refine List.forall_mem_cons.2 ⟨renders_classed_text _ _ _, ?_⟩
    exact List.forall_mem_singleton.2 (renders_plain_block "div" hms)

theorem meets_cell (h : p.IsShowable) (c : Cell) :
    Meets IsCommentFault (fun m => m.Renders ∨ ∃ s, m = Markup.text s) (cell origin p c).result := by
  have empty (className : String) : (classed "div" className (block [])).Renders :=
    renders_classed_block _ _ (List.forall_mem_nil _)
  cases c with
  | reference =>
    refine Logged.meets_bind (meets_expectNameable (List.forall_mem_singleton.2 h)) fun _ _ => ?_
    exact .inl (renders_anchor _ _ _)
  | signature => exact .inr ⟨_, rfl⟩
  | modifiers =>
    simp only [cell]
    split
    · exact .inl (renders_classed_text _ _ _)
    · exact .inl (empty _)
  | propertyType => exact .inl (renders_classed_text _ _ _)
  | initializer => exact .inr ⟨_, rfl⟩
  | description =>
    simp only [cell]
    split
    · exact .inl (empty _)
    · next c hc =>
      refine Logged.meets_bind (Comment.meets_nodesMarkup origin _ (h.self.comment c hc).1) ?_
      exact fun ms hms => .inl (renders_classed_block _ _ hms)

theorem meets_cells (h : p.IsShowable) (cs : List Column) :
    Meets IsCommentFault (fun ms => ∀ m ∈ ms, m.Renders ∨ ∃ s, m = Markup.text s)
      (cells origin p cs).result := by
  induction cs with
  | nil => exact List.forall_mem_nil _
  | cons c cs ih =>
    exact Logged.meets_bind (meets_cell h c.cell) fun m hm =>
      Logged.meets_bind ih fun ms hms => List.forall_mem_cons.2 ⟨hm, hms⟩

theorem meets_rows (page : Kind) {ms : List Placed} (h : ∀ m ∈ ms, m.place.IsShowable) :
    Meets IsCommentFault (fun rs => ∀ r ∈ rs, r.2.Renders) (rows origin page ms).result := by
  induction ms with
  | nil => exact List.forall_mem_nil _
  | cons m ms ih =>
    obtain ⟨hm, hms⟩ := List.forall_mem_cons.1 h
    have hknown : m.self.kind.isKnown = true := hm.self.kind
    rw [rows, hknown, if_neg (by decide)]
    split
    · exact ih hms
    · refine Logged.meets_bind (meets_cells hm _) fun cs hcs => ?_
      refine Logged.meets_bind (ih hms) fun rest hrest => ?_
      exact List.forall_mem_cons.2 ⟨renders_row hcs, hrest⟩

theorem renders_titled (title : String) (headings : List String) {rs : List Markup}
    (h : ∀ r ∈ rs, r.Renders) : ∀ m ∈ titled title headings rs, m.Renders := by
  unfold titled
  split
  · exact List.forall_mem_nil _
  · refine List.forall_mem_cons.2 ⟨renders_classed_text _ _ _, ?_⟩
    exact List.forall_mem_singleton.2 (renders_table headings h)

theorem renders_tables (page : Kind) {rs : List (Section × Markup)} (h : ∀ r ∈ rs, r.2.Renders) :
    ∀ m ∈ tables page rs, m.Renders := by
  intro m hm
  obtain ⟨s, -, hm⟩ := List.mem_flatMap.1 hm
  refine renders_titled _ _ (fun r hr => ?_) m hm
  obtain ⟨x, hx, rfl⟩ := List.mem_map.1 hr
  exact h x (List.mem_filter.1 hx).1

theorem renders_parameterTable (d : Declaration) : ∀ m ∈ parameterTable d, m.Renders := by
  refine renders_titled _ _ fun r hr => ?_
  obtain ⟨q, -, rfl⟩ := List.mem_map.1 hr
  refine renders_row (List.forall_mem_cons.2 ⟨.inr ⟨_, rfl⟩, ?_⟩)
  exact List.forall_mem_singleton.2 (.inr ⟨_, rfl⟩)

theorem meets_body {k : Kind} {p : Placed} (hk : p.self.kind.kind? = some k) (h : p.IsShowable) :
    Meets IsCommentFault (fun ms => ∀ m ∈ ms, m.Renders) (body origin k p).result := by
  have hparameters : ∀ m ∈ (if k.isFunctionLike then parameterTable p.self else []), m.Renders := by
    split
    · exact renders_parameterTable p.self
    · exact List.forall_mem_nil _
  have hlisted : ∀ m ∈ p.listed k, m.place.IsShowable :=
    fun m hm => (h.of_lists ⟨k, hk, hm⟩).place
  unfold body
  dsimp only
  split
  · have hnone : ∀ m ∈ tables k [], m.Renders := renders_tables k (List.forall_mem_nil _)
    exact List.forall_mem_append.2 ⟨hnone, hparameters⟩
  · exact Logged.meets_bind (meets_rows k hlisted) fun rs hrs =>
      List.forall_mem_append.2 ⟨renders_tables k hrs, hparameters⟩

theorem renders_breadcrumb (root p : Place) : ∀ m ∈ breadcrumb root p, m.Renders := by
  have level (q : Place) : ∀ m ∈ [classed "span" "breadcrumb" (Markup.text " / "),
      anchor q.self.name q.link "breadcrumb"], m.Renders :=
    List.forall_mem_cons.2 ⟨renders_classed_text _ _ _,
      List.forall_mem_singleton.2 (renders_anchor _ _ _)⟩
  refine List.forall_mem_cons.2 ⟨renders_anchor _ _ _, fun m hm => ?_⟩
  obtain ⟨q, -, hm⟩ := List.mem_flatMap.1 hm
  exact level q m hm

theorem renders_betaNotice (d : Declaration) : ∀ m ∈ betaNotice d, m.Renders := by
  unfold betaNotice
  split
  · exact List.forall_mem_singleton.2 (renders_classed_block _ _ (List.forall_mem_nil _))
  · exact List.forall_mem_nil _

theorem renders_signature (d : Declaration) : ∀ m ∈ signature d, m.Renders := by
  unfold signature
  split
  · exact List.forall_mem_nil _
  · refine List.forall_mem_cons.2 ⟨renders_classed_text _ _ _, ?_⟩
    exact List.forall_mem_singleton.2 (renders_classed_text _ _ _)

theorem meets_main {root : Place} {p : Placed} {k : Kind} (hroot : root.IsShowable)
    (h : p.IsShowable) (hk : p.self.kind.kind? = some k) (hpage : k.HasPage) :
    Meets IsCommentFault (fun ms => ∀ m ∈ ms, m.Renders) (main origin root p).result := by
  have htrail : ∀ q ∈ root :: trail p.place, q.IsShowable :=
    List.forall_mem_cons.2 ⟨hroot, fun q hq => isShowable_of_mem_trail h.place hq⟩
  have hshow := h.place.self
  -- whatever the parts that were computed hold, the others have texts
  have join {title : String} {about first tables last : List Markup}
      (habout : ∀ m ∈ about, m.Renders) (hfirst : ∀ m ∈ first, m.Renders)
      (htables : ∀ m ∈ tables, m.Renders) (hlast : ∀ m ∈ last, m.Renders) :
      ∀ m ∈ breadcrumb root p.place ++
        [classed "h1" "page-header" (Markup.text title)] ++ betaNotice p.self ++ about ++
        signature p.self ++ first ++ tables ++ last, m.Renders := by
    simp only [List.forall_mem_append]
    exact ⟨⟨⟨⟨⟨⟨⟨renders_breadcrumb _ _, List.forall_mem_singleton.2 (renders_classed_text _ _ _)⟩,
      renders_betaNotice _⟩, habout⟩, renders_signature _⟩, hfirst⟩, htables⟩, hlast⟩
  have hnone : Meets IsCommentFault (fun ms => ∀ m ∈ ms, m.Renders)
      (pure [] : Logged (List Markup)).result := List.forall_mem_nil _
  unfold main
  refine Logged.meets_bind (meets_expectNameable htrail) fun _ _ => ?_
  refine Logged.meets_bind (meets_heading hk hpage) fun title _ => ?_
  refine Logged.meets_bind (meets_summary hshow) fun about habout => ?_
  simp only [hk]
  have hpure : Meets IsCommentFault (fun j => j = k) (pure k : Logged Kind).result := rfl
  refine Logged.meets_bind hpure fun j hj => ?_
  subst hj
  by_cases hr : hasRemarksFirst j
  · simp only [hr, if_true]
    refine Logged.meets_bind (meets_remarks hshow) fun first hfirst => ?_
    refine Logged.meets_bind (meets_body hk h) fun tables htables => ?_
    exact Logged.meets_bind hnone fun last hlast => join habout hfirst htables hlast
  · simp only [hr]
    refine Logged.meets_bind hnone fun first hfirst => ?_
    refine Logged.meets_bind (meets_body hk h) fun tables htables => ?_
    exact Logged.meets_bind (meets_remarks hshow) fun last hlast => join habout hfirst htables hlast

theorem renders_tree (c : Config) {content : List Markup} (h : ∀ m ∈ content, m.Renders) :
    (tree c content).Renders := by
  have hbanner : (banner c).Renders := by
    apply renders_plain_block
    refine List.forall_mem_cons.2 ⟨?_, List.forall_mem_singleton.2 ?_⟩
    · exact renders_classed_block _ _ (List.forall_mem_singleton.2 (renders_anchor _ _ _))
    · exact renders_classed_block _ _ (List.forall_mem_nil _)
  apply renders_document
  exact List.forall_mem_cons.2 ⟨hbanner, List.forall_mem_singleton.2
    (renders_classed_block "div" "main" h)⟩

/-- The page of an item that can be shown has a text, or a node of its comment or of a member's is of
a kind that is not shown. -/
theorem meets_text (c : Config) {root : Place} {p : Placed} {k : Kind} (hroot : root.IsShowable)
    (h : p.IsShowable) (hk : p.self.kind.kind? = some k) (hpage : k.HasPage) :
    Meets IsCommentFault (fun _ => True) (text origin c root p).result := by
  refine Logged.meets_bind (meets_main hroot h hk hpage) fun content hcontent => ?_
  obtain ⟨s, hs⟩ := renders_tree c hcontent
  unfold tree at hs
  rw [renderDocument, hs]
  trivial

end Page

end RefSite
