import RefSite.Markup.Table

namespace RefSite.Markup

/-- The tree has a text. -/
def Renders (m : Markup) : Prop := ∃ s, render m = .ok s

/-- All attributes can be written. -/
def AreWritable (attributes : List (String × Value)) : Prop :=
  ∀ a ∈ attributes, ∃ s, a.2.written? = some s

variable {type : String} {attributes : List (String × Value)} {ms ns : List Markup}

theorem attributesText_of_areWritable (h : AreWritable attributes) :
    ∃ s, attributesText attributes = .ok s := by
  induction attributes with
  | nil => exact ⟨"", rfl⟩
  | cons a as ih =>
    obtain ⟨name, v⟩ := a
    obtain ⟨⟨s, hs⟩, has⟩ := List.forall_mem_cons.1 h
    obtain ⟨t, ht⟩ := ih has
    rw [attributesText]
    dsimp only at hs
    rw [hs, ht]
    exact ⟨_, rfl⟩

theorem renderAll_of_renders (h : ∀ m ∈ ms, m.Renders) : ∃ s, renderAll ms = .ok s := by
  induction ms with
  | nil => exact ⟨"", by rw [renderAll]⟩
  | cons m ms ih =>
    obtain ⟨⟨s, hs⟩, hms⟩ := List.forall_mem_cons.1 h
    obtain ⟨t, ht⟩ := ih hms
    exact ⟨s ++ t, by rw [renderAll, hs, ht]⟩

theorem renders_text (ha : AreWritable attributes) (s : String) :
    (element type attributes (text s)).Renders := by
  obtain ⟨t, ht⟩ := attributesText_of_areWritable ha
  exact ⟨enclose type t (escape s), by rw [render, ht]; rfl⟩

theorem renders_block (ha : AreWritable attributes) (h : ∀ m ∈ ms, m.Renders) :
    (element type attributes (block ms)).Renders := by
  obtain ⟨t, ht⟩ := attributesText_of_areWritable ha
  obtain ⟨inner, hinner⟩ := renderAll_of_renders h
  refine ⟨enclose type t inner, ?_⟩
  rw [render, ht]
  dsimp only
  rw [hinner]

theorem renders_void (ha : AreWritable attributes) : (element type attributes void).Renders := by
  obtain ⟨t, ht⟩ := attributesText_of_areWritable ha
  exact ⟨_, by rw [render, ht]; rfl⟩

/-- What is in an element that has a text has one. -/
theorem renders_of_block (h : (element type attributes (block ms)).Renders) :
    ∀ m ∈ ms, m.Renders := by
  have all {s : String} (hs : renderAll ms = .ok s) : ∀ m ∈ ms, m.Renders := by
    clear h
    induction ms generalizing s with
    | nil => exact List.forall_mem_nil _
    | cons m ms ih =>
      rw [renderAll] at hs
      split at hs
      · cases hs
      · next t ht =>
        split at hs
        · cases hs
        · next u hu => exact List.forall_mem_cons.2 ⟨⟨t, ht⟩, ih hu⟩
  obtain ⟨s, hs⟩ := h
  rw [render] at hs
  split at hs
  · cases hs
  · dsimp only at hs
    split at hs
    · next inner hinner => exact all hinner
    · cases hs

theorem areWritable_nil : AreWritable [] := fun _ h => nomatch h

theorem areWritable_cons {name s : String} {v : Value} (hv : v.written? = some s)
    (h : AreWritable attributes) : AreWritable ((name, v) :: attributes) :=
  List.forall_mem_cons.2 ⟨⟨s, hv⟩, h⟩

theorem areWritable_class (className : String) : AreWritable [("class", .text className)] :=
  areWritable_cons rfl areWritable_nil

theorem renders_plain_text (type s : String) : (plain type (text s)).Renders :=
  renders_text areWritable_nil s

theorem renders_plain_block (type : String) (h : ∀ m ∈ ms, m.Renders) :
    (plain type (block ms)).Renders := renders_block areWritable_nil h

theorem renders_classed_text (type className s : String) :
    (classed type className (text s)).Renders := renders_text (areWritable_class className) s

theorem renders_classed_block (type className : String) (h : ∀ m ∈ ms, m.Renders) :
    (classed type className (block ms)).Renders := renders_block (areWritable_class className) h

theorem renders_anchorOf {label href : String} {url : Value} (hurl : url.written? = some href) :
    (anchorOf (text label) url .null).Renders :=
  renders_text (areWritable_cons hurl areWritable_nil) label

theorem renders_anchor (label href className : String) : (anchor label href className).Renders := by
  refine renders_text (areWritable_cons rfl ?_) label
  split
  · exact areWritable_class className
  · exact areWritable_nil

/-- The cell of a text holds the text, and any other cell holds an element. -/
theorem renders_row (h : ∀ m ∈ ms, m.Renders ∨ ∃ s, m = text s) : (row ms).Renders := by
  apply renders_plain_block
  intro c hc
  obtain ⟨m, hm, rfl⟩ := List.mem_map.1 hc
  obtain hm | ⟨s, rfl⟩ := h m hm
  · unfold cell
    split
    · exact renders_plain_text "td" _
    · exact renders_plain_block "td" (List.forall_mem_singleton.2 hm)
  · exact renders_plain_text "td" s

theorem renders_table (headings : List String) (h : ∀ m ∈ ms, m.Renders) :
    (Table.toMarkup ⟨headings, ms⟩).Renders := by
  refine renders_plain_block "table" (List.forall_mem_cons.2 ⟨?_, h⟩)
  apply renders_plain_block
  refine List.forall_mem_singleton.2 (renders_plain_block "tr" fun m hm => ?_)
  obtain ⟨s, -, rfl⟩ := List.mem_map.1 hm
  exact renders_plain_text "th" s

/-- A page has a text when its content has. -/
theorem renders_document (styles : List String) (h : ∀ m ∈ ms, m.Renders) :
    (document styles ms).Renders := by
  have hstyles : ∀ m ∈ styles.map stylesheetLink, m.Renders := by
    intro m hm
    obtain ⟨href, -, rfl⟩ := List.mem_map.1 hm
    have hhref : AreWritable [("href", .text href)] := areWritable_cons rfl areWritable_nil
    exact renders_void (areWritable_cons rfl (areWritable_cons rfl hhref))
  apply renders_plain_block
  refine List.forall_mem_cons.2 ⟨renders_plain_block "head" hstyles, ?_⟩
  exact List.forall_mem_singleton.2 (renders_plain_block "body" h)

end RefSite.Markup
