import RefSite.Proofs.Item.Texts
import RefSite.Proofs.Site.Members

namespace RefSite

open Value

variable {source : Option Path} {v : Value}

theorem forall₂_comp {α β γ : Type} {R : α → β → Prop} {S : β → γ → Prop} {as : List α}
    {bs : List β} {cs : List γ} (h : List.Forall₂ R as bs) (h' : List.Forall₂ S bs cs) :
    List.Forall₂ (fun a c => ∃ b, R a b ∧ S b c) as cs := by
  induction h generalizing cs with
  | nil =>
    cases h'
    exact .nil
  | cons hab _ ih =>
    cases h' with
    | cons hbc htail => exact .cons ⟨_, hab, hbc⟩ (ih htail)

/-- The members of an enumeration stand right below it, and say what their mappings say. -/
theorem Item.Keeps.members_of_enum {i : Item} (h : i.Keeps v)
    (hkind : i.self.kind.kind? = some .enum) : ∃ es vs, v.body = .map es ∧
      (membersField es).givenElements = .ok vs ∧ List.Forall₂ Keeps vs i.members := by
  obtain ⟨es, vs, ms, hv, -, hvs, hms, hi⟩ := h.parts
  have hneeds : needsEntryPoint i.self es = false := by
    rw [needsEntryPoint, Declaration.is, KindLabel.is, hkind]
    rfl
  have hmembers : i.members = ms := by
    rw [hi, assemble, hneeds]
    rfl
  exact ⟨es, vs, hv, hvs, hmembers ▸ hms⟩

namespace Site

variable {Event : Type} {s : Site Event}

theorem forMember_enum (d : Declaration) :
    Section.forMember? .enum d = some Section.enumMembers := by
  unfold Section.forMember?
  cases d.kind.kind? <;> rfl

/-- The row of an enumeration member shows its signature and its value, each as a text. -/
theorem enumMember_row {origin : Log.Origin} {m : Placed} {row : Markup}
    (h : Page.IsRowOf origin Section.enumMembers m row) :
    ∃ about, row = Markup.row
      [Markup.text m.self.conciseSignature, Markup.text m.self.initializer, about] := by
  obtain ⟨cs, hcs, rfl⟩ := h
  obtain _ | ⟨hname, _ | ⟨hvalue, _ | ⟨habout, ⟨⟩⟩⟩⟩ := hcs
  cases hname
  cases hvalue
  exact ⟨_, rfl⟩

/-- The page of an enumeration shows a row for each of its members. -/
theorem enum_table {i : Item} {above : List Declaration} {content : List Markup}
    (hkind : i.self.kind.kind? = some .enum) (h : s.Shows (i.placedBelow above) content) :
    ∃ rows, Page.titled "Enumeration Members" ["Member", "Value", "Description"] rows <:+:
        content ∧
      List.Forall₂ (fun m row => ∃ about, row = Markup.row
        [Markup.text m.self.conciseSignature, Markup.text m.self.initializer, about])
        i.members rows := by
  have hself : (i.placedBelow above).self.kind.kind? = some .enum := by
    rw [Placed.self, Item.place_placedBelow]
    exact hkind
  obtain ⟨-, htables⟩ := Page.main_tables hself (by decide) h.main
  obtain ⟨rows, hrows, hcontent⟩ := htables Section.enumMembers (by decide)
  refine ⟨rows, hcontent, ?_⟩
  -- no member is passed over
  have hall : ((i.placedBelow above).listed .enum).filter
      (fun m => Section.forMember? .enum m.self = some Section.enumMembers) =
      i.members.map (Item.placedBelow (above ++ [i.self])) := by
    rw [← Item.members_placedBelow]
    exact List.filter_eq_self.2 fun m _ => by simp [forMember_enum]
  rw [hall, List.forall₂_map_left_iff] at hrows
  refine hrows.imp fun m row hrow => ?_
  obtain ⟨about, hrow⟩ := enumMember_row hrow
  rw [Placed.self, Item.place_placedBelow] at hrow
  exact ⟨about, hrow⟩

/-- Reading keeps the texts of a model file. What is read says what its mapping says: every field
for a text is read in the written form of its value, at every depth of items and comments, unless
the value is overlooked. Wherever an enumeration has its page, the table of its members shows the
same: one row for each, in their order, with the text that the initializer is read as. -/
theorem read_texts_are_kept {i : Item} (h : Item.ofValue source v = .ok i) :
    i.Keeps v ∧
    ∀ (w : Value) (j : Item), j.Keeps w → j.self.kind.kind? = some .enum →
      ∀ {Event : Type} (s : Site Event) (above : List Declaration) (content : List Markup),
        s.Shows (j.placedBelow above) content →
        ∃ es vs rows, w.body = .map es ∧ (Item.membersField es).givenElements = .ok vs ∧
          Page.titled "Enumeration Members" ["Member", "Value", "Description"] rows <:+:
            content ∧
          List.Forall₂ (fun u row => ∃ fields name value about, u.body = .map fields ∧
            (Entries.field fields "initializer").IsReadAs value ∧
            row = Markup.row [Markup.text name, Markup.text value, about]) vs rows := by
  refine ⟨Item.keeps_of_ofValue h, ?_⟩
  intro w j hj hkind _ s above content hshows
  obtain ⟨es, vs, hw, hvs, hms⟩ := hj.members_of_enum hkind
  obtain ⟨rows, hcontent, hrows⟩ := enum_table hkind hshows
  refine ⟨es, vs, rows, hw, hvs, hcontent, ?_⟩
  -- each mapping is that of a member, and the member has its row
  have hmembers := forall₂_comp hms hrows
  refine hmembers.imp fun u row hrow => ?_
  obtain ⟨m, hm, about, rfl⟩ := hrow
  obtain ⟨fields, -, -, hu, hd, -⟩ := hm.parts
  exact ⟨fields, _, _, about, hu, hd.initializer, rfl⟩

/-- The fields of an enumeration member with the given initializer. -/
def memberFields (initializer : Value) : Entries :=
  [(.text "kind", .text "EnumMember"), (.text "name", .text "Low"),
    (.text "initializer", initializer)]

def enumFields (initializer : Value) : Entries :=
  [(.text "kind", .text "Enum"), (.text "name", .text "Level"),
    (.text "members", .list [.map (memberFields initializer)])]

def memberOf (value : String) : Item :=
  .mk { kind := .known .enumMember, name := "Low", initializer := value } []

def enumOf (value : String) : Item :=
  .mk { kind := .known .enum, name := "Level" } [memberOf value]

theorem ofValue_enumFields {s : String} (h : v.writeOrEmpty = .ok s) :
    Item.ofValue none (.map (enumFields v)) = .ok (enumOf s) := by
  have hmember : Item.declarationOf none (memberFields v) = .ok (memberOf s).self := by
    have hkind : Item.kindOfValue none (.text "EnumMember") = .ok .enumMember := rfl
    have hname : (Value.text "Low").writeOrEmpty = .ok "Low" := rfl
    simp only [Item.declarationOf, memberFields, Entries.field_cons]
    simp [hkind, h, hname, bind, Except.bind]
    rfl
  exact Item.ofValue_of_parts rfl rfl (.cons (Item.ofValue_of_parts hmember rfl .nil rfl) .nil) rfl

/-- A site with one enumeration. -/
def enumSite (value : String) : Site Unit := siteOf [entryPointOf [enumOf value]]

/-- The levels above the enumeration. -/
def enumAbove : List Declaration := [(rootOf []).self, (packageOf []).self, (entryPointOf []).self]

/-- A whole number is read and shown in its written form. -/
theorem seven_is_shown :
    Item.ofValue none (.map (enumFields (.int 7))) = .ok (enumOf "7") ∧
      (enumOf "7").Keeps (.map (enumFields (.int 7))) ∧
      ∃ content name about, (enumSite "7").Shows ((enumOf "7").placedBelow enumAbove) content ∧
        Page.titled "Enumeration Members" ["Member", "Value", "Description"]
          [Markup.row [Markup.text name, Markup.text "7", about]] <:+: content := by
  have hwritten : (Value.int 7).written? = some "7" := by decide +kernel
  have hread : Item.ofValue none (.map (enumFields (.int 7))) = .ok (enumOf "7") :=
    ofValue_enumFields (by simp [writeOrEmpty, writeOr, truthy, write, hwritten])
  obtain ⟨hkeeps, henums⟩ := read_texts_are_kept hread
  refine ⟨hread, hkeeps, ?_⟩
  obtain ⟨content, hshows⟩ : ∃ content,
      (enumSite "7").Shows ((enumOf "7").placedBelow enumAbove) content :=
    shows_of_built (by decide +kernel)
  obtain ⟨es, vs, rows, hes, hvs, hcontent, hrows⟩ := henums _ _ hkeeps rfl _ _ _ hshows
  cases hes
  cases hvs
  obtain _ | ⟨⟨fields, name, value, about, hfields, hvalue, rfl⟩, ⟨⟩⟩ := hrows
  cases hfields
  have hseven : Value.IsReadAs (.int 7) value := hvalue
  obtain rfl : "7" = value :=
    Option.some.inj (hwritten.symm.trans (hseven.written (by simp) rfl))
  exact ⟨content, name, about, hshows, hcontent⟩

/-- What is overlooked has a written form, but the member is read as one without a value. -/
theorem member_of_overlooked (h : v.isOverlooked = true) :
    (∃ s, v.written? = some s ∧ s ≠ "") ∧
      Item.ofValue none (.map (enumFields v)) = .ok (enumOf "") := by
  have hnot : v.truthy = false := (truthy_eq_false_iff v).2 (.inr (.inl h))
  have hempty : v.writeOrEmpty = .ok "" := by
    rw [writeOrEmpty, writeOr, hnot, if_neg (by decide)]
  exact ⟨written_of_isOverlooked h, ofValue_enumFields hempty⟩

/-- A zero has a written form, but it is read as the empty text, and the row of the member shows no
value. -/
theorem zero_is_lost :
    (Value.int 0).written? = some "0" ∧
      Item.ofValue none (.map (enumFields (.int 0))) = .ok (enumOf "") ∧
      ∃ content about, (enumSite "").Shows ((enumOf "").placedBelow enumAbove) content ∧
        Page.titled "Enumeration Members" ["Member", "Value", "Description"]
          [Markup.row [Markup.text "Low", Markup.text "", about]] <:+: content := by
  refine ⟨by decide +kernel, (member_of_overlooked rfl).2, ?_⟩
  obtain ⟨content, hshows⟩ : ∃ content,
      (enumSite "").Shows ((enumOf "").placedBelow enumAbove) content :=
    shows_of_built (by decide +kernel)
  obtain ⟨rows, hcontent, hrows⟩ := enum_table rfl hshows
  obtain _ | ⟨⟨about, rfl⟩, ⟨⟩⟩ := hrows
  exact ⟨content, about, hshows, hcontent⟩

end Site

end RefSite
