import RefSite.Item.Encode
import RefSite.Proofs.Comment.RoundTrip

namespace RefSite.Item

theorem mapM_map_eq_ok {α β ε : Type} {f : β → Except ε α} {g : α → β}
    (h : ∀ a, f (g a) = .ok a) (as : List α) : (as.map g).mapM f = .ok as := by
  induction as with
  | nil => rfl
  | cons a as ih =>
    rw [List.map_cons, List.mapM_cons, h, ih]
    rfl

theorem parametersOfValue_toValues (source : Option Path) (ps : List Parameter) :
    parametersOfValue source (.list (ps.map Parameter.toValue)) = .ok ps := by
  rw [parametersOfValue, Value.givenElements_list]
  exact mapM_map_eq_ok (parameterOfValue_toValue source) ps

theorem modifiersOfValue_texts (ss : List String) :
    modifiersOfValue (.list (ss.map .text)) = .ok ss := by
  rw [modifiersOfValue, Value.givenElements_list]
  exact mapM_map_eq_ok Value.write_text ss

theorem commentOfValue_commentToValue (source : Option Path) {c : Option Comment}
    (h : c.all Comment.isReadable = true) : Comment.ofValue source (commentToValue c) = .ok c := by
  cases c with
  | none => rfl
  | some c => exact Comment.ofValue_toValue source h

/-- What an item says about itself reads back, whatever fields come after. -/
theorem declarationOf_declarationFields (source : Option Path) {d : Declaration} (es : Entries)
    (hk : d.kind.isKnown = true) (hc : d.comment.all Comment.isReadable = true) :
    declarationOf source (declarationFields d ++ es) = .ok d := by
  obtain ⟨kind, name, comment, excerpt, modifiers, release, parameters, overload, isStatic,
    isEvent, propertyType, initializer⟩ := d
  cases kind with
  | bare s => exact nomatch hk
  | known k =>
    have hcomment := commentOfValue_commentToValue source hc
    simp only [declarationOf, declarationFields, List.cons_append, Entries.field_cons]
    simp [KindLabel.text, kindOfValue_name, Value.writeOrEmpty_text, hcomment,
      modifiersOfValue_texts, releaseOfValue_releaseToValue, parametersOfValue_toValues,
      overloadOfValue, Value.toInt_int, Value.truthy, bind, Except.bind, pure, Except.pure]

/-- No field of a declaration stands for members. -/
theorem get_declarationFields (d : Declaration) (es : Entries) {key : String}
    (h : key = "entryPoints" ∨ key = "members") :
    Entries.get? (declarationFields d ++ es) key = Entries.get? es key := by
  obtain rfl | rfl := h <;> simp [declarationFields, Entries.get_cons]

def fields (d : Declaration) (members : List Value) : Entries :=
  declarationFields d ++ [(.text (membersKey d), .list members)]

theorem givenElements_membersField (d : Declaration) (vs : List Value) :
    (membersField (fields d vs)).givenElements = .ok vs := by
  have hget {key : String} (h : key = "entryPoints" ∨ key = "members") :
      Entries.get? (fields d vs) key = if membersKey d = key then some (.list vs) else none := by
    rw [fields, get_declarationFields d _ h, Entries.get_cons]
    rfl
  simp only [membersField, Entries.field, hget (.inl rfl), hget (.inr rfl), membersKey]
  by_cases h : d.is .package = true
  · -- an empty list of entry points does not count as given, and there are no members then
    cases vs <;> simp [h, Value.truthy, Value.givenElements, Value.elements_list]
  · simpa [h, Value.truthy] using Value.givenElements_list vs

theorem assemble_fields (d : Declaration) (vs : List Value) (ms : List Item) :
    assemble d (fields d vs) ms = mk d ms := by
  -- a package has its entry points among its fields, and nothing else needs one
  have hn : needsEntryPoint d (fields d vs) = false := by
    rw [needsEntryPoint, fields, get_declarationFields d _ (.inl rfl), membersKey]
    by_cases h : d.is .package = true <;> simp [h, Entries.get_cons]
  rw [assemble, if_neg (by simp [hn])]

theorem ofValue_map (source : Option Path) (es : Entries) :
    ofValue source (.map es) =
      match declarationOf source es with
      | .error f => .error f
      | .ok d =>
        match (membersField es).givenElements with
        | .error f => .error f
        | .ok vs =>
          match ofValues source vs with
          | .error f => .error f
          | .ok ms => .ok (assemble d es ms) := by
  rw [ofValue, Value.entriesOr_map]
  dsimp only
  cases declarationOf source es with
  | error f => rfl
  | ok d =>
    dsimp only
    split
    · next f hf =>
      rewrite [hf]
      rfl
    · next vs hvs =>
      rewrite [hvs]
      rfl

mutual

theorem ofValue_toValue (source : Option Path) : ∀ {i : Item}, i.isReadable = true →
    ofValue source i.toValue = .ok i
  | mk d ms, h => by
    rw [isReadable, Bool.and_eq_true, Bool.and_eq_true] at h
    obtain ⟨⟨hk, hc⟩, hms⟩ := h
    have hd : declarationOf source (fields d (toValues ms)) = .ok d :=
      declarationOf_declarationFields source _ hk hc
    rw [toValue, ofValue_map, ← fields, hd]
    dsimp only
    rw [givenElements_membersField]
    dsimp only
    rw [ofValues_toValues source hms]
    dsimp only
    rw [assemble_fields]

theorem ofValues_toValues (source : Option Path) : ∀ {is : List Item}, areReadable is = true →
    ofValues source (toValues is) = .ok is
  | [], _ => by rw [toValues, ofValues]
  | i :: is, h => by
    rw [areReadable, Bool.and_eq_true] at h
    rw [toValues, ofValues, ofValue_toValue source h.1, ofValues_toValues source h.2]

end

/-- Reading the written form of a tree gives the tree, from any source, and two trees never have the
same written form. -/
theorem written_items_read_back (source : Option Path) (i : Item) (h : i.isReadable = true) :
    ofValue source i.toValue = .ok i ∧
      ∀ j : Item, j.isReadable = true → j.toValue = i.toValue → j = i := by
  refine ⟨ofValue_toValue source h, ?_⟩
  intro j hj hij
  have hread := ofValue_toValue source hj
  rw [hij, ofValue_toValue source h] at hread
  exact (Except.ok.inj hread).symm

/-- A package without entry points, with a comment whose remarks are empty and whose summary holds
nodes inside nodes, one of them of no known kind, and with an overload beyond every machine word. -/
theorem documented_package_reads_back :
    let nodes := [Comment.Node.paragraph "Paragraph"
      [.plain "PlainText" (.text ""), .link "LinkTag" .null .null (.text "Widget"), .bare "Fence"]]
    let i := mk { kind := .known .package, name := "@scope/widgets", comment := some ⟨nodes, some []⟩,
                  modifiers := [""], overload := Int.ofNat (Nat.pow 2 70), release := some .unstated } []
    i.isReadable = true ∧ ofValue none i.toValue = .ok i :=
  ⟨by decide, (written_items_read_back none _ (by decide)).1⟩

end RefSite.Item
