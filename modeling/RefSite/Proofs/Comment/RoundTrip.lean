import RefSite.Comment.Encode

namespace RefSite

namespace Entries

theorem get_cons (k : String) (v : Value) (es : Entries) (key : String) :
    get? ((.text k, v) :: es) key = if k = key then some v else get? es key := by
  by_cases h : k = key <;> simp [get?, find?, Value.sameKey, h]

theorem field_cons (k : String) (v : Value) (es : Entries) (key : String) :
    field ((.text k, v) :: es) key = if k = key then v else field es key := by
  rw [field, get_cons]
  split <;> rfl

end Entries

namespace Comment

theorem isKind_cons (kind : String) (es : Entries) (k : String) :
    isKind ((.text "kind", .text kind) :: es) k = (kind == k) := by
  simp [isKind, Entries.field_cons]

theorem nodesOf_list (source : Option Path) (vs : List Value) :
    nodesOf source (.list vs) = nodesOfValues source vs := by
  rw [nodesOf]
  · rw [Value.elements_list]
  · simp

/-- An empty list does not count as given, and reads the same. -/
theorem givenNodesOf_list (source : Option Path) (vs : List Value) :
    givenNodesOf source (.list vs) = nodesOfValues source vs := by
  rw [givenNodesOf, nodesOf_list]
  cases vs with
  | nil => rw [if_neg (by simp [Value.truthy]), nodesOfValues]
  | cons v vs => rw [if_pos (by simp [Value.truthy])]

theorem nodeOfValue_map (source : Option Path) (es : Entries) :
    nodeOfValue source (.map es) =
      if isKind es paragraphKind then
        match givenNodesOf source (Entries.field es "nodes") with
        | .ok ns => .ok (.paragraph paragraphKind ns)
        | .error f => .error f
      else leafOfEntries es := by
  rw [nodeOfValue]
  rfl

theorem beq_shownKind_of_bare {kind : String} (h : (Node.bare kind).isReadable = true) :
    ∀ k ∈ shownKinds, (kind == k) = false := by
  rw [Node.isReadable, Bool.not_eq_true'] at h
  intro k hk
  rw [beq_eq_false_iff_ne]
  rintro rfl
  simp [hk] at h

mutual

theorem nodeOfValue_toValue (source : Option Path) : ∀ {n : Node}, n.isReadable = true →
    nodeOfValue source n.toValue = .ok n
  | .bare kind, h => by
    -- its kind is none of those that are looked for first
    have hk := beq_shownKind_of_bare h
    have hleaf : isKind [(.text "kind", .text kind)] softBreakKind = false ∧
        isKind [(.text "kind", .text kind)] codeKind = false ∧
        isKind [(.text "kind", .text kind)] linkKind = false ∧
        isKind [(.text "kind", .text kind)] plainKind = false := by
      simp only [isKind_cons]
      exact ⟨hk _ (by decide), hk _ (by decide), hk _ (by decide), hk _ (by decide)⟩
    rw [Node.toValue, nodeOfValue_map, isKind_cons, hk _ (by decide), if_neg (by decide)]
    simp [leafOfEntries, hleaf, Entries.field_cons, Value.write_text, Except.map]
  | .paragraph kind nodes, h => by
    rw [Node.isReadable, Bool.and_eq_true, beq_iff_eq] at h
    obtain ⟨rfl, hn⟩ := h
    rw [Node.toValue, nodeOfValue_map, isKind_cons, if_pos (by decide)]
    simp [Entries.field_cons, givenNodesOf_list, nodesOfValues_toValues source hn]
  | .softBreak kind, h => by
    rw [Node.isReadable, beq_iff_eq] at h
    rw [h, Node.toValue, nodeOfValue_map, isKind_cons, if_neg (by decide)]
    simp [leafOfEntries, isKind_cons]
  | .code kind content, h => by
    rw [Node.isReadable, Bool.and_eq_true, beq_iff_eq] at h
    obtain ⟨rfl, hc⟩ := h
    cases content with
    | text s =>
      rw [Node.toValue, nodeOfValue_map, isKind_cons, if_neg (by decide)]
      simp [leafOfEntries, isKind_cons, Entries.field_cons, Value.writeOrEmpty_text, Except.map,
        codeKind, softBreakKind]
    | _ => exact nomatch hc
  | .link kind label url declaration, h => by
    rw [Node.isReadable, beq_iff_eq] at h
    rw [h, Node.toValue, nodeOfValue_map, isKind_cons, if_neg (by decide)]
    simp [leafOfEntries, isKind_cons, Entries.field_cons, codeKind, softBreakKind, linkKind]
  | .plain kind text, h => by
    rw [Node.isReadable, Bool.and_eq_true, beq_iff_eq] at h
    obtain ⟨rfl, hc⟩ := h
    cases text with
    | text s =>
      rw [Node.toValue, nodeOfValue_map, isKind_cons, if_neg (by decide)]
      simp [leafOfEntries, isKind_cons, Entries.field_cons, Value.writeOrEmpty_text, Except.map,
        codeKind, softBreakKind, linkKind, plainKind]
    | _ => exact nomatch hc

theorem nodesOfValues_toValues (source : Option Path) : ∀ {ns : List Node},
    Node.areReadable ns = true → nodesOfValues source (Node.toValues ns) = .ok ns
  | [], _ => by rw [Node.toValues, nodesOfValues]
  | n :: ns, h => by
    rw [Node.areReadable, Bool.and_eq_true] at h
    rw [Node.toValues, nodesOfValues, nodeOfValue_toValue source h.1,
      nodesOfValues_toValues source h.2]

end

/-- A readable comment reads back; remarks without nodes stay apart from no remarks. -/
theorem ofValue_toValue (source : Option Path) {c : Comment} (h : c.isReadable = true) :
    ofValue source c.toValue = .ok (some c) := by
  obtain ⟨summary, remarks⟩ := c
  rw [isReadable, Bool.and_eq_true] at h
  have hs := nodesOfValues_toValues source h.1
  simp only [ofValue, toValue, Value.body, ofEntries, Entries.field_cons]
  cases remarks with
  | none => simp [givenNodesOf_list, hs, sectionToValue, Except.map]
  | some ns =>
    have hr : nodesOfValues source (Node.toValues ns) = .ok ns :=
      nodesOfValues_toValues source (by simpa using h.2)
    simp [givenNodesOf_list, nodesOf_list, hs, hr, sectionToValue, Except.map]

end Comment

end RefSite
