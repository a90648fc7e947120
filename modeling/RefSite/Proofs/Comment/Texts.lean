import RefSite.Comment.Decode
import RefSite.Proofs.Computations

namespace RefSite

namespace Value

variable {v : Value} {es : Entries}

/-- Something is written in the place of a text, but it does not count as given: a truth value that
does not hold, a zero, or a collection with nothing in it. -/
def isOverlooked : Value → Bool
  | bool b => !b
  | int n => n == 0
  | float x => x.isZero
  | list items => items.isEmpty
  | map entries => entries.isEmpty
  | _ => false

/-- The text that a field is read as: the written form of its value, unless there is none or it is
overlooked. -/
structure IsReadAs (v : Value) (s : String) : Prop where
  written : v ≠ null → v.isOverlooked = false → v.written? = some s
  absent : v = null → s = ""
  overlooked : v.isOverlooked = true → s = ""

theorem truthy_eq_false_iff (v : Value) :
    v.truthy = false ↔ v = null ∨ v.isOverlooked = true ∨ v = text "" := by
  cases v <;> simp [truthy, isOverlooked]

theorem written_of_write {s : String} (h : v.write = .ok s) : v.written? = some s := by
  unfold write at h
  split at h
  · next hs =>
    cases h
    exact hs
  · exact nomatch h

theorem isReadAs_of_writeOrEmpty {s : String} (h : v.writeOrEmpty = .ok s) : v.IsReadAs s := by
  unfold writeOrEmpty writeOr at h
  split at h
  · next hgiven =>
    have hne : ¬ (v = null ∨ v.isOverlooked = true ∨ v = text "") := by
      rw [← truthy_eq_false_iff, hgiven]
      decide
    exact ⟨fun _ _ => written_of_write h, fun hv => absurd (.inl hv) hne,
      fun hv => absurd (.inr (.inl hv)) hne⟩
  · next hnot =>
    cases h
    refine ⟨fun hnull hkept => ?_, fun _ => rfl, fun _ => rfl⟩
    -- the empty text does not count as given either, but it is read as what it is
    obtain hv | hv | rfl := (truthy_eq_false_iff v).1 (by simpa using hnot)
    · exact absurd hv hnull
    · rw [hkept] at hv
      exact nomatch hv
    · rfl

/-- What is overlooked has a written form, and it is not empty. -/
theorem written_of_isOverlooked (h : v.isOverlooked = true) :
    ∃ s, v.written? = some s ∧ s ≠ "" := by
  cases v with
  | bool b =>
    obtain rfl : b = false := by simpa [isOverlooked] using h
    exact ⟨"False", rfl, by decide⟩
  | int n =>
    obtain rfl : n = 0 := by simpa [isOverlooked] using h
    exact ⟨"0", by decide +kernel, by decide⟩
  | float x =>
    refine ⟨x.text, rfl, ?_⟩
    rw [isOverlooked, Binary64.isZero] at h
    rw [Binary64.text]
    split at h
    · next negative q hx =>
      rw [hx]
      cases negative <;> simp
    · exact nomatch h
  | list items =>
    obtain rfl : items = [] := by simpa [isOverlooked] using h
    exact ⟨"[]", by decide +kernel, by decide⟩
  | map entries =>
    obtain rfl : entries = [] := by simpa [isOverlooked] using h
    exact ⟨"\x7b\x7d", by decide +kernel, by decide⟩
  | null | text _ | knot _ _ | day _ | moment _ => exact nomatch h

theorem body_of_entriesOr {f : Failure} (h : v.entriesOr f = .ok es) : v.body = .map es := by
  unfold entriesOr at h
  split at h
  · exact nomatch h
  · cases hb : v.body <;> rw [hb] at h <;> cases h
    rfl

theorem elements_of_ok {xs : List Value} (h : v.elements = .ok xs) : v.elements? = some xs := by
  unfold elements at h
  split at h
  · exact nomatch h
  · cases hx : v.elements? <;> rw [hx] at h <;> cases h
    rfl

end Value

namespace Comment

variable {source : Option Path} {v : Value} {es : Entries} {n : Node} {ns : List Node}

/-- The nodes of a section: a bare text is shorthand for them, and else each is that of one element,
in order. -/
inductive IsSection (R : Value → Node → Prop) : Value → List Node → Prop where
  | text (s : String) : IsSection R (.text s) (shorthand s)
  | nodes {v : Value} {vs : List Value} {ns : List Node} (hvs : v.elements? = some vs)
      (hns : List.Forall₂ R vs ns) : IsSection R v ns

/-- The node says what the value says that it was read from: its code or text is that of the field,
and its nodes say what the field with nodes says. -/
inductive Node.Keeps : Value → Node → Prop where
  | bare {v : Value} {es : Entries} {kind : String} (hv : v.body = .map es)
      (hkind : (es.field "kind").written? = some kind) : Keeps v (.bare kind)
  | paragraph {v : Value} {es : Entries} {ns : List Node} (hv : v.body = .map es)
      (hkind : isKind es paragraphKind = true)
      (hempty : (es.field "nodes").truthy = false → ns = [])
      (hns : (es.field "nodes").truthy = true → IsSection Keeps (es.field "nodes") ns) :
      Keeps v (.paragraph paragraphKind ns)
  | softBreak {v : Value} {es : Entries} (hv : v.body = .map es)
      (hkind : isKind es softBreakKind = true) : Keeps v (.softBreak softBreakKind)
  | code {v : Value} {es : Entries} {s : String} (hv : v.body = .map es)
      (hkind : isKind es codeKind = true) (hs : (es.field "code").IsReadAs s) :
      Keeps v (.code codeKind (.text s))
  | link {v : Value} {es : Entries} (hv : v.body = .map es) (hkind : isKind es linkKind = true) :
      Keeps v (.link linkKind (es.field "linkText") (es.field "url") (es.field "codeDestination"))
  | plain {v : Value} {es : Entries} {s : String} (hv : v.body = .map es)
      (hkind : isKind es plainKind = true) (hs : (es.field "text").IsReadAs s) :
      Keeps v (.plain plainKind (.text s))

theorem keeps_of_leafOfEntries (hv : v.body = .map es) (h : leafOfEntries es = .ok n) :
    n.Keeps v := by
  unfold leafOfEntries at h
  split at h
  · next hkind =>
    cases h
    exact .softBreak hv hkind
  split at h
  · next hkind =>
    obtain ⟨s, hs, rfl⟩ := exists_of_map_ok h
    exact .code hv hkind (Value.isReadAs_of_writeOrEmpty hs)
  split at h
  · next hkind =>
    cases h
    exact .link hv hkind
  split at h
  · next hkind =>
    obtain ⟨s, hs, rfl⟩ := exists_of_map_ok h
    exact .plain hv hkind (Value.isReadAs_of_writeOrEmpty hs)
  · obtain ⟨s, hs, rfl⟩ := exists_of_map_ok h
    exact .bare hv (Value.written_of_write hs)

/-- The nodes of a section are related to its elements as well if they are so wherever elements are
nested no deeper than the section. -/
theorem IsSection.imp {R S : Value → Node → Prop} (h : IsSection R v ns)
    (hRS : ∀ w n, w.depth ≤ v.depth → R w n → S w n) : IsSection S v ns := by
  cases h with
  | text s => exact .text s
  | nodes hvs hns =>
    have hdepth (w : Value) (hw : w ∈ _) : w.depth ≤ v.depth :=
      Nat.le_trans (Value.depth_le_depthAll hw) (Value.depth_elements_le hvs)
    exact .nodes hvs (((List.forall₂_and_left _ _).2 ⟨hdepth, hns⟩).imp fun w n h =>
      hRS w n h.1 h.2)

theorem nodesOfValues_eq_mapM (source : Option Path) (vs : List Value) :
    nodesOfValues source vs = vs.mapM (nodeOfValue source) := by
  induction vs with
  | nil =>
    rw [nodesOfValues]
    rfl
  | cons v vs ih =>
    rw [nodesOfValues, List.mapM_cons, ih]
    cases nodeOfValue source v with
    | error f => rfl
    | ok n => cases vs.mapM (nodeOfValue source) <;> rfl

theorem isSection_of_nodesOf (h : nodesOf source v = .ok ns) :
    IsSection (fun v n => nodeOfValue source v = .ok n) v ns := by
  by_cases htext : ∃ s, v = .text s
  · obtain ⟨s, rfl⟩ := htext
    rw [nodesOf] at h
    cases h
    exact .text s
  · rw [nodesOf] at h
    · split at h
      · next xs hxs =>
        rw [nodesOfValues_eq_mapM] at h
        exact .nodes (Value.elements_of_ok hxs) (mapM_eq_ok_iff.1 h)
      · cases h
    · exact fun s hs => htext ⟨s, hs⟩

theorem isSection_of_givenNodesOf (h : givenNodesOf source v = .ok ns) :
    (v.truthy = false → ns = []) ∧
      (v.truthy = true → IsSection (fun v n => nodeOfValue source v = .ok n) v ns) := by
  rw [givenNodesOf] at h
  split at h
  · next hgiven =>
    refine ⟨fun hnot => ?_, fun _ => isSection_of_nodesOf h⟩
    rw [hgiven] at hnot
    exact nomatch hnot
  · next hnot =>
    cases h
    exact ⟨fun _ => rfl, fun hgiven => absurd hgiven hnot⟩

theorem keeps_of_nodeOfValue {v : Value} {n : Node} (h : nodeOfValue source v = .ok n) :
    n.Keeps v := by
  rw [nodeOfValue] at h
  split at h
  · cases h
  · next es hes =>
    have hv := Value.body_of_entriesOr hes
    -- the nodes are nested less deeply than the mapping
    have hdepth : (es.field "nodes").depth < v.depth :=
      Nat.lt_of_le_of_lt (Value.depth_field_le es "nodes") (Value.depthEntries_of_entriesOr hes)
    split at h
    · next hkind =>
      split at h
      · next ns hns =>
        cases h
        obtain ⟨hempty, hgiven⟩ := isSection_of_givenNodesOf hns
        exact .paragraph hv hkind hempty fun hg =>
          (hgiven hg).imp fun w m hw hm => keeps_of_nodeOfValue hm
      · cases h
    · exact keeps_of_leafOfEntries hv h
termination_by v.depth
decreasing_by omega

/-- The comment says what the value says that it was read from. -/
structure Keeps (es : Entries) (c : Comment) : Prop where
  noSummary : (es.field "summary").truthy = false → c.summary = []
  summary : (es.field "summary").truthy = true →
    IsSection Node.Keeps (es.field "summary") c.summary
  noRemarks : es.field "remarks" = .null → c.remarks = none
  remarks : es.field "remarks" ≠ .null →
    ∃ ns, c.remarks = some ns ∧ IsSection Node.Keeps (es.field "remarks") ns

theorem keeps_of_ofEntries {c : Comment} (h : ofEntries source es = .ok c) : c.Keeps es := by
  have keeps {v : Value} {ns : List Node}
      (hns : IsSection (fun v n => nodeOfValue source v = .ok n) v ns) :
      IsSection Node.Keeps v ns := hns.imp fun w n _ hn => keeps_of_nodeOfValue hn
  unfold ofEntries at h
  split at h
  · cases h
  · next summary hs =>
    obtain ⟨hempty, hgiven⟩ := isSection_of_givenNodesOf hs
    split at h
    · next hnull =>
      cases h
      exact ⟨hempty, fun hg => keeps (hgiven hg), fun _ => rfl, fun hne => absurd hnull hne⟩
    · next hne =>
      obtain ⟨ns, hns, rfl⟩ := exists_of_map_ok h
      exact ⟨hempty, fun hg => keeps (hgiven hg), fun hnull => absurd hnull hne,
        fun _ => ⟨ns, rfl, keeps (isSection_of_nodesOf hns)⟩⟩

/-- A comment that may be left out says what its field says. -/
inductive IsReadFrom : Value → Option Comment → Prop where
  | absent {v : Value} (hv : v.body = .null) : IsReadFrom v none
  | given {v : Value} {es : Entries} {c : Comment} (hv : v.body = .map es) (hc : c.Keeps es) :
      IsReadFrom v (some c)

theorem isReadFrom_of_ofValue {c : Option Comment} (h : ofValue source v = .ok c) :
    IsReadFrom v c := by
  unfold ofValue at h
  split at h
  · next hv =>
    cases h
    exact .absent hv
  · next es hv =>
    obtain ⟨c, hc, rfl⟩ := exists_of_map_ok h
    exact .given hv (keeps_of_ofEntries hc)
  · exact nomatch h

end Comment

end RefSite
