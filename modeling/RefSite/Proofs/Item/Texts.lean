import RefSite.Proofs.Comment.Texts
import RefSite.Proofs.Item.RoundTrip

namespace RefSite

open Value

variable {source : Option Path} {v : Value} {es : Entries}

namespace Item

theorem ofValues_eq_mapM (source : Option Path) (vs : List Value) :
    ofValues source vs = vs.mapM (ofValue source) := by
  induction vs with
  | nil =>
    rw [ofValues]
    rfl
  | cons v vs ih =>
    rw [ofValues, List.mapM_cons, ih]
    cases ofValue source v with
    | error f => rfl
    | ok i => cases vs.mapM (ofValue source) <;> rfl

/-- An item that could be read is put together from its mapping and its members, which are nested
less deeply than the mapping. -/
theorem parts_of_ofValue {i : Item} (h : ofValue source v = .ok i) :
    ∃ es d vs ms, v.body = .map es ∧ declarationOf source es = .ok d ∧
      (membersField es).givenElements = .ok vs ∧ (∀ w ∈ vs, w.depth < v.depth) ∧
      List.Forall₂ (fun w m => ofValue source w = .ok m) vs ms ∧ i = assemble d es ms := by
  rw [ofValue] at h
  split at h
  · exact nomatch h
  · next es hes =>
    split at h
    · exact nomatch h
    · next d hd =>
      split at h
      · exact nomatch h
      · next vs hvs =>
        split at h
        · exact nomatch h
        · next ms hms =>
          cases h
          rw [ofValues_eq_mapM] at hms
          refine ⟨es, d, vs, ms, body_of_entriesOr hes, hd, hvs, fun w hw => ?_,
            mapM_eq_ok_iff.1 hms, rfl⟩
          have hdepth : depthAll vs ≤ depthEntries es :=
            Nat.le_trans (depthAll_of_givenElements hvs) (depth_membersField_le es)
          exact Nat.lt_of_le_of_lt (Nat.le_trans (depth_le_depthAll hw) hdepth)
            (depthEntries_of_entriesOr hes)

/-- A mapping whose parts can be read can be read. -/
theorem ofValue_of_parts {d : Declaration} {vs : List Value} {ms : List Item} {i : Item}
    (hd : declarationOf source es = .ok d) (hvs : (membersField es).givenElements = .ok vs)
    (hms : List.Forall₂ (fun v m => ofValue source v = .ok m) vs ms)
    (hi : assemble d es ms = i) : ofValue source (.map es) = .ok i := by
  rw [ofValue_map, hd]
  dsimp only
  rw [hvs]
  dsimp only
  rw [ofValues_eq_mapM, mapM_eq_ok_iff.2 hms]
  dsimp only
  rw [hi]

end Item

/-- The name and the type of a parameter are read from its fields. -/
def Parameter.Keeps (v : Value) (p : Parameter) : Prop :=
  ∃ es, v.body = .map es ∧ (Entries.field es "name").IsReadAs p.name ∧
    (Entries.field es "type").IsReadAs p.type

/-- What an item says about itself is read from its fields. -/
structure Declaration.Keeps (es : Entries) (d : Declaration) : Prop where
  kind : (es.field "kind").written? = some d.kind.text
  name : (es.field "name").IsReadAs d.name
  comment : Comment.IsReadFrom (es.field "docComment") d.comment
  excerpt : (es.field "excerpt").IsReadAs d.excerpt
  modifiers : ∃ vs, (es.field "modifiers").givenElements = .ok vs ∧
    List.Forall₂ (fun v s => v.written? = some s) vs d.modifiers
  parameters : ∃ vs, (es.field "parameters").givenElements = .ok vs ∧
    List.Forall₂ Parameter.Keeps vs d.parameters
  propertyType : (es.field "propertyType").IsReadAs d.propertyType
  initializer : (es.field "initializer").IsReadAs d.initializer

/-- Every text of the item, of its comment, of its parameters and of all items below it is read from
the field that it belongs to. -/
inductive Item.Keeps : Value → Item → Prop where
  | mk {v : Value} {es : Entries} {d : Declaration} {vs : List Value} {ms : List Item}
      (hv : v.body = .map es) (hd : d.Keeps es) (hvs : (membersField es).givenElements = .ok vs)
      (hms : List.Forall₂ Keeps vs ms) : Keeps v (assemble d es ms)

namespace Item

theorem self_assemble (d : Declaration) (es : Entries) (ms : List Item) :
    (assemble d es ms).self = d := by
  unfold assemble
  split <;> rfl

theorem Keeps.parts {i : Item} (h : i.Keeps v) : ∃ es vs ms, v.body = .map es ∧ i.self.Keeps es ∧
    (membersField es).givenElements = .ok vs ∧ List.Forall₂ Keeps vs ms ∧
      i = assemble i.self es ms := by
  cases h with
  | @mk _ es d vs ms hv hd hvs hms =>
    rw [self_assemble]
    exact ⟨es, vs, ms, hv, hd, hvs, hms, rfl⟩

theorem kind_of_kindOfValue {k : Kind} (h : kindOfValue source v = .ok k) :
    v.written? = some k.name := by
  unfold kindOfValue at h
  split at h
  · next hk =>
    cases h
    obtain ⟨s, hs, hk⟩ := Option.bind_eq_some_iff.1 hk
    rw [hs, Kind.name_of_ofName hk]
  · exact nomatch h

theorem keeps_of_parameterOfValue {p : Parameter} (h : parameterOfValue source v = .ok p) :
    p.Keeps v := by
  obtain ⟨es, hes, h⟩ := exists_of_bind_ok h
  obtain ⟨name, hname, h⟩ := exists_of_bind_ok h
  obtain ⟨type, htype, h⟩ := exists_of_bind_ok h
  cases h
  exact ⟨es, body_of_entriesOr hes, isReadAs_of_writeOrEmpty hname, isReadAs_of_writeOrEmpty htype⟩

theorem keeps_of_declarationOf {d : Declaration} (h : declarationOf source es = .ok d) :
    d.Keeps es := by
  obtain ⟨kind, hkind, h⟩ := exists_of_bind_ok h
  obtain ⟨name, hname, h⟩ := exists_of_bind_ok h
  obtain ⟨comment, hcomment, h⟩ := exists_of_bind_ok h
  obtain ⟨excerpt, hexcerpt, h⟩ := exists_of_bind_ok h
  obtain ⟨modifiers, hmodifiers, h⟩ := exists_of_bind_ok h
  obtain ⟨release, -, h⟩ := exists_of_bind_ok h
  obtain ⟨parameters, hparameters, h⟩ := exists_of_bind_ok h
  obtain ⟨overload, -, h⟩ := exists_of_bind_ok h
  obtain ⟨propertyType, htype, h⟩ := exists_of_bind_ok h
  obtain ⟨initializer, hinitializer, h⟩ := exists_of_bind_ok h
  cases h
  obtain ⟨ws, hws, hmodifiers⟩ := exists_of_bind_ok hmodifiers
  obtain ⟨vs, hvs, hparameters⟩ := exists_of_bind_ok hparameters
  exact {
    kind := kind_of_kindOfValue hkind
    name := isReadAs_of_writeOrEmpty hname
    comment := Comment.isReadFrom_of_ofValue hcomment
    excerpt := isReadAs_of_writeOrEmpty hexcerpt
    modifiers := ⟨ws, hws, (mapM_eq_ok_iff.1 hmodifiers).imp fun w s hs => written_of_write hs⟩
    parameters := ⟨vs, hvs, (mapM_eq_ok_iff.1 hparameters).imp fun v p hp =>
      keeps_of_parameterOfValue hp⟩
    propertyType := isReadAs_of_writeOrEmpty htype
    initializer := isReadAs_of_writeOrEmpty hinitializer }

theorem keeps_of_ofValue {v : Value} {i : Item} (h : ofValue source v = .ok i) : i.Keeps v := by
  obtain ⟨es, d, vs, ms, hv, hd, hvs, hdepth, hms, rfl⟩ := parts_of_ofValue h
  refine .mk hv (keeps_of_declarationOf hd) hvs ?_
  exact ((List.forall₂_and_left _ _).2 ⟨hdepth, hms⟩).imp fun w m hm =>
    have hlt := hm.1
    keeps_of_ofValue hm.2
termination_by v.depth

end Item

end RefSite
