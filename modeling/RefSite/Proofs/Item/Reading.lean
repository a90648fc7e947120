import RefSite.Item.Load
import RefSite.Proofs.Comment.Reading
import RefSite.Proofs.Item.RoundTrip

namespace RefSite

/-- The declaration is of a known kind, and its comment is one that can be read. -/
structure Declaration.IsRead (d : Declaration) : Prop where
  kind : d.kind.isKnown = true
  comment : ∀ c, d.comment = some c → c.IsTyped

namespace Item

open Value

mutual

/-- What the items of a tree say about themselves, parents first. -/
def declarations : Item → List Declaration
  | mk d ms => d :: declarationsOf ms

def declarationsOf : List Item → List Declaration
  | [] => []
  | i :: is => declarations i ++ declarationsOf is

end

/-- All items of the tree are of known kinds, with comments that can be read. -/
def IsRead (i : Item) : Prop := ∀ d ∈ i.declarations, d.IsRead

def AreRead (is : List Item) : Prop := ∀ d ∈ declarationsOf is, d.IsRead

theorem areRead_nil : AreRead [] := fun _ h => nomatch h

theorem areRead_cons {i : Item} {is : List Item} (hi : i.IsRead) (his : AreRead is) :
    AreRead (i :: is) := by
  intro d hd
  rw [declarationsOf, List.mem_append] at hd
  exact hd.elim (hi d) (his d)

theorem AreRead.append {is js : List Item} (his : AreRead is) (hjs : AreRead js) :
    AreRead (is ++ js) := by
  induction is with
  | nil => exact hjs
  | cons i is ih =>
    have hboth (d : Declaration) (hd : d ∈ i.declarations ∨ d ∈ declarationsOf is) : d.IsRead := by
      apply his
      rwa [declarationsOf, List.mem_append]
    exact areRead_cons (fun d hd => hboth d (.inl hd)) (ih fun d hd => hboth d (.inr hd))

theorem isRead_mk {d : Declaration} {ms : List Item} (hd : d.IsRead) (hms : AreRead ms) :
    (mk d ms).IsRead := by
  intro e he
  rw [declarations] at he
  obtain rfl | he := List.mem_cons.1 he
  · exact hd
  · exact hms e he

/-- An unnamed entry point may be put above the members. -/
theorem isRead_assemble {d : Declaration} {ms : List Item} (es : Entries) (hd : d.IsRead)
    (hms : AreRead ms) : (assemble d es ms).IsRead := by
  unfold assemble
  split
  · have hentry : unnamedEntryPoint.IsRead := ⟨rfl, fun c h => nomatch h⟩
    exact isRead_mk hd (areRead_cons (isRead_mk hentry hms) areRead_nil)
  · exact isRead_mk hd hms

variable {es : Entries} {v : Value} {f : Failure}

theorem meets_kindOfValue (source : Option Path) (v : Value) :
    Meets v.ReadingFault (fun _ => True) (kindOfValue source v) := by
  unfold kindOfValue
  split
  · trivial
  · exact readingFault_refusal v _

theorem meets_releaseOfValue (source : Option Path) (v : Value) :
    Meets v.ReadingFault (fun _ => True) (releaseOfValue source v) := by
  unfold releaseOfValue
  split
  · trivial
  · split
    · trivial
    · exact readingFault_refusal v _

theorem eq_float_of_infinite (h : v.toInt = .error .infinite) :
    ∃ x, v = float x ∧ x.isNaN = false ∧ x.truncate? = none := by
  unfold toInt at h
  split at h
  · exact nomatch h
  · exact nomatch h
  · next x =>
    split at h
    · exact nomatch h
    · next hx =>
      refine ⟨x, rfl, ?_, hx⟩
      cases hn : x.isNaN with
      | false => rfl
      | true =>
        rw [hn] at h
        exact nomatch h
  · split at h <;> exact nomatch h
  · exact nomatch h

theorem meets_overloadOfValue (source : Option Path) (es : Entries) :
    Meets (map es).ReadingFault (fun _ => True)
      (overloadOfValue source (es.field "overloadIndex")) := by
  unfold overloadOfValue
  split
  · trivial
  · split
    · trivial
    · exact .of_field (readingFault_refusal _ _)
    · next h =>
      obtain ⟨x, hx, hn, hinfinite⟩ := eq_float_of_infinite h
      exact .inr (.infiniteNumber .self hx hn hinfinite)

theorem meets_parameterOfValue (source : Option Path) (v : Value) :
    Meets v.ReadingFault (fun _ => True) (parameterOfValue source v) := by
  refine (meets_entriesOr v _).bind fun es hes => ?_
  have written (key : String) :
      Meets v.ReadingFault (fun _ => True) (Entries.field es key).writeOrEmpty :=
    (meets_field (meets_writeOr _ _)).mono hes
  exact (written "name").bind fun _ _ => (written "type").bind fun _ _ => trivial

/-- A field is read element by element. -/
theorem meets_mapM_field {α : Type} {key : String} (hkey : key ∈ elementKeys)
    {f : Value → Except Failure α} (h : ∀ v, Meets v.ReadingFault (fun _ => True) (f v)) :
    Meets (map es).ReadingFault (fun _ => True)
      ((es.field key).givenElements >>= fun vs => vs.mapM f) := by
  refine (meets_givenElements_field hkey).bind fun vs hvs => ?_
  have hall : Meets (map es).ReadingFault (fun as => ∀ a ∈ as, True) (vs.mapM f) :=
    .mapM fun v hv => (h v).mono (hvs v hv)
  cases hx : vs.mapM f with
  | ok as => trivial
  | error g =>
    rw [hx] at hall
    exact hall

theorem meets_declarationOf (source : Option Path) (es : Entries) :
    Meets (map es).ReadingFault Declaration.IsRead (declarationOf source es) := by
  have written (key : String) :
      Meets (map es).ReadingFault (fun _ => True) (es.field key).writeOrEmpty :=
    meets_field (meets_writeOr _ _)
  have hkind := meets_field (meets_kindOfValue source (es.field "kind"))
  have hcomment := meets_field (Comment.meets_ofValue source (es.field "docComment"))
  have hrelease := meets_field (meets_releaseOfValue source (es.field "releaseTag"))
  refine hkind.bind fun kind _ => (written "name").bind fun name _ => ?_
  refine hcomment.bind fun comment hc => (written "excerpt").bind fun excerpt _ => ?_
  refine (meets_mapM_field (by decide) meets_write).bind fun modifiers _ => ?_
  refine hrelease.bind fun release _ => ?_
  refine (meets_mapM_field (by decide) (meets_parameterOfValue source)).bind fun parameters _ => ?_
  refine (meets_overloadOfValue source es).bind fun overload _ => ?_
  refine (written "propertyType").bind fun propertyType _ => ?_
  exact (written "initializer").bind fun initializer _ => ⟨rfl, hc⟩

/-- The members are those of the one field or of the other. -/
theorem meets_membersField (es : Entries) :
    Meets (map es).ReadingFault (map es).Spans (membersField es).givenElements := by
  unfold membersField
  split
  · exact meets_givenElements_field (by decide)
  · exact meets_givenElements_field (by decide)

mutual

theorem meets_ofValue (source : Option Path) (v : Value) :
    Meets v.ReadingFault IsRead (ofValue source v) := by
  -- whatever is read first is at fault first: the mapping, the declaration, the list, the members
  rw [ofValue]
  have hv := meets_entriesOr v (.itemNotMapping source v)
  split
  · next f h =>
    rw [h] at hv
    exact hv
  · next es h =>
    rw [h] at hv
    have hd := meets_declarationOf source es
    split
    · next f h =>
      rw [h] at hd
      exact hv f hd
    · next d h' =>
      rw [h'] at hd
      have hm := meets_membersField es
      split
      · next f h =>
        rw [h] at hm
        exact hv f hm
      · next vs h'' =>
        rw [h''] at hm
        have hdepth : depthAll vs < v.depth :=
          Nat.lt_of_le_of_lt
            (Nat.le_trans (depthAll_of_givenElements h'') (depth_membersField_le es))
            (depthEntries_of_entriesOr h)
        have hvs := meets_ofValues source vs
        cases hms : ofValues source vs with
        | error f =>
          rw [hms] at hvs
          obtain ⟨x, hx, hf⟩ := hvs
          exact hv f (hm x hx f hf)
        | ok ms =>
          rw [hms] at hvs
          exact isRead_assemble es hd hvs
termination_by (v.depth, 0)
decreasing_by
  simp [Prod.lex_def]; omega

theorem meets_ofValues (source : Option Path) (vs : List Value) :
    Meets (fun f => ∃ v ∈ vs, v.ReadingFault f) AreRead (ofValues source vs) := by
  cases vs with
  | nil =>
    rw [ofValues]
    exact areRead_nil
  | cons v vs =>
    rw [ofValues]
    have hv := meets_ofValue source v
    have hvs := meets_ofValues source vs
    cases hi : ofValue source v with
    | error f =>
      rw [hi] at hv
      exact ⟨v, List.mem_cons_self, hv⟩
    | ok i =>
      rw [hi] at hv
      cases his : ofValues source vs with
      | error f =>
        rw [his] at hvs
        obtain ⟨w, hw, hf⟩ := hvs
        exact ⟨w, List.mem_cons_of_mem _ hw, hf⟩
      | ok is =>
        rw [his] at hvs
        exact areRead_cons hv hvs
termination_by (depthAll vs, vs.length)
decreasing_by
  all_goals simp [Prod.lex_def, depthAll]; omega

end

/-- Something in a model file keeps its packages from being read, with a failure that is no fault of
a model: the file cannot be read or is no text, its text has a value in it that does not exist, or
something in its value keeps it from being read. -/
inductive FileHinders (d : Disk) (p : Path) : Failure → Prop where
  | unreadable {f : Failure} (h : d.readText p = .error f) : FileHinders d p f
  | text {s : String} {f : Failure} (hs : d.readText p = .ok s) (h : Yaml.load s = .error f)
      (hf : f ≠ .malformed) : FileHinders d p f
  | value {s : String} {v : Value} {f : Failure} (hs : d.readText p = .ok s)
      (h : Yaml.load s = .ok v) (hv : v.Hinders f) : FileHinders d p f

variable {d : Disk} {p : Path}

theorem readMapping_of_text {s : String} (h : d.readText p = .ok s) :
    readMapping d p = match Yaml.load s with
      | .error .malformed => .error (.model (.unparsable p))
      | .error f => .error f
      | .ok v =>
        match v.body with
        | .map es => .ok es
        | _ => .error (.model (.notMapping p)) := by
  unfold readMapping
  rw [h]
  rfl

theorem meets_readMapping (d : Disk) (p : Path) :
    Meets (fun f => f.IsModelFault ∨ FileHinders d p f)
      (fun es => ∀ f, (map es).Hinders f → FileHinders d p f) (readMapping d p) := by
  cases hs : d.readText p with
  | error f =>
    unfold readMapping
    rw [hs]
    exact .inr (.unreadable hs)
  | ok s =>
    rw [readMapping_of_text hs]
    split
    · exact .inl ⟨_, rfl⟩
    · next f hne h => exact .inr (.text hs h hne)
    · next v h =>
      split
      · next es hes =>
        have hpart : IsPart (map es) v := by
          rw [← hes]
          exact isPart_body v
        exact fun f hf => .value hs h (hf.of_isPart hpart)
      · exact .inl ⟨_, rfl⟩

theorem meets_rawPackages (p : Path) (es : Entries) :
    Meets Failure.IsModelFault (fun vs => ∀ v ∈ vs, IsPart v (map es)) (rawPackages p es) := by
  unfold rawPackages
  split
  · exact List.forall_mem_singleton.2 .self
  · next vs h =>
    obtain ⟨v, hv, hbody⟩ := Option.map_eq_some_iff.1 h
    have hpart : IsPart (list vs) (map es) := by
      rw [← hbody]
      exact (isPart_body v).trans (isPart_of_get hv)
    exact fun x hx => (IsPart.item hx .self).trans hpart
  · exact ⟨_, rfl⟩

theorem IsRead.self {i : Item} (h : i.IsRead) : i.self.IsRead := by
  obtain ⟨d, ms⟩ := i
  apply h
  rw [declarations]
  exact List.mem_cons_self

theorem meets_packageOfValue (p : Path) (v : Value) :
    Meets v.ReadingFault IsRead (packageOfValue p v).result := by
  refine Logged.meets_bind (meets_ofValue (some p) v) fun i hi => ?_
  split
  · exact hi
  · exact .model _
  · next h =>
    -- no item of another kind is read
    have hknown := hi.self.kind
    cases hk : i.self.kind with
    | known k =>
      rw [hk] at h
      exact nomatch h
    | bare s =>
      rw [hk] at hknown
      exact nomatch hknown

theorem meets_packagesOfValues (p : Path) (vs : List Value) :
    Meets (fun f => ∃ v ∈ vs, v.ReadingFault f) AreRead (packagesOfValues p vs).result := by
  induction vs with
  | nil => exact areRead_nil
  | cons v vs ih =>
    have hv : Meets (fun f => ∃ w ∈ v :: vs, w.ReadingFault f) IsRead (packageOfValue p v).result :=
      (meets_packageOfValue p v).mono fun f hf => ⟨v, List.mem_cons_self, hf⟩
    have hvs : Meets (fun f => ∃ w ∈ v :: vs, w.ReadingFault f) AreRead
        (packagesOfValues p vs).result := by
      refine ih.mono fun f hf => ?_
      obtain ⟨w, hw, hf⟩ := hf
      exact ⟨w, List.mem_cons_of_mem _ hw, hf⟩
    exact Logged.meets_bind hv fun i hi => Logged.meets_bind hvs fun is his => areRead_cons hi his

/-- A model is not read: there is a fault in it, or something in one of its files keeps it from being
read. -/
def LoadingFault (d : Disk) (ps : List Path) (f : Failure) : Prop :=
  f.IsModelFault ∨ ∃ p ∈ ps, FileHinders d p f

theorem meets_loadPackages (d : Disk) (ps : List Path) :
    Meets (LoadingFault d ps) AreRead (loadPackages d ps).result := by
  induction ps with
  | nil => exact areRead_nil
  | cons p ps ih =>
    have here {f : Failure} (h : f.IsModelFault ∨ FileHinders d p f) :
        LoadingFault d (p :: ps) f := h.imp_right fun h => ⟨p, List.mem_cons_self, h⟩
    have hes := (meets_readMapping d p).mono fun f => here
    refine Logged.meets_bind hes fun es hfile => ?_
    have hvs := (meets_rawPackages p es).mono fun f hf => here (.inl hf)
    refine Logged.meets_bind hvs fun vs hparts => ?_
    have his : Meets (LoadingFault d (p :: ps)) AreRead (packagesOfValues p vs).result := by
      refine (meets_packagesOfValues p vs).mono fun f hf => ?_
      obtain ⟨v, hv, hf⟩ := hf
      exact here ((hf.of_isPart (hparts v hv)).imp_right (hfile f))
    refine Logged.meets_bind his fun is his => ?_
    have hrest : Meets (LoadingFault d (p :: ps)) AreRead (loadPackages d ps).result := by
      refine ih.mono fun f hf => hf.imp_right fun hf => ?_
      obtain ⟨q, hq, hf⟩ := hf
      exact ⟨q, List.mem_cons_of_mem _ hq, hf⟩
    exact Logged.meets_bind hrest fun js hjs => his.append hjs

theorem meets_loadModel (d : Disk) (ps : List Path) (name : String) :
    Meets (LoadingFault d ps) IsRead (loadModel d ps name).result :=
  Logged.meets_bind (meets_loadPackages d ps) fun _ his =>
    isRead_mk ⟨rfl, fun _ h => nomatch h⟩ his

/-- What is malformed is reported as a fault of the model. A value is read as an item, or there is a
fault in the model, unless the value holds itself, has a field without elements where there have to
be some, an overload of an infinite number, or a number with too many digits. The same goes for the
values of model files, as long as the files can be read and are text. -/
theorem malformed_models_are_reported (source : Option Path) (v : Value) (d : Disk)
    (ps : List Path) (name : String) :
    (∀ f, ofValue source v = .error f → f.IsModelFault ∨ v.Hinders f) ∧
      ∀ f, (loadModel d ps name).result = .error f →
        f.IsModelFault ∨ ∃ p ∈ ps, FileHinders d p f :=
  ⟨fun _ h => (meets_ofValue source v).of_error h,
    fun _ h => (meets_loadModel d ps name).of_error h⟩

/-- A method whose overload has an infinite number. -/
def withInfiniteOverload : Value :=
  .map [(.text "kind", .text "Method"), (.text "overloadIndex", .float (Binary64.infinity false))]

/-- A class whose members are a number. -/
def withNumberAsMembers : Value :=
  .map [(.text "kind", .text "Class"), (.text "members", .int 5)]

/-- A class whose name has 4301 digits. -/
def withLongName : Value :=
  .map [(.text "kind", .text "Class"), (.text "name", .int (Int.ofNat (Nat.pow 10 4300)))]

/-- A model file with a byte in it that no text has. -/
def diskWithBytes : Disk := ⟨.folder [("p.api.yml", .file ⟨#[0xff]⟩)], []⟩

theorem declarationOf_longName {n : Int} (hn : Text.ofInt? n = none) (hne : n ≠ 0) :
    declarationOf none [(.text "kind", .text "Class"), (.text "name", .int n)] =
      .error .longNumber := by
  have hname : (Value.int n).writeOrEmpty = .error .longNumber := by
    have hnone : (Value.int n).written? = none := hn
    simp [writeOrEmpty, writeOr, truthy, hne, write, hnone]
  have hkind : kindOfValue none (.text "Class") = .ok .classDecl := rfl
  simp only [declarationOf, Entries.field_cons]
  simp [hkind, hname, bind, Except.bind]

/-- Four malformed models that are not reported as such. -/
theorem exceptions_to_model_faults :
    ofValue none withInfiniteOverload = .error .infiniteNumber ∧
      ofValue none withNumberAsMembers = .error .noElements ∧
      ofValue none withLongName = .error .longNumber ∧
      (loadModel diskWithBytes [⟨.root, ["p.api.yml"]⟩] "").result = .error .undecodable := by
  refine ⟨?_, ?_, ?_, rfl⟩
  · rw [withInfiniteOverload, ofValue_map]
    rfl
  · rw [withNumberAsMembers, ofValue_map]
    rfl
  · rw [withLongName, ofValue_map, declarationOf_longName (by decide +kernel) (by decide +kernel)]

end Item

end RefSite
