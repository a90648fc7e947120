import Mathlib.Data.List.Forall2
import Mathlib.Data.List.GetD
import Mathlib.Data.List.Induction
import RefSite.Proofs.Computations
import RefSite.Site.Page

namespace RefSite

namespace Declaration

/-- The declaration with what names and links show of it: its kind, name and overload. -/
def identity (d : Declaration) : Declaration :=
  { kind := d.kind, name := d.name, overload := d.overload }

/-- The declaration with what its own page shows of it. -/
def onPage (d : Declaration) : Declaration :=
  { d with isStatic := false, isEvent := false, propertyType := "", initializer := "" }

/-- The declaration with what a row of a table shows of it: no remarks, no signature but the names
of the parameters. -/
def inRow (d : Declaration) : Declaration where
  kind := d.kind
  name := d.name
  comment := some ⟨(d.comment.map Comment.summary).getD [], none⟩
  parameters := d.parameters.map fun q => ⟨q.name, ""⟩
  overload := d.overload
  isStatic := d.isStatic
  isEvent := d.isEvent
  propertyType := d.propertyType
  initializer := d.initializer

theorem conciseSignature_inRow (d : Declaration) :
    d.inRow.conciseSignature = d.conciseSignature := by
  have hnames : d.inRow.parameters.map Parameter.name = d.parameters.map Parameter.name := by
    rw [inRow, List.map_map]
    rfl
  unfold conciseSignature
  rw [hnames]
  rfl

theorem kind_of_identity {d d' : Declaration} (h : d'.identity = d.identity) : d'.kind = d.kind :=
  (congrArg kind h :)

end Declaration

namespace Place

open Declaration

variable {p p' : Place}

/-- The place as names and links show it. -/
def identity (p : Place) : Place := ⟨p.above.map Declaration.identity, p.self.identity⟩

/-- The place as the item's own page shows it. -/
def onPage (p : Place) : Place := ⟨p.above.map Declaration.identity, p.self.onPage⟩

/-- The place as a row of a table shows it. -/
def inRow (p : Place) : Place := ⟨p.above.map Declaration.identity, p.self.inRow⟩

theorem identity_identity (p : Place) : p.identity.identity = p.identity := by
  simp only [identity, List.map_map, Function.comp_def]
  rfl

theorem identity_onPage (p : Place) : p.onPage.identity = p.identity := by
  simp only [identity, onPage, List.map_map, Function.comp_def]
  rfl

theorem identity_inRow (p : Place) : p.inRow.identity = p.identity := by
  simp only [identity, inRow, List.map_map, Function.comp_def]
  rfl

theorem identity_of_onPage (h : p'.onPage = p.onPage) : p'.identity = p.identity := by
  rw [← identity_onPage p', h, identity_onPage]

theorem levels_identity (p : Place) : p.identity.levels = p.levels.map Declaration.identity := by
  simp [levels, identity]

theorem stem_map_identity (ds : List Declaration) :
    stem (ds.map Declaration.identity) = stem ds := by
  unfold stem
  rw [List.foldl_map]
  rfl

theorem scopeLevels_map_identity (ds : List Declaration) :
    scopeLevels (ds.map Declaration.identity) = (scopeLevels ds).map Declaration.identity := by
  induction ds using List.reverseRecOn with
  | nil => rfl
  | append_singleton ds d ih =>
    have hc : d.identity.isContainer = d.isContainer := rfl
    simp only [scopeLevels, List.map_append, List.map_cons, List.map_nil, List.foldl_append,
      List.foldl_cons, List.foldl_nil, hc] at ih ⊢
    rw [ih]
    split
    · rfl
    · rw [List.map_append, List.map_cons, List.map_nil]

theorem fileName_identity (p : Place) : p.identity.fileName = p.fileName := by
  unfold fileName
  rw [levels_identity, stem_map_identity]
  rfl

theorem scopedName_identity (p : Place) : p.identity.scopedName = p.scopedName := by
  unfold scopedName
  rw [levels_identity, scopeLevels_map_identity, List.map_map]
  rfl

theorem isNameable_identity (p : Place) : p.identity.isNameable = p.isNameable := by
  unfold isNameable
  rw [levels_identity, List.all_map]
  rfl

theorem fileName_congr (h : p'.identity = p.identity) : p'.fileName = p.fileName := by
  rw [← fileName_identity, h, fileName_identity]

theorem link_congr (h : p'.identity = p.identity) : p'.link = p.link := by
  rw [link, fileName_congr h, link]

theorem scopedName_congr (h : p'.identity = p.identity) : p'.scopedName = p.scopedName := by
  rw [← scopedName_identity, h, scopedName_identity]

end Place

namespace Page

variable {origin : Log.Origin} {root root' p p' : Place} {k : Kind}

theorem trailLevels_map_identity (ds : List Declaration) :
    trailLevels (ds.map Declaration.identity) = (trailLevels ds).map Declaration.identity := by
  induction ds using List.reverseRecOn with
  | nil => rfl
  | append_singleton ds d ih =>
    have hm : d.identity.is .model = d.is .model := rfl
    have he : d.identity.is .entryPoint = d.is .entryPoint := rfl
    simp only [trailLevels, List.map_append, List.map_cons, List.map_nil, List.foldl_append,
      List.foldl_cons, List.foldl_nil, hm, he] at ih ⊢
    rw [ih]
    split
    · rfl
    · rw [List.map_append, List.map_cons, List.map_nil]

theorem placeOfLevel_map_identity (ds : List Declaration) {i : Nat} (h : i < ds.length) :
    placeOfLevel (ds.map Declaration.identity) i = (placeOfLevel ds i).identity := by
  have h' : i < (ds.map Declaration.identity).length := by rwa [List.length_map]
  unfold placeOfLevel Place.identity
  rw [List.getD_eq_getElem _ _ h', List.getD_eq_getElem _ _ h, List.getElem_map, List.map_take]

/-- The trail shows names and leads to places of names. -/
theorem trail_identity (p : Place) : trail p.identity = (trail p).map Place.identity := by
  unfold trail trailStart
  rw [Place.levels_identity, trailLevels_map_identity, List.length_map, List.length_map,
    List.map_map]
  refine List.map_congr_left fun i hi => placeOfLevel_map_identity p.levels ?_
  have := List.mem_range.1 hi
  omega

theorem trail_congr (h : p'.identity = p.identity) :
    (trail p').map Place.identity = (trail p).map Place.identity := by
  rw [← trail_identity, h, trail_identity]

theorem breadcrumb_congr (hroot : root'.identity = root.identity)
    (h : p'.identity = p.identity) : breadcrumb root' p' = breadcrumb root p := by
  -- a step of the trail shows the name and the link of a place
  let steps (q : Place) : List Markup := [Markup.classed "span" "breadcrumb" (Markup.text " / "),
    Markup.anchor q.self.name q.link "breadcrumb"]
  have names (q : Place) : steps q = steps q.identity := by
    simp only [steps, Place.link_congr q.identity_identity]
    rfl
  unfold breadcrumb
  rw [Place.link_congr hroot]
  congr 1
  change (trail p').flatMap steps = (trail p).flatMap steps
  calc (trail p').flatMap steps
      = ((trail p').map Place.identity).flatMap steps := by
        rw [List.flatMap_map]
        exact List.flatMap_congr fun q _ => names q
    _ = ((trail p).map Place.identity).flatMap steps := by rw [trail_congr h]
    _ = (trail p).flatMap steps := by
        rw [List.flatMap_map]
        exact List.flatMap_congr fun q _ => (names q).symm

theorem expectNameable_congr {ps ps' : List Place}
    (h : ps'.map Place.identity = ps.map Place.identity) :
    expectNameable ps' = expectNameable ps := by
  have all (qs : List Place) :
      qs.all Place.isNameable = (qs.map Place.identity).all Place.isNameable := by
    rw [List.all_map]
    exact List.all_congr rfl fun q => (q.isNameable_identity).symm
  unfold expectNameable
  rw [all ps', h, ← all]

theorem heading_congr (h : p'.identity = p.identity) :
    heading origin p' = heading origin p := by
  have hself : p'.self.identity = p.self.identity := congrArg Place.self h
  have hkind : p'.self.kind = p.self.kind := Declaration.kind_of_identity hself
  have hname : p'.self.name = p.self.name := (congrArg Declaration.name hself :)
  unfold heading
  rw [hkind, hname, Place.scopedName_congr h, unsupported, unsupported, hkind]

theorem cell_inRow (p : Place) (c : Cell) : cell origin p.inRow c = cell origin p c := by
  have hid := p.identity_inRow
  have hone : [p.inRow].map Place.identity = [p].map Place.identity := by
    rw [List.map_singleton, List.map_singleton, hid]
  cases c with
  | reference =>
    simp only [cell]
    rw [Place.link_congr hid, expectNameable_congr hone]
    exact congrArg _ (funext fun _ => by rw [Place.inRow, Declaration.conciseSignature_inRow])
  | signature =>
    simp only [cell, Place.inRow, Declaration.conciseSignature_inRow]
  | modifiers | propertyType | initializer => rfl
  | description =>
    simp only [cell, Place.inRow, Declaration.inRow]
    cases p.self.comment with
    | none =>
      simp only [Option.map_none, Option.getD_none, Comment.nodesMarkup_nil]
      rfl
    | some c => rfl

theorem cells_congr (h : p'.inRow = p.inRow) (cs : List Column) :
    cells origin p' cs = cells origin p cs := by
  induction cs with
  | nil => rfl
  | cons c cs ih =>
    rw [cells, cells, ih, ← cell_inRow p', h, cell_inRow]

/-- Two members are listed on a page in the same way: they are of one kind, and their rows show the
same if they have any. -/
def RowsAgree (page : Kind) (m m' : Placed) : Prop :=
  m'.self.kind = m.self.kind ∧
    ((Section.forMember? page m.self).isSome → m'.place.inRow = m.place.inRow)

theorem RowsAgree.of_place {page : Kind} {m m' : Placed} (h : m'.place = m.place) :
    RowsAgree page m m' := by
  refine ⟨?_, fun _ => by rw [h]⟩
  rw [Placed.self, h, Placed.self]

theorem isSome_forMember_congr {d d' : Declaration} (h : d'.kind = d.kind) (page : Kind) :
    (Section.forMember? page d').isSome = (Section.forMember? page d).isSome := by
  unfold Section.forMember?
  rw [h]
  cases page <;> rcases d.kind.kind? with _ | _ | _ <;> rfl

theorem forMember_inRow (page : Kind) (d : Declaration) :
    Section.forMember? page d.inRow = Section.forMember? page d := rfl

theorem rows_congr {page : Kind} {ms ms' : List Placed}
    (h : List.Forall₂ (RowsAgree page) ms ms') :
    rows origin page ms' = rows origin page ms := by
  induction h with
  | nil => rfl
  | @cons m m' ms ms' hm _ ih =>
    obtain ⟨hkind, hrow⟩ := hm
    have hisSome := isSome_forMember_congr hkind page
    rw [rows, rows, hkind, ih, unsupported, unsupported, hkind]
    cases hs : Section.forMember? page m.self with
    | none =>
      rw [hs] at hisSome
      have hs' : Section.forMember? page m'.self = none :=
        Option.not_isSome_iff_eq_none.1 (by rw [hisSome]; decide)
      rw [hs']
    | some s =>
      -- the row is built from what the member says in a row, and so is the table chosen
      have hrow := hrow (by rw [hs]; rfl)
      have hs' : Section.forMember? page m'.self = some s := by
        rw [← forMember_inRow, show m'.self.inRow = m.self.inRow from congrArg Place.self hrow,
          forMember_inRow, hs]
      rw [hs']
      dsimp only
      rw [cells_congr hrow]

/-- Known members without a table are passed over. -/
theorem rows_filter {page : Kind} {ms : List Placed}
    (h : ∀ m ∈ ms, m.self.kind.isKnown = true) :
    rows origin page (ms.filter fun m => (Section.forMember? page m.self).isSome) =
      rows origin page ms := by
  induction ms with
  | nil => rfl
  | cons m ms ih =>
    obtain ⟨hm, hms⟩ := List.forall_mem_cons.1 h
    rw [List.filter_cons, rows, hm]
    cases hs : Section.forMember? page m.self with
    | none => simpa using ih hms
    | some s =>
      simp only [Option.isSome_some, if_true, rows, hm, hs, ih hms]

variable {q q' : Placed}

/-- Two pages are the same but for what their tables show of members. -/
structure FramesAgree (origin : Log.Origin) (root root' : Place) (q q' : Placed) : Prop where
  kind : q'.self.kind = q.self.kind
  names : expectNameable (root' :: trail q'.place) = expectNameable (root :: trail q.place)
  trail : breadcrumb root' q'.place = breadcrumb root q.place
  heading : heading origin q'.place = heading origin q.place
  summary : summary origin q'.self = summary origin q.self
  remarks : remarks origin q'.self = remarks origin q.self
  notice : betaNotice q'.self = betaNotice q.self
  signature : signature q'.self = signature q.self
  parameters : parameterTable q'.self = parameterTable q.self

/-- A page shows of its own item what pages show, and of the items on the way to it their names. -/
theorem FramesAgree.of_onPage (hroot : root'.identity = root.identity)
    (h : q'.place.onPage = q.place.onPage) : FramesAgree origin root root' q q' := by
  have hid := Place.identity_of_onPage h
  have hself : q'.self.onPage = q.self.onPage := congrArg Place.self h
  exact {
    kind := (congrArg Declaration.kind hself :)
    names := expectNameable_congr (by rw [List.map_cons, List.map_cons, hroot, trail_congr hid])
    trail := breadcrumb_congr hroot hid
    heading := heading_congr hid
    summary := (congrArg (Page.summary origin) hself :)
    remarks := (congrArg (Page.remarks origin) hself :)
    notice := (congrArg betaNotice hself :)
    signature := (congrArg Page.signature hself :)
    parameters := (congrArg parameterTable hself :) }

/-- The whole page is what is around the tables and the rows. -/
theorem main_congr (hroot : root'.identity = root.identity) (h : q'.place.onPage = q.place.onPage)
    (hrows : ∀ k, q.self.kind.kind? = some k → Section.allOn k ≠ [] →
      rows origin k (q'.listed k) = rows origin k (q.listed k)) :
    main origin root' q' = main origin root q := by
  have hf : FramesAgree origin root root' q q' := .of_onPage hroot h
  have hbody (k : Kind) (hk : q.self.kind.kind? = some k) :
      body origin k q' = body origin k q := by
    rw [body, body, hf.parameters]
    by_cases hnone : Section.allOn k = []
    · rw [hnone]
      rfl
    · rw [hrows k hk hnone]
  unfold main
  rw [hf.names, hf.heading, hf.summary, hf.remarks, hf.notice, hf.signature, hf.kind, hf.trail,
    unsupported, unsupported, hf.kind]
  cases hk : q.self.kind.kind? with
  | none => rfl
  | some k =>
    dsimp only
    simp only [Logged.pure_bind, hbody k hk]

theorem text_congr (c : Config) (hroot : root'.identity = root.identity)
    (h : q'.place.onPage = q.place.onPage)
    (hrows : ∀ k, q.self.kind.kind? = some k → Section.allOn k ≠ [] →
      rows origin k (q'.listed k) = rows origin k (q.listed k)) :
    text origin c root' q' = text origin c root q := by
  rw [text, main_congr hroot h hrows, text]

end Page

end RefSite
