import RefSite.Proofs.Site.Members

namespace RefSite

namespace Section

/-- The declarations that packages and namespaces list, with their tables. -/
def declarationTables : List (Kind × Section) :=
  [(.classDecl, classes), (.enum, enumerations), (.function, functions), (.interface, interfaces),
    (.namespaceDecl, namespaces), (.variableDecl, variableDecls), (.typeAlias, types)]

/-- What each table of a page of the given kind takes in. -/
inductive Takes : Kind → Section → Declaration → Prop where
  | package {d : Declaration} (h : d.is .package = true) : Takes .model packages d
  | declaration {page k : Kind} {t : Section} {d : Declaration}
      (hpage : page = .package ∨ page = .namespaceDecl) (ht : (k, t) ∈ declarationTables)
      (h : d.is k = true) : Takes page t d
  | constructor {d : Declaration} (h : d.is .constructor = true) :
      Takes .classDecl classConstructors d
  | method {d : Declaration} (h : d.is .method = true) : Takes .classDecl classMethods d
  | event {d : Declaration} (h : d.is .property = true) (he : d.isEvent = true) :
      Takes .classDecl classEvents d
  | property {d : Declaration} (h : d.is .property = true) (he : d.isEvent = false) :
      Takes .classDecl classProperties d
  | constructSignature {d : Declaration} (h : d.is .constructSignature = true) :
      Takes .interface interfaceMethods d
  | methodSignature {d : Declaration} (h : d.is .methodSignature = true) :
      Takes .interface interfaceMethods d
  | eventSignature {d : Declaration} (h : d.is .propertySignature = true)
      (he : d.isEvent = true) : Takes .interface interfaceEvents d
  | propertySignature {d : Declaration} (h : d.is .propertySignature = true)
      (he : d.isEvent = false) : Takes .interface interfaceProperties d
  | enumMember {d : Declaration} : Takes .enum enumMembers d

variable {page k : Kind} {t : Section} {d : Declaration}

theorem ofDeclaration_eq_some_iff :
    ofDeclaration? k = some t ↔ (k, t) ∈ declarationTables := by
  cases k <;> simp [ofDeclaration?, declarationTables, eq_comm]

/-- A member is put in the table that takes it in. -/
theorem forMember_eq_some_iff : forMember? page d = some t ↔ Takes page t d := by
  constructor
  · intro h
    unfold forMember? at h
    split at h
    case h_1 hk =>
      cases h
      exact .package (Declaration.is_iff.2 hk)
    case h_2 k hk =>
      exact .declaration (.inl rfl) (ofDeclaration_eq_some_iff.1 h) (Declaration.is_iff.2 hk)
    case h_3 k hk =>
      exact .declaration (.inr rfl) (ofDeclaration_eq_some_iff.1 h) (Declaration.is_iff.2 hk)
    case h_4 hk =>
      cases h
      exact .constructor (Declaration.is_iff.2 hk)
    case h_5 hk =>
      cases h
      exact .method (Declaration.is_iff.2 hk)
    -- a property and its signature are put in the table of events if they are events
    case h_6 hk =>
      have his := Declaration.is_iff.2 hk
      cases he : d.isEvent <;> rw [he] at h <;> cases h
      · exact .property his he
      · exact .event his he
    case h_7 hk =>
      cases h
      exact .constructSignature (Declaration.is_iff.2 hk)
    case h_8 hk =>
      cases h
      exact .methodSignature (Declaration.is_iff.2 hk)
    case h_9 hk =>
      have his := Declaration.is_iff.2 hk
      cases he : d.isEvent <;> rw [he] at h <;> cases h
      · exact .propertySignature his he
      · exact .eventSignature his he
    case h_10 =>
      cases h
      exact .enumMember
    case h_11 => exact nomatch h
  · intro h
    cases h with
    | declaration hpage ht h =>
      have hkind := Declaration.is_iff.1 h
      have htable := ofDeclaration_eq_some_iff.2 ht
      rcases hpage with rfl | rfl
      · simp only [forMember?, hkind, htable]
      · simp only [forMember?, hkind, htable]
    | enumMember => rfl
    | event h he | property h he | eventSignature h he | propertySignature h he =>
      simp [forMember?, Declaration.is_iff.1 h, he]
    | package h | constructor h | method h | constructSignature h | methodSignature h =>
      simp [forMember?, Declaration.is_iff.1 h]

instance (page : Kind) (t : Section) (d : Declaration) : Decidable (Takes page t d) :=
  decidable_of_iff _ forMember_eq_some_iff

/-- No member is taken in by two tables. -/
theorem Takes.unique {u : Section} (ht : Takes page t d) (hu : Takes page u d) : t = u := by
  have h := forMember_eq_some_iff.2 ht
  rw [forMember_eq_some_iff.2 hu] at h
  exact (Option.some.inj h).symm

/-- A table that takes members in is one of the page. -/
theorem Takes.mem_allOn (h : Takes page t d) : t ∈ allOn page :=
  Page.mem_allOn_of_forMember (forMember_eq_some_iff.2 h)

theorem isSome_forMember_iff :
    (forMember? page d).isSome = true ↔ ∃ t ∈ allOn page, Takes page t d := by
  rw [Option.isSome_iff_exists]
  constructor
  · rintro ⟨t, ht⟩
    have htakes := forMember_eq_some_iff.1 ht
    exact ⟨t, htakes.mem_allOn, htakes⟩
  · rintro ⟨t, -, ht⟩
    exact ⟨t, forMember_eq_some_iff.2 ht⟩

end Section

namespace Page

open Markup Placed Section

variable {origin : Log.Origin} {k : Kind} {p : Placed} {q : Place} {ms : List Placed}
  {about : List Markup}

/-- The summary of the item can be shown, if there is one. -/
def HasShownSummary (origin : Log.Origin) (d : Declaration) : Prop :=
  ∀ c, d.comment = some c → ∃ ms, (Comment.nodesMarkup origin c.summary).result = .ok ms

/-- The row has the given number of cells. -/
def HasCells (n : Nat) (row : Markup) : Prop :=
  ∃ cs : List Markup, cs.length = n ∧ (∀ c ∈ cs, ∃ content, c = plain "td" content) ∧
    row = plain "tr" (block cs)

/-- The tables of a page that have rows, each under its title. -/
def shownTables (k : Kind) (rows : Section → List Markup) : List Markup :=
  (allOn k).flatMap fun t =>
    if rows t = [] then []
    else [classed "h3" "section-heading" (Markup.text t.title),
      Table.toMarkup ⟨t.headings, rows t⟩]

/-- The element is a table or the title of one. -/
def isTabular : Markup → Bool
  | .element type _ _ => type = "h3" || type = "table"
  | _ => false

theorem exists_cell (hsummary : HasShownSummary origin q.self) {c : Cell}
    (hname : c = .reference → q.isNameable = true) : ∃ m, (cell origin q c).result = .ok m := by
  cases c with
  | reference =>
    have hnameable : (expectNameable [q]).result = .ok () := by
      rw [expectNameable, List.all_cons, hname rfl]
      rfl
    exact ⟨_, Logged.bind_eq_ok.2 ⟨(), hnameable, rfl⟩⟩
  | description =>
    simp only [cell]
    split
    · exact ⟨_, rfl⟩
    · next c hc =>
      obtain ⟨ms, hms⟩ := hsummary c hc
      exact ⟨_, Logged.bind_eq_ok.2 ⟨ms, hms, rfl⟩⟩
  | signature | modifiers | propertyType | initializer => exact ⟨_, rfl⟩

theorem reference_of_unnameable (h : q.isNameable = false) :
    cell origin q .reference = Logged.fail .longNumber := by
  rw [cell, expectNameable, List.all_cons, h]
  rfl

theorem exists_cells (hsummary : HasShownSummary origin q.self) {columns : List Column}
    (hname : ∀ c ∈ columns, c.cell = .reference → q.isNameable = true) :
    ∃ cs, (cells origin q columns).result = .ok cs := by
  induction columns with
  | nil => exact ⟨[], rfl⟩
  | cons c columns ih =>
    obtain ⟨hc, hcolumns⟩ := List.forall_mem_cons.1 hname
    obtain ⟨m, hm⟩ := exists_cell hsummary hc
    obtain ⟨cs, hcs⟩ := ih hcolumns
    exact ⟨m :: cs, Logged.bind_eq_ok.2 ⟨m, hm, Logged.bind_eq_ok.2 ⟨cs, hcs, rfl⟩⟩⟩

/-- Only the table of enumeration members has no links in it. -/
theorem ne_enum_of_reference {t : Section} (ht : t ∈ allOn k) {c : Column} (hc : c ∈ t.columns)
    (href : c.cell = .reference) : k ≠ .enum := by
  rintro rfl
  have hcount : (t.columns.map Column.cell).count .reference = 0 := count_reference_enum ht
  have hmem : Cell.reference ∈ t.columns.map Column.cell := href ▸ List.mem_map_of_mem hc
  exact List.count_eq_zero.1 hcount hmem

/-- The rows can be made when all members are of known kinds, their summaries can be shown, and
those that are linked to have file names. -/
theorem exists_rows (hknown : ∀ m ∈ ms, m.self.kind.isKnown = true)
    (hsummaries : ∀ m ∈ ms, HasShownSummary origin m.self)
    (hnames : k ≠ .enum → ∀ m ∈ ms, ∀ t, Takes k t m.self → m.place.isNameable = true) :
    ∃ rs, (rows origin k ms).result = .ok rs := by
  induction ms with
  | nil => exact ⟨[], rfl⟩
  | cons m ms ih =>
    obtain ⟨hm, hms⟩ := List.forall_mem_cons.1 hknown
    obtain ⟨hsummary, hsummaries⟩ := List.forall_mem_cons.1 hsummaries
    have hrest (hne : k ≠ .enum) := (List.forall_mem_cons.1 (hnames hne)).2
    obtain ⟨rs, hrs⟩ := ih hms hsummaries hrest
    rw [rows, hm, Bool.not_true, if_neg (by decide)]
    split
    -- a member of a known kind that no table takes in is passed over
    · exact ⟨rs, hrs⟩
    · next t ht =>
      have htakes : Takes k t m.self := forMember_eq_some_iff.1 ht
      have hname (c : Column) (hc : c ∈ t.columns) (href : c.cell = .reference) :
          m.place.isNameable = true :=
        hnames (ne_enum_of_reference htakes.mem_allOn hc href) m List.mem_cons_self t htakes
      obtain ⟨cs, hcs⟩ := exists_cells hsummary hname
      exact ⟨(t, row cs) :: rs, Logged.bind_eq_ok.2 ⟨cs, hcs, Logged.bind_eq_ok.2 ⟨rs, hrs, rfl⟩⟩⟩

theorem exists_td (m : Markup) : ∃ content, m.cell = plain "td" content := by
  unfold Markup.cell
  split
  · exact ⟨_, rfl⟩
  · exact ⟨_, rfl⟩

/-- A row has a cell under each heading of its table. -/
theorem IsRowOf.hasCells {t : Section} {m : Placed} {row : Markup} (h : IsRowOf origin t m row) :
    HasCells t.headings.length row := by
  obtain ⟨cs, hcs, rfl⟩ := h
  refine ⟨cs.map Markup.cell, ?_, ?_, rfl⟩
  · calc (cs.map Markup.cell).length = cs.length := List.length_map ..
      _ = t.columns.length := hcs.length_eq.symm
      _ = t.headings.length := (List.length_map ..).symm
  · intro c hc
    obtain ⟨b, -, rfl⟩ := List.mem_map.1 hc
    exact exists_td b

theorem tables_eq_shownTables (rs : List (Section × Markup)) :
    tables k rs = shownTables k fun t => rowsOf t rs := by
  unfold tables shownTables titled
  simp only [List.isEmpty_iff]

theorem isFunctionLike_of_mem_containerKinds (hk : k ∈ containerKinds) :
    k.isFunctionLike = false := by
  revert k
  decide

theorem body_of_rows {rs : List (Section × Markup)} (hk : k ∈ containerKinds)
    (h : (rows origin k (p.listed k)).result = .ok rs) :
    (body origin k p).result = .ok (shownTables k fun t => rowsOf t rs) := by
  have hne : (allOn k).isEmpty = false := List.isEmpty_eq_false_iff.2 (Site.allOn_ne_nil hk)
  unfold body
  rw [hne, isFunctionLike_of_mem_containerKinds hk, ← tables_eq_shownTables,
    ← List.append_nil (tables k rs)]
  exact Logged.bind_eq_ok.2 ⟨rs, h, rfl⟩

section Tabular

theorem filter_shownTables (rows : Section → List Markup) :
    (shownTables k rows).filter isTabular = shownTables k rows := by
  refine List.filter_eq_self.2 fun m hm => ?_
  obtain ⟨t, -, hm⟩ := List.mem_flatMap.1 hm
  split at hm
  · exact nomatch hm
  · obtain rfl | hm := List.mem_cons.1 hm
    · rfl
    · cases List.mem_singleton.1 hm
      rfl

theorem filter_breadcrumb (root q : Place) : (breadcrumb root q).filter isTabular = [] := by
  refine List.filter_eq_nil_iff.2 fun m hm => ?_
  obtain rfl | hm := List.mem_cons.1 hm
  · exact Bool.false_ne_true
  · obtain ⟨r, -, hm⟩ := List.mem_flatMap.1 hm
    obtain rfl | hm := List.mem_cons.1 hm
    · exact Bool.false_ne_true
    · cases List.mem_singleton.1 hm
      exact Bool.false_ne_true

theorem filter_betaNotice (d : Declaration) : (betaNotice d).filter isTabular = [] := by
  unfold betaNotice
  split
  · rfl
  · rfl

theorem filter_signature (d : Declaration) : (signature d).filter isTabular = [] := by
  unfold signature
  split
  · rfl
  · rfl

theorem filter_summary {d : Declaration} (h : (summary origin d).result = .ok about) :
    about.filter isTabular = [] := by
  unfold summary at h
  split at h
  · cases h
    rfl
  · obtain ⟨ms, -, h⟩ := Logged.bind_eq_ok.1 h
    cases h
    rfl

theorem filter_remarks {d : Declaration}
    (h : about = [] ∨ (remarks origin d).result = .ok about) : about.filter isTabular = [] := by
  obtain rfl | h := h
  · rfl
  · unfold remarks at h
    split at h
    · cases h
      rfl
    · obtain ⟨ms, -, h⟩ := Logged.bind_eq_ok.1 h
      cases h
      rfl

/-- The tables of a page are those of its body. -/
theorem filter_main {root : Place} {content ts : List Markup} (hkind : p.self.kind.kind? = some k)
    (hbody : (body origin k p).result = .ok ts) (h : (main origin root p).result = .ok content) :
    content.filter isTabular = ts.filter isTabular := by
  obtain ⟨k', title, about, first, ts', last, hk', habout, hbody', hfirst, hlast, rfl⟩ :=
    main_parts h
  cases hkind.symm.trans hk'
  cases hbody.symm.trans hbody'
  simp only [List.filter_append, filter_breadcrumb, filter_betaNotice, filter_signature,
    filter_summary habout, filter_remarks hfirst, filter_remarks hlast, List.append_nil]
  rfl

end Tabular

/-- The members of a model, package, namespace, class, interface or enumeration are tabulated. Each
is taken in by one table of the page at most; every table has its members as rows, in order, and the
tables with rows are shown in their order, and no others; and the members with a row are the
children, except for those of an enumeration. -/
theorem members_are_tabulated (hkind : p.self.kind.kind? = some k) (hk : k ∈ containerKinds)
    (hknown : ∀ m ∈ p.listed k, m.self.kind.isKnown = true)
    (hsummaries : ∀ m ∈ p.listed k, HasShownSummary origin m.self)
    (hnames : k ≠ .enum → ∀ m ∈ p.listed k, ∀ t, Takes k t m.self → m.place.isNameable = true) :
    (∀ m ∈ p.listed k, ∀ t u, Takes k t m.self → Takes k u m.self → t = u ∧ t ∈ allOn k) ∧
    (∃ rows : Section → List Markup,
      (∀ t ∈ allOn k, List.Forall₂
        (fun m row => IsRowOf origin t m row ∧ HasCells t.headings.length row)
        ((p.listed k).filter fun m => Takes k t m.self) (rows t)) ∧
      (body origin k p).result = .ok (shownTables k rows) ∧
      ∀ root content, (main origin root p).result = .ok content →
        content.filter isTabular = shownTables k rows) ∧
    p.children = if k = .enum then []
      else (p.listed k).filter fun m => ∃ t ∈ allOn k, Takes k t m.self := by
  obtain ⟨rs, hrs⟩ := exists_rows hknown hsummaries hnames
  have hrows := (rows_eq_ok hrs).2
  have hbody := body_of_rows hk hrs
  refine ⟨fun m _ t u ht hu => ⟨ht.unique hu, ht.mem_allOn⟩,
    ⟨fun t => rowsOf t rs, ?_, hbody, ?_⟩, ?_⟩
  · intro t _
    -- the rows of a table are those of the members that it takes in
    have hof : (p.listed k).filter (fun m => forMember? k m.self = some t) =
        (p.listed k).filter fun m => Takes k t m.self := by
      simp only [forMember_eq_some_iff]
    rw [← hof]
    exact (hrows t).imp fun m row h => ⟨h, h.hasCells⟩
  · intro root content hcontent
    rw [filter_main hkind hbody hcontent]
    exact filter_shownTables _
  · rw [children_eq_linked hkind, linked]
    simp only [← isSome_forMember_iff, Bool.decide_eq_true]

/-- A class with the given members. -/
def classOf (ms : List Item) : Placed :=
  (Item.mk { kind := .known .classDecl, name := "C" } ms).placed

/-- Members of a class; there is no table for the type. -/
def mixedMembers : List Item :=
  [.mk { kind := .known .property, name := "x" } [],
    .mk { kind := .known .typeAlias, name := "T" } [],
    .mk { kind := .known .property, name := "changed", isEvent := true } [],
    .mk { kind := .known .method, name := "move" } [],
    .mk { kind := .known .property, name := "y" } []]

theorem mixed_members_are_tabulated :
    let c := classOf mixedMembers
    (∀ m ∈ c.listed .classDecl, m.self.kind.isKnown = true) ∧
      (∀ m ∈ c.listed .classDecl, HasShownSummary .site m.self) ∧
      (∀ m ∈ c.listed .classDecl, m.place.isNameable = true) ∧
      (∃ rows : Section → List Markup,
        (body .site .classDecl c).result = .ok (shownTables .classDecl rows) ∧
          ∀ t ∈ allOn .classDecl, (rows t).length =
            if t = classProperties then 2 else if t = classConstructors then 0 else 1) ∧
      c.children.map (fun m => m.self.name) = ["x", "changed", "move", "y"] := by
  intro c
  have hknown : ∀ m ∈ c.listed .classDecl, m.self.kind.isKnown = true := by decide
  have hsummaries : ∀ m ∈ c.listed .classDecl, HasShownSummary .site m.self := by
    have hnone : ∀ m ∈ c.listed .classDecl, m.self.comment.isNone = true := by decide
    intro m hm d hd
    have h := hnone m hm
    rw [hd] at h
    exact nomatch h
  have hnames : ∀ m ∈ c.listed .classDecl, m.place.isNameable = true := by decide +kernel
  obtain ⟨-, ⟨rows, hrows, hbody, -⟩, -⟩ := members_are_tabulated rfl (by decide) hknown hsummaries
    fun _ m hm _ _ => hnames m hm
  refine ⟨hknown, hsummaries, hnames, ⟨rows, hbody, fun t ht => ?_⟩, by decide +kernel⟩
  rw [← (hrows t ht).length_eq]
  revert t
  decide +kernel

/-- A method whose number has so many digits that it cannot be written. -/
def farOverload : Item :=
  .mk { kind := .known .method, name := "m", overload := Int.ofNat (Nat.pow 10 4300) + 1 } []

/-- A row that cannot link to the page of its member stops the table, although nothing is wrong with
the summaries. -/
theorem far_overload_stops_tables :
    let c := classOf [farOverload]
    c.self.kind.kind? = some .classDecl ∧
      (∀ m ∈ c.listed .classDecl, m.self.kind.isKnown = true ∧ m.self.comment = none) ∧
      (body .site .classDecl c).result = .error .longNumber := by
  intro c
  refine ⟨rfl, ?_, ?_⟩
  · intro m hm
    cases List.mem_singleton.1 hm
    exact ⟨rfl, rfl⟩
  · let m := farOverload.placedBelow c.place.levels
    have hname : m.place.isNameable = false := by decide +kernel
    have hcells : cells .site m.place classMethods.columns = Logged.fail .longNumber := by
      rw [show classMethods.columns = ⟨"Method", .reference⟩ :: classMethods.columns.tail from rfl,
        cells, reference_of_unnameable hname, Logged.fail_bind]
    have hrows : rows .site .classDecl [m] = Logged.fail .longNumber := by
      have htable : forMember? .classDecl m.self = some classMethods := rfl
      simp only [rows, htable]
      rw [hcells]
      rfl
    have hlisted : c.listed .classDecl = [m] := rfl
    rw [body, hlisted, hrows]
    rfl

end Page

end RefSite
