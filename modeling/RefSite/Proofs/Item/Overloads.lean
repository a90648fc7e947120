import Mathlib
import RefSite.Proofs.Item.SafeNames
import RefSite.Proofs.Item.Texts
import RefSite.Proofs.Site.Members
import RefSite.Proofs.Value.Numbers

namespace RefSite

namespace Place

variable {p q : Place} {d e : Declaration} {base rest : List Declaration}

/-- The item stands at the levels or below, and its file name goes on from theirs: no package below
them starts names afresh, and the item is no model, whose file always has the same name. -/
structure GoesOnFrom (base : List Declaration) (p : Place) : Prop where
  not_model : p.self.is .model = false
  levels : ∃ rest, p.levels = base ++ rest ∧ ∀ d ∈ rest, d.is .package = false

/-- What a level that is no package adds to a file name. -/
def addition (d : Declaration) : String := extendStem "" d

theorem extendStem_eq_append (h : d.is .package = false) (s : String) :
    extendStem s d = s ++ addition d := by
  unfold addition extendStem
  rw [h]
  split
  · simp
  · simp [String.append_assoc]

theorem foldl_extendStem_eq_append (h : ∀ d ∈ rest, d.is .package = false) (s : String) :
    rest.foldl extendStem s = s ++ String.join (rest.map addition) := by
  induction rest generalizing s with
  | nil => simp
  | cons d ds ih =>
    obtain ⟨hd, hds⟩ := List.forall_mem_cons.1 h
    rw [List.foldl_cons, extendStem_eq_append hd, ih hds, List.map_cons, String.join_cons,
      String.append_assoc]

/-- What follows a level in a file name starts with a dot, that of a further level or the ending. -/
theorem exists_toList_additions (h : ∀ d ∈ rest, d.is .package = false) :
    ∃ cs, (String.join (rest.map addition) ++ pageEnding).toList = '.' :: cs := by
  induction rest with
  | nil => exact ⟨"html".toList, by decide⟩
  | cons d ds ih =>
    obtain ⟨hd, hds⟩ := List.forall_mem_cons.1 h
    obtain ⟨cs, hcs⟩ := ih hds
    have hempty : ∃ t, addition d = "" ∨ addition d = "." ++ t := by
      unfold addition extendStem
      rw [hd]
      split
      · exact ⟨"", .inl rfl⟩
      · exact ⟨segment d, .inr (by simp)⟩
    rw [List.map_cons, String.join_cons, String.append_assoc, String.toList_append, hcs]
    obtain ⟨t, ht | ht⟩ := hempty
    · exact ⟨cs, by rw [ht]; rfl⟩
    · exact ⟨t.toList ++ '.' :: cs, by rw [ht, String.toList_append]; rfl⟩

/-- A file name that goes on from a level has its name, its overload and a dot after them. -/
theorem GoesOnFrom.toList_fileName (hp : p.GoesOnFrom (base ++ [d])) (hd : d.isContainer = false) :
    ∃ cs, p.fileName.toList =
      (stem base ++ "." ++ safeName d.name).toList ++ ((overloadSuffix d).toList ++ '.' :: cs) := by
  obtain ⟨rest, hlevels, hrest⟩ := hp.levels
  obtain ⟨cs, hcs⟩ := exists_toList_additions hrest
  refine ⟨cs, ?_⟩
  -- the stem up to the level is that of the level alone, since nothing below starts names afresh
  have hname : p.fileName = stem base ++ "." ++ safeName d.name ++ (overloadSuffix d ++
      (String.join (rest.map addition) ++ pageEnding)) := by
    rw [fileName_of_not_model hp.not_model, hlevels, stem_append, foldl_extendStem_eq_append hrest,
      stem_append, List.foldl_cons, List.foldl_nil, extendStem_shown hd, segment]
    simp only [String.append_assoc]
  have happend (s t : String) : (s ++ t).toList = s.toList ++ t.toList := String.toList_append
  rw [hname, happend _ (overloadSuffix d ++ _), happend (overloadSuffix d), hcs]

theorem overloadSuffix_eq_iff (d e : Declaration) :
    overloadSuffix d = overloadSuffix e ↔ d.overloadNumber = e.overloadNumber := by
  have hd := one_le_overloadNumber d
  have he := one_le_overloadNumber e
  rw [overloadSuffix_eq, overloadSuffix_eq]
  constructor
  -- suffixes are written from the second overload on, and differ as numbers do
  · intro h
    split at h <;> split at h
    · have hrepr := Int.repr_inj.1 ((String.append_right_inj _).1 h)
      omega
    · exact absurd (congrArg String.toList h) (by simp)
    · exact absurd (congrArg String.toList h) (by simp)
    · omega
  · intro h
    rw [h]

theorem eq_of_append_dot {cs ds us vs : List Char} (hcs : '.' ∉ cs) (hds : '.' ∉ ds)
    (h : cs ++ '.' :: us = ds ++ '.' :: vs) : cs = ds := by
  have hword {cs : List Char} (hcs : '.' ∉ cs) (us : List Char) :
      (cs ++ '.' :: us).takeWhile (· != '.') = cs := by
    rw [List.takeWhile_append_of_pos, List.takeWhile_cons_of_neg, List.append_nil]
    · simp
    · intro c hc
      have hne : c ≠ '.' := fun he => hcs (he ▸ hc)
      exact bne_iff_ne.2 hne
  rw [← hword hcs us, h, hword hds vs]

/-- Levels of one name with different overloads lead to different files, however the names go on. -/
theorem GoesOnFrom.fileName_ne (hp : p.GoesOnFrom (base ++ [d])) (hq : q.GoesOnFrom (base ++ [e]))
    (hd : d.isContainer = false) (he : e.isContainer = false) (hname : d.name = e.name)
    (hne : d.overloadNumber ≠ e.overloadNumber) : p.fileName ≠ q.fileName := by
  intro hfile
  obtain ⟨cs, hcs⟩ := hp.toList_fileName hd
  obtain ⟨ds, hds⟩ := hq.toList_fileName he
  -- both names begin alike up to the suffixes, which have no dot and end at one
  rw [hfile, hds, hname, List.append_cancel_left_eq] at hcs
  have hsuffix := eq_of_append_dot (dot_notMem_overloadSuffix e) (dot_notMem_overloadSuffix d) hcs
  exact hne ((overloadSuffix_eq_iff d e).1 (String.toList_inj.1 hsuffix.symm))

/-- In file names something function-like stands for its name and its number alone. -/
theorem fileName?_congr (hd : d.isFunctionLike = true) (he : e.isFunctionLike = true)
    (hname : d.name = e.name) (hoverload : d.overload = e.overload) (above : List Declaration) :
    fileName? ⟨above, d⟩ = fileName? ⟨above, e⟩ := by
  have hkinds {d : Declaration} (hd : d.isFunctionLike = true) {k : Kind}
      (hk : k.isContainer = true) : d.is k = false :=
    Declaration.is_eq_false_of_shown (not_container_of_isFunctionLike hd) hk
  have hextend (s : String) : extendStem? s d = extendStem? s e := by
    unfold extendStem? segment?
    rw [hkinds hd rfl, hkinds hd rfl, hkinds hd rfl, hkinds he rfl, hkinds he rfl, hkinds he rfl,
      hd, he, hname, hoverload]
  have hlevels : (above ++ [d]).foldlM extendStem? "" = (above ++ [e]).foldlM extendStem? "" := by
    simp only [List.foldlM_append, List.foldlM_cons, List.foldlM_nil, hextend]
  rw [fileName?, fileName?, levels, levels, hkinds hd rfl, hkinds he rfl, hlevels]

theorem fileName?_eq_some (hnear : ∀ d ∈ p.levels, ¬ IsFarOverload d) :
    p.fileName? = some p.fileName := by
  rw [fileName?_eq, (isNameable_iff p).2 (.inr hnear), if_pos rfl]

end Place

namespace Item

open Value

variable {source : Option Path} {v w : Value} {es : Entries} {i j : Item}

theorem overload_of_declarationOf {d : Declaration} (h : declarationOf source es = .ok d) :
    overloadOfValue source (es.field "overloadIndex") = .ok d.overload := by
  obtain ⟨kind, -, h⟩ := exists_of_bind_ok h
  obtain ⟨name, -, h⟩ := exists_of_bind_ok h
  obtain ⟨comment, -, h⟩ := exists_of_bind_ok h
  obtain ⟨excerpt, -, h⟩ := exists_of_bind_ok h
  obtain ⟨modifiers, -, h⟩ := exists_of_bind_ok h
  obtain ⟨release, -, h⟩ := exists_of_bind_ok h
  obtain ⟨parameters, -, h⟩ := exists_of_bind_ok h
  obtain ⟨overload, hoverload, h⟩ := exists_of_bind_ok h
  obtain ⟨propertyType, -, h⟩ := exists_of_bind_ok h
  obtain ⟨initializer, -, h⟩ := exists_of_bind_ok h
  cases h
  exact hoverload

/-- A number of at least one is taken over as its whole part. -/
theorem overloadOfValue_of_number {x : ℚ} (h : v.number? = some x) (hx : 1 ≤ x) :
    overloadOfValue source v = .ok ⌊x⌋ := by
  have hread := toInt_of_number h hx
  cases v with
  | null => exact nomatch h
  | _ => simp only [overloadOfValue, hread]

theorem overload_of_ofValue {x : ℚ} (h : ofValue source w = .ok j) (hw : w.body = .map es)
    (hx : (es.field "overloadIndex").number? = some x) (hone : 1 ≤ x) :
    j.self.overload = ⌊x⌋ := by
  obtain ⟨es', d, vs, ms, hw', hd, -, -, -, rfl⟩ := parts_of_ofValue h
  obtain rfl := Value.map.inj (hw.symm.trans hw')
  have hread := overload_of_declarationOf hd
  rw [overloadOfValue_of_number hx hone] at hread
  rw [self_assemble]
  exact (Except.ok.inj hread).symm

/-- The item that holds what the mapping lists: the item itself or the entry point made for it. -/
def owner (es : Entries) (p : Placed) : Placed :=
  if needsEntryPoint p.self es then p.members.headD p else p

theorem members_owner (d : Declaration) (es : Entries) (ms : List Item)
    (above : List Declaration) :
    let o := owner es ((assemble d es ms).placedBelow above)
    o.members = ms.map (placedBelow o.place.levels) := by
  intro o
  have hself : ((assemble d es ms).placedBelow above).self = d := by
    rw [Placed.self, place_placedBelow, self_assemble]
  -- the members are held by the unnamed entry point if there is one, or else by the item itself
  cases hneeds : needsEntryPoint d es with
  | true =>
    have hassemble : assemble d es ms = mk d [mk unnamedEntryPoint ms] := by
      rw [assemble, hneeds, if_pos rfl]
    have ho : o = (mk unnamedEntryPoint ms).placedBelow (above ++ [d]) := by
      rw [show o = owner es _ from rfl, owner, hself, hneeds, if_pos rfl, hassemble,
        members_placedBelow]
      rfl
    rw [ho, members_placedBelow, place_placedBelow]
    rfl
  | false =>
    have hassemble : assemble d es ms = mk d ms := by
      rw [assemble, hneeds, if_neg Bool.false_ne_true]
    have ho : o = (mk d ms).placedBelow above := by
      rw [show o = owner es _ from rfl, owner, hself, hneeds, if_neg Bool.false_ne_true, hassemble]
    rw [ho, members_placedBelow, place_placedBelow]
    rfl

/-- The item is read from the value and stands among the members of the other. -/
def IsMemberReadFrom (source : Option Path) (o : Placed) (w : Value) (p : Placed) : Prop :=
  ∃ j, ofValue source w = .ok j ∧ p = j.placedBelow o.place.levels

/-- The members are read from what the mapping lists, one from each value in its order. -/
theorem members_of_ofValue (h : ofValue source v = .ok i) (above : List Declaration) :
    ∃ es vs, v.body = .map es ∧ (membersField es).givenElements = .ok vs ∧
      List.Forall₂ (IsMemberReadFrom source (owner es (i.placedBelow above))) vs
        (owner es (i.placedBelow above)).members := by
  obtain ⟨es, d, vs, ms, hv, -, hvs, -, hms, rfl⟩ := parts_of_ofValue h
  refine ⟨es, vs, hv, hvs, ?_⟩
  rw [members_owner, List.forall₂_map_right_iff]
  exact hms.imp fun w m hm => ⟨m, hm, rfl⟩

/-- The member is an overload of the name, and the value that it is read from numbers it. -/
structure IsOverload (vs : List Value) (ps : List Placed) (name : String) (x : ℚ)
    (p : Placed) : Prop where
  numbered : ∃ w es, (w, p) ∈ vs.zip ps ∧ w.body = .map es ∧
    (Entries.field es "overloadIndex").number? = some x
  isFunctionLike : p.self.isFunctionLike = true
  named : p.self.name = name
  one_le : 1 ≤ x

section

variable {vs : List Value} {ps : List Placed} {o p : Placed} {name : String} {x : ℚ}

/-- An overload stands below its owner and has the whole part of what numbers it as its number. -/
theorem IsOverload.place_and_overload (h : IsOverload vs ps name x p)
    (hread : List.Forall₂ (IsMemberReadFrom source o) vs ps) :
    p.place = ⟨o.place.levels, p.self⟩ ∧ p.self.overload = ⌊x⌋ := by
  obtain ⟨w, es, hmem, hw, hx⟩ := h.numbered
  obtain ⟨j, hj, rfl⟩ := List.forall₂_zip hread hmem
  have hplace := place_placedBelow o.place.levels j
  have hself : (j.placedBelow o.place.levels).self = j.self := congrArg Place.self hplace
  rw [hself]
  exact ⟨hplace, overload_of_ofValue hj hw hx h.one_le⟩

theorem IsOverload.overloadNumber_eq (h : IsOverload vs ps name x p)
    (hoverload : p.self.overload = ⌊x⌋) : p.self.overloadNumber = ⌊x⌋ := by
  rw [Declaration.overloadNumber, h.isFunctionLike, if_pos rfl, hoverload]
  exact max_eq_right (Int.le_floor.2 (by exact_mod_cast h.one_le))

end

/-- Overloads of one name among the members of an item have files of their own, and so has all that
stands below them, if the whole parts of their numbers differ; there are file names unless a number
has too many digits. But it is the whole part alone that tells two overloads. -/
theorem overloads_have_files_of_their_own (h : ofValue source v = .ok i)
    (above : List Declaration) : ∃ es vs,
    let o := owner es (i.placedBelow above)
    v.body = .map es ∧ (membersField es).givenElements = .ok vs ∧
      List.Forall₂ (IsMemberReadFrom source o) vs o.members ∧
      ∀ name x y a b, IsOverload vs o.members name x a → IsOverload vs o.members name y b →
        a.place.GoesOnFrom a.place.levels ∧
        (⌊x⌋ = ⌊y⌋ → a.place.fileName? = b.place.fileName?) ∧
        (⌊x⌋ ≠ ⌊y⌋ → ∀ p q : Place, p.GoesOnFrom a.place.levels → q.GoesOnFrom b.place.levels →
          (∀ d ∈ p.levels ++ q.levels, ¬ Place.IsFarOverload d) →
          ∃ f g, p.fileName? = some f ∧ q.fileName? = some g ∧ f ≠ g) := by
  obtain ⟨es, vs, hv, hvs, hread⟩ := members_of_ofValue h above
  refine ⟨es, vs, hv, hvs, hread, fun name x y a b ha hb => ?_⟩
  obtain ⟨haplace, haoverload⟩ := ha.place_and_overload hread
  obtain ⟨hbplace, hboverload⟩ := hb.place_and_overload hread
  have hacontainer := Place.not_container_of_isFunctionLike ha.isFunctionLike
  have hbcontainer := Place.not_container_of_isFunctionLike hb.isFunctionLike
  have hname : a.self.name = b.self.name := ha.named.trans hb.named.symm
  refine ⟨⟨Declaration.is_eq_false_of_shown hacontainer rfl, [], by simp⟩, fun hfloor => ?_,
    fun hfloor p q hp hq hnear => ?_⟩
  · have hoverload : a.self.overload = b.self.overload := by
      rw [haoverload, hboverload, hfloor]
    rw [haplace, hbplace]
    exact Place.fileName?_congr ha.isFunctionLike hb.isFunctionLike hname hoverload _
  · have hne : a.self.overloadNumber ≠ b.self.overloadNumber := by
      rw [ha.overloadNumber_eq haoverload, hb.overloadNumber_eq hboverload]
      exact hfloor
    -- both go on from levels of one name whose suffixes are different
    rw [haplace, Place.levels] at hp
    rw [hbplace, Place.levels] at hq
    exact ⟨p.fileName, q.fileName,
      Place.fileName?_eq_some fun d hd => hnear d (List.mem_append_left _ hd),
      Place.fileName?_eq_some fun d hd => hnear d (List.mem_append_right _ hd),
      hp.fileName_ne hq hacontainer hbcontainer hname hne⟩

/-- The fields of a method with the given number and a variable below it. -/
def turnFields (number : Value) : Entries :=
  [(.text "kind", .text "Method"), (.text "name", .text "turn"), (.text "overloadIndex", number),
    (.text "members", .list [.map [(.text "kind", .text "Variable"), (.text "name", .text "by")]])]

def turnItem (overload : Int) : Item :=
  .mk { kind := .known .method, name := "turn", overload }
    [.mk { kind := .known .variableDecl, name := "by" } []]

/-- The fields of a class with two methods that are numbered as given. -/
def turnsFields (first second : Value) : Entries :=
  [(.text "kind", .text "Class"), (.text "name", .text "Dial"),
    (.text "members", .list [.map (turnFields first), .map (turnFields second)])]

def turnsItem (first second : Int) : Item :=
  .mk { kind := .known .classDecl, name := "Dial" } [turnItem first, turnItem second]

theorem ofValue_turnFields {n : Int} (h : overloadOfValue none v = .ok n) :
    ofValue none (.map (turnFields v)) = .ok (turnItem n) := by
  have hd : declarationOf none (turnFields v) = .ok (turnItem n).self := by
    have hkind : kindOfValue none (.text "Method") = .ok .method := rfl
    have hname : (Value.text "turn").writeOrEmpty = .ok "turn" := rfl
    simp only [declarationOf, turnFields, Entries.field_cons]
    simp [hkind, hname, h, bind, Except.bind]
    rfl
  exact ofValue_of_parts hd rfl (.cons (ofValue_of_parts rfl rfl .nil rfl) .nil) rfl

theorem ofValue_turnsFields {m n : Int} (hv : overloadOfValue none v = .ok m)
    (hw : overloadOfValue none w = .ok n) :
    ofValue none (.map (turnsFields v w)) = .ok (turnsItem m n) :=
  ofValue_of_parts rfl rfl
    (.cons (ofValue_turnFields hv) (.cons (ofValue_turnFields hw) .nil)) rfl

/-- The number one and a half. -/
def oneAndHalf : Value := .float (.ofRatio false 3 2)

theorem number_oneAndHalf : oneAndHalf.number? = some (3 / 2) := by
  have hmeaning : (Binary64.ofRatio false 3 2).meaning = .finite false (3 * 2 ^ 51) (-52) := by
    decide +kernel
  rw [oneAndHalf, number?, Binary64.ratio?, hmeaning]
  norm_num

theorem overload_oneAndHalf : overloadOfValue none oneAndHalf = .ok 1 := by
  have hfloor : ⌊(3 / 2 : ℚ)⌋ = 1 := by norm_num
  rw [overloadOfValue_of_number number_oneAndHalf (by norm_num), hfloor]

/-- The levels above a class of a package. -/
def dialAbove : List Declaration :=
  [(Site.rootOf []).self, (Site.packageOf []).self, (Site.entryPointOf []).self]

theorem isOverload_turn {first second : Value} {m n : Int} {x : ℚ} {p : Placed} {number : Value}
    (hp : (.map (turnFields number), p) ∈
      [Value.map (turnFields first), .map (turnFields second)].zip
        ((turnsItem m n).placedBelow dialAbove).members)
    (hself : p.self.isFunctionLike = true ∧ p.self.name = "turn")
    (hnumber : number.number? = some x) (hx : 1 ≤ x) :
    IsOverload [.map (turnFields first), .map (turnFields second)]
      ((turnsItem m n).placedBelow dialAbove).members "turn" x p where
  numbered := ⟨_, _, hp, rfl, hnumber⟩
  isFunctionLike := hself.1
  named := hself.2
  one_le := hx

/-- The variables below the methods numbered one and a half and two have different files. -/
theorem variables_of_turns_have_files_of_their_own :
    let i := turnsItem 1 2
    let o := i.placedBelow dialAbove
    let vs := [Value.map (turnFields oneAndHalf), .map (turnFields (.int 2))]
    let turn (n : Int) : Placed := (turnItem n).placedBelow o.place.levels
    let variableOf (p : Placed) : Place :=
      p.place.child { kind := .known .variableDecl, name := "by" }
    ofValue none (.map (turnsFields oneAndHalf (.int 2))) = .ok i ∧
      IsOverload vs o.members "turn" (3 / 2) (turn 1) ∧ IsOverload vs o.members "turn" 2 (turn 2) ∧
      ∃ f g, (variableOf (turn 1)).fileName? = some f ∧ (variableOf (turn 2)).fileName? = some g ∧
        f ≠ g := by
  intro i o vs turn variableOf
  have hread : ofValue none (.map (turnsFields oneAndHalf (.int 2))) = .ok i :=
    ofValue_turnsFields overload_oneAndHalf rfl
  have hfirst : IsOverload vs o.members "turn" (3 / 2) (turn 1) :=
    isOverload_turn List.mem_cons_self ⟨rfl, rfl⟩ number_oneAndHalf (by norm_num)
  have hsecond : IsOverload vs o.members "turn" 2 (turn 2) :=
    isOverload_turn (List.mem_cons_of_mem _ List.mem_cons_self) ⟨rfl, rfl⟩ rfl (by norm_num)
  refine ⟨hread, hfirst, hsecond, ?_⟩
  obtain ⟨es, ws, hes, hws, -, hall⟩ := overloads_have_files_of_their_own hread dialAbove
  obtain rfl : turnsFields oneAndHalf (.int 2) = es := Value.map.inj hes
  obtain rfl : vs = ws := Except.ok.inj hws
  have hbelow (n : Int) : (variableOf (turn n)).GoesOnFrom (turn n).place.levels := by
    refine ⟨rfl, [(variableOf (turn n)).self], rfl, fun d hd => ?_⟩
    obtain rfl := List.mem_singleton.1 hd
    rfl
  have hnear : ∀ d ∈ (variableOf (turn 1)).levels ++ (variableOf (turn 2)).levels,
      ¬ Place.IsFarOverload d := by
    intro d hd
    rw [← Place.hasWritableOverload_iff]
    exact List.all_eq_true.1 (by decide +kernel) d hd
  exact (hall "turn" _ _ _ _ hfirst hsecond).2.2 (by norm_num) _ _ (hbelow 1) (hbelow 2) hnear

/-- The file of the two items for which a run failed, if it failed because they have one file. -/
def sharedFile? {α : Type} : Except Failure α → Option String
  | .error (.sharedFile name _ _) => some name
  | _ => none

/-- A number that is no whole one is not refused, and two methods whose numbers are different have
one file. The run over their site fails. -/
theorem turns_share_file :
    let i := turnsItem 1 1
    let o := i.placedBelow dialAbove
    let vs := [Value.map (turnFields (.int 1)), .map (turnFields oneAndHalf)]
    let turn := (turnItem 1).placedBelow o.place.levels
    ofValue none (.map (turnsFields (.int 1) oneAndHalf)) = .ok i ∧ o.members = [turn, turn] ∧
      IsOverload vs o.members "turn" 1 turn ∧ IsOverload vs o.members "turn" (3 / 2) turn ∧
      turn.place.fileName? = some "p.Dial.turn.html" ∧
      sharedFile? ((Site.siteOf [Site.entryPointOf [i]]).generate Site.plainOutput Site.plainDisk
        none).1 = some "p.Dial.turn.html" := by
  intro i o vs turn
  exact ⟨ofValue_turnsFields rfl overload_oneAndHalf, rfl,
    isOverload_turn List.mem_cons_self ⟨rfl, rfl⟩ rfl (le_refl _),
    isOverload_turn (List.mem_cons_of_mem _ List.mem_cons_self) ⟨rfl, rfl⟩ number_oneAndHalf
      (by norm_num),
    by decide +kernel, by decide +kernel⟩

end Item

end RefSite
