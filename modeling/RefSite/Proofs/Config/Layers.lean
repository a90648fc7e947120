import RefSite.Proofs.Config.Overlay
import RefSite.Value.Depth

namespace RefSite.Entries

variable {key k v w x : Value} {a b c es inner : Entries} {path : List Value}

/-- The collections of which two are joined. -/
inductive Joint where
  | mapping
  | list

/-- As what a value is joined with others under the key. -/
def joint? (key v : Value) : Option Joint :=
  match v.body with
  | .map _ => some .mapping
  | .list _ => if isAdditive key then some .list else none
  | _ => none

theorem joint_eq_mapping_iff : joint? key v = some .mapping ↔ ∃ es, v.body = .map es := by
  unfold joint?
  cases v.body <;> simp

theorem joint_eq_list_iff :
    joint? key v = some .list ↔ isAdditive key = true ∧ ∃ xs, v.body = .list xs := by
  unfold joint?
  cases v.body <;> simp

theorem joins_iff_joint : joins key (some v.body) w.body = true ↔
    ∃ j, joint? key v = some j ∧ joint? key w = some j := by
  unfold joint?
  cases v.body <;> cases w.body <;> simp [joins]

/-- What is laid over something is afterwards joined as it was before. -/
theorem joint_combined (key v w : Value) :
    joint? key (combined key (some v.body) w) = joint? key w := by
  by_cases hj : joins key (some v.body) w.body = true
  · obtain ⟨b, u, hv, hw⟩ | ⟨hkey, xs, ys, hv, hw⟩ := joins_cases hj
    · rw [hv, combined_of_maps key hw, joint?, joint?, hw]
      rfl
    · rw [hv, combined_of_lists hkey hw, joint?, joint?, hw]
      rfl
  · rw [combined_of_not_joins (by simpa using hj)]

theorem combined_of_not_joint (h : ¬ ∃ j, joint? key v = some j ∧ joint? key w = some j) :
    combined key (some v.body) w = w := by
  apply combined_of_not_joins
  simpa [← joins_iff_joint] using h

theorem combined_assoc_of_maps (key : Value) (hv : v.body = .map a) (hw : w.body = .map b)
    (hx : x.body = .map c) (h : overlay (overlay a b) c = overlay a (overlay b c)) :
    combined key (some (combined key (some v.body) w).body) x =
      combined key (some v.body) (combined key (some w.body) x) := by
  calc combined key (some (combined key (some v.body) w).body) x
      = combined key (some (.map (overlay a b))) x := by
        rw [hv, combined_of_maps key hw]; rfl
    _ = .map (overlay (overlay a b) c) := combined_of_maps key hx
    _ = .map (overlay a (overlay b c)) := by rw [h]
    _ = combined key (some (.map a)) (.map (overlay b c)) := (combined_of_maps key rfl).symm
    _ = combined key (some v.body) (combined key (some w.body) x) := by
        rw [hv, hw, combined_of_maps key hx]

theorem combined_assoc_of_lists {xs ys zs : List Value} (hkey : isAdditive key = true)
    (hv : v.body = .list xs) (hw : w.body = .list ys) (hx : x.body = .list zs) :
    combined key (some (combined key (some v.body) w).body) x =
      combined key (some v.body) (combined key (some w.body) x) := by
  calc combined key (some (combined key (some v.body) w).body) x
      = combined key (some (.list (xs ++ ys))) x := by
        rw [hv, combined_of_lists hkey hw]; rfl
    _ = .list (xs ++ ys ++ zs) := combined_of_lists hkey hx
    _ = .list (xs ++ (ys ++ zs)) := by rw [List.append_assoc]
    _ = combined key (some (.list xs)) (.list (ys ++ zs)) := (combined_of_lists hkey rfl).symm
    _ = combined key (some v.body) (combined key (some w.body) x) := by
        rw [hv, hw, combined_of_lists hkey hx]

/-- Three values may be combined in either grouping if the one in the middle is joined with the last
wherever the first one would be, and if the mappings that they may be can be grouped so. -/
theorem combined_assoc
    (hjoint : ∀ j, joint? key v = some j → joint? key x = some j → joint? key w = some j)
    (hmaps : ∀ a b c, v.body = .map a → w.body = .map b → x.body = .map c →
      overlay (overlay a b) c = overlay a (overlay b c)) :
    combined key (some (combined key (some v.body) w).body) x =
      combined key (some v.body) (combined key (some w.body) x) := by
  by_cases hwx : ∃ j, joint? key w = some j ∧ joint? key x = some j
  · obtain ⟨j, hw, hx⟩ := hwx
    by_cases hv : joint? key v = some j
    · -- all three are collections of one kind
      cases j with
      | mapping =>
        obtain ⟨a, ha⟩ := joint_eq_mapping_iff.1 hv
        obtain ⟨b, hb⟩ := joint_eq_mapping_iff.1 hw
        obtain ⟨c, hc⟩ := joint_eq_mapping_iff.1 hx
        exact combined_assoc_of_maps key ha hb hc (hmaps a b c ha hb hc)
      | list =>
        obtain ⟨hkey, xs, hxs⟩ := joint_eq_list_iff.1 hv
        obtain ⟨-, ys, hys⟩ := joint_eq_list_iff.1 hw
        obtain ⟨-, zs, hzs⟩ := joint_eq_list_iff.1 hx
        exact combined_assoc_of_lists hkey hxs hys hzs
    · -- the first value is replaced by whatever the other two give
      have hvw : ¬ ∃ i, joint? key v = some i ∧ joint? key w = some i := by
        rintro ⟨i, hi, hwi⟩
        rw [hw] at hwi
        exact hv (hi.trans hwi.symm)
      have hfirst : ¬ ∃ i, joint? key v = some i ∧
          joint? key (combined key (some w.body) x) = some i := by
        rw [joint_combined]
        rintro ⟨i, hi, hxi⟩
        rw [hx] at hxi
        exact hv (hi.trans hxi.symm)
      rw [combined_of_not_joint hvw, combined_of_not_joint hfirst]
  · -- the last value replaces the other two, in whatever grouping
    have hlast : ¬ ∃ j, joint? key (combined key (some v.body) w) = some j ∧
        joint? key x = some j := by
      rwa [joint_combined]
    have hends : ¬ ∃ j, joint? key v = some j ∧ joint? key x = some j := by
      rintro ⟨j, hv, hx⟩
      exact hwx ⟨j, hjoint j hv hx, hx⟩
    rw [combined_of_not_joint hlast, combined_of_not_joint hwx, combined_of_not_joint hends]

/-- At no path that leads through mappings of all three do the first and the last have both
mappings, or both lists of plugins, where the one between them has a value of another shape. -/
def ShapesAgree (a b c : Entries) : Prop :=
  ∀ path, LeadsThrough a path → LeadsThrough b path → LeadsThrough c path →
    ∀ u v w, at? a path = some u → at? b path = some v → at? c path = some w →
      (u.isMap = true → w.isMap = true → v.isMap = true) ∧
        (path.getLast?.any isAdditive = true → u.isList = true → w.isList = true →
          v.isList = true)

theorem ShapesAgree.under {a' b' c' : Entries} (h : ShapesAgree a b c)
    (ha : mappingAt? a [k] = some a') (hb : mappingAt? b [k] = some b')
    (hc : mappingAt? c [k] = some c') : ShapesAgree a' b' c' := by
  intro path hla hlb hlc u v w hu hv hw
  cases path with
  | nil =>
    rw [at_nil] at hv
    obtain rfl := Option.some.inj hv
    exact ⟨fun _ _ => rfl, fun hlast => nomatch hlast⟩
  | cons l path =>
    have hne : l :: path ≠ [] := List.cons_ne_nil l path
    rw [← at_under ha hne] at hu
    rw [← at_under hb hne] at hv
    rw [← at_under hc hne] at hw
    have hbelow := h (k :: l :: path) ((leadsThrough_under ha).2 hla)
      ((leadsThrough_under hb).2 hlb) ((leadsThrough_under hc).2 hlc) u v w hu hv hw
    rwa [List.getLast?_cons_cons] at hbelow

/-- Shapes agree if they do so under each key of the mapping in the middle, and below it where all
three have mappings. -/
theorem ShapesAgree.of_entries
    (h : ∀ e ∈ b, ∀ v x, find? a e.1 = some v → find? c e.1 = some x →
      ((v.isMap = true → x.isMap = true → e.2.isMap = true) ∧
        (isAdditive e.1 = true → v.isList = true → x.isList = true → e.2.isList = true)) ∧
      ∀ a' b' c', v.entries? = some a' → e.2.entries? = some b' → x.entries? = some c' →
        ShapesAgree a' b' c') : ShapesAgree a b c := by
  intro path hla hlb hlc v w x hv hw hx
  -- the whole mappings, one key, or a key with a path below it
  rcases path with _ | ⟨k, _ | ⟨l, rest⟩⟩
  · rw [at_nil] at hw
    obtain rfl := Option.some.inj hw
    exact ⟨fun _ _ => rfl, fun hlast => nomatch hlast⟩
  · rw [at_singleton] at hv hw hx
    obtain ⟨e, he, hek, rfl⟩ := mem_of_find hw
    rw [← find_congr hek] at hv hx
    rw [List.getLast?_singleton, Option.any_some, ← isAdditive_congr hek]
    exact (h e he v x hv hx).1
  · have hne : l :: rest ≠ [] := List.cons_ne_nil l rest
    have hfirst {es : Entries} (hl : LeadsThrough es (k :: l :: rest)) :
        ∃ inner, mappingAt? es [k] = some inner := by
      apply Option.isSome_iff_exists.1
      exact hl [k] (by simp) (by simp)
    obtain ⟨a', ha'⟩ := hfirst hla
    obtain ⟨b', hb'⟩ := hfirst hlb
    obtain ⟨c', hc'⟩ := hfirst hlc
    have hbelow : ShapesAgree a' b' c' := by
      rw [mappingAt_singleton, Option.bind_eq_some_iff] at ha' hb' hc'
      obtain ⟨v', hv', hva⟩ := ha'
      obtain ⟨w', hw', hwb⟩ := hb'
      obtain ⟨x', hx', hxc⟩ := hc'
      obtain ⟨e, he, hek, rfl⟩ := mem_of_find hw'
      rw [← find_congr hek] at hv' hx'
      exact (h e he v' x' hv' hx').2 a' b' c' hva hwb hxc
    rw [leadsThrough_under ha'] at hla
    rw [leadsThrough_under hb'] at hlb
    rw [leadsThrough_under hc'] at hlc
    rw [at_under ha' hne] at hv
    rw [at_under hb' hne] at hw
    rw [at_under hc' hne] at hx
    rw [List.getLast?_cons_cons]
    exact hbelow (l :: rest) hla hlb hlc v w x hv hw hx

/-- Under every key that all three have, the value in the middle is joined with the others wherever
these would be joined. -/
theorem ShapesAgree.joint (h : ShapesAgree a b c) (hv : find? a k = some v)
    (hw : find? b k = some w) (hx : find? c k = some x) (j : Joint)
    (hjv : joint? k v = some j) (hjx : joint? k x = some j) : joint? k w = some j := by
  rw [← at_singleton] at hv hw hx
  obtain ⟨hmaps, hlists⟩ := h [k] (leadsThrough_singleton a k) (leadsThrough_singleton b k)
    (leadsThrough_singleton c k) v w x hv hw hx
  cases j with
  | mapping =>
    rw [joint_eq_mapping_iff, ← Value.isMap_iff] at hjv hjx ⊢
    exact hmaps hjv hjx
  | list =>
    rw [joint_eq_list_iff, ← Value.isList_iff] at hjv hjx ⊢
    exact ⟨hjv.1, hlists hjv.1 hjv.2 hjx.2⟩

theorem depthEntries_lt_of_find (hv : find? es k = some v) (h : v.body = .map inner) :
    Value.depthEntries inner < Value.depthEntries es := by
  obtain ⟨e, he, -, rfl⟩ := mem_of_find hv
  have hdepth : e.2.depth = Value.depthEntries inner + 1 := by
    rw [← Value.depth_body, h, Value.depth]
  have hle := (Value.depth_le_depthEntries he).2
  omega

theorem mappingAt_of_find (hv : find? es k = some v) (h : v.body = .map inner) :
    mappingAt? es [k] = some inner := by
  rw [mappingAt_singleton, hv, Option.bind_some, Value.entries?, h]

theorem isNone_find_overlay (hes : HasKeys es) (base : Entries) (k : Value) :
    (find? (overlay base es) k).isNone = ((find? es k).isNone && (find? base k).isNone) := by
  rw [find_overlay hes.distinct]
  cases find? es k <;> simp

theorem keys_overlay_assoc (hb : HasKeys b) (hc : HasKeys c) (hbc : HasKeys (overlay b c))
    (a : Entries) : keys (overlay (overlay a b) c) = keys (overlay a (overlay b c)) := by
  rw [keys_overlay hc.distinct, keys_overlay hb.distinct, keys_overlay hbc.distinct,
    keys_overlay hc.distinct, List.filter_append, List.filter_filter, List.append_assoc]
  simp only [isNone_find_overlay hb, Bool.and_comm]

/-- By induction on how deeply the mapping in the middle is nested. -/
theorem overlay_assoc (ha : IsWellKeyed a) (hb : IsWellKeyed b) (hc : IsWellKeyed c)
    (h : ShapesAgree a b c) : overlay (overlay a b) c = overlay a (overlay b c) := by
  induction hn : Value.depthEntries b using Nat.strong_induction_on generalizing a b c with
  | _ n ih =>
    subst hn
    have hab : HasKeys (overlay a b) := ha.hasKeys.overlay hb.hasKeys
    have hbc : HasKeys (overlay b c) := hb.hasKeys.overlay hc.hasKeys
    apply eq_of_keys_of_find (hab.overlay hc.hasKeys)
    · exact keys_overlay_assoc hb.hasKeys hc.hasKeys hbc a
    · intro k
      rw [find_overlay hc.hasKeys.distinct, find_overlay hb.hasKeys.distinct,
        find_overlay hbc.distinct, find_overlay hc.hasKeys.distinct]
      -- there is something to group only under a key that all three have
      cases hv : find? a k with
      | none =>
        cases find? b k with
        | none => cases find? c k <;> simp [combined_none]
        | some w => cases find? c k <;> simp [combined_none]
      | some v =>
        cases hw : find? b k with
        | none => cases find? c k <;> simp [combined_none]
        | some w =>
          cases hx : find? c k with
          | none => simp
          | some x =>
            simp only [Option.map_some, Option.some.injEq]
            apply combined_assoc (h.joint hv hw hx)
            intro a' b' c' hva hwb hxc
            have ha' := mappingAt_of_find hv hva
            have hb' := mappingAt_of_find hw hwb
            have hc' := mappingAt_of_find hx hxc
            exact ih _ (depthEntries_lt_of_find hw hwb) (ha.below ha') (hb.below hb')
              (hc.below hc') (h.under ha' hb' hc') rfl

theorem overlay_empty_base (hes : HasKeys es) : overlay [] es = es := by
  apply eq_of_keys_of_find (hasKeys_nil.overlay hes)
  · rw [keys_overlay hes.distinct]
    exact List.filter_eq_self.2 fun k _ => rfl
  · intro k
    rw [find_overlay hes.distinct]
    cases find? es k <;> simp [combined_none, find_nil]

/-- Layers of settings may be put together in either grouping, and a layer without settings changes
nothing. Not even the order of keys differs. -/
theorem layers_can_be_regrouped (ha : IsWellKeyed a) (hb : IsWellKeyed b) (hc : IsWellKeyed c) :
    (ShapesAgree a b c → overlay (overlay a b) c = overlay a (overlay b c)) ∧
      overlay a [] = a ∧ overlay [] a = a :=
  ⟨overlay_assoc ha hb hc, overlay_nil a, overlay_empty_base ha.hasKeys⟩

/-- Settings for one run, with plugins at both depths and a mapping where the shared ones have a
text. -/
def runPart : Entries :=
  [(.text "plugins", .list [.text "d"]), (.int 1, .map [(.text "y", .null)])]

def runSettings : Entries := [(.text "site", .map runPart), (.text "plugins", .list [.text "e"])]

theorem isWellKeyed_runSettings : IsWellKeyed runSettings := by
  have hlast : IsWellKeyed [(.text "y", .null)] :=
    .of_entries (by decide) (by simp [Value.entries?, Value.body])
  have hpart : IsWellKeyed runPart :=
    .of_entries (by decide) (by simp [runPart, Value.entries?, Value.body, hlast])
  exact .of_entries (by decide) (by simp [runSettings, Value.entries?, Value.body, hpart])

theorem shapesAgree_of_run : ShapesAgree sharedSettings ownSettings runSettings := by
  have hno {p : Prop} (h : false = true) : p := absurd h Bool.false_ne_true
  have hpart : ShapesAgree sharedPart ownPart runPart := by
    refine .of_entries fun e he v x hv hx => ?_
    simp only [ownPart, List.mem_cons, List.not_mem_nil, or_false] at he
    obtain rfl | rfl | rfl := he
    · cases hv
    · obtain rfl := Option.some.inj hv
      refine ⟨⟨fun hmap => hno hmap, fun _ _ _ => rfl⟩, fun a' b' c' ha' => ?_⟩
      cases ha'
    · obtain rfl := Option.some.inj hv
      refine ⟨⟨fun hmap => hno hmap, fun hkey => hno hkey⟩, fun a' b' c' ha' => ?_⟩
      cases ha'
  refine .of_entries fun e he v x hv hx => ?_
  simp only [ownSettings, List.mem_cons, List.not_mem_nil, or_false] at he
  obtain rfl | rfl := he
  · obtain rfl := Option.some.inj hv
    refine ⟨⟨fun hmap => hno hmap, fun _ hlist => hno hlist⟩, fun a' b' c' ha' => ?_⟩
    cases ha'
  · obtain rfl := Option.some.inj hv
    obtain rfl := Option.some.inj hx
    refine ⟨⟨fun _ _ => rfl, fun hkey => hno hkey⟩, fun a' b' c' ha' hb' hc' => ?_⟩
    obtain rfl := Option.some.inj ha'
    obtain rfl := Option.some.inj hb'
    obtain rfl := Option.some.inj hc'
    exact hpart

theorem run_settings_can_be_regrouped :
    IsWellKeyed sharedSettings ∧ IsWellKeyed ownSettings ∧ IsWellKeyed runSettings ∧
      ShapesAgree sharedSettings ownSettings runSettings ∧
      overlay (overlay sharedSettings ownSettings) runSettings =
        overlay sharedSettings (overlay ownSettings runSettings) ∧
      overlay sharedSettings [] = sharedSettings ∧ overlay [] sharedSettings = sharedSettings := by
  obtain ⟨hassoc, hempty⟩ := layers_can_be_regrouped isWellKeyed_sharedSettings
    isWellKeyed_ownSettings isWellKeyed_runSettings
  exact ⟨isWellKeyed_sharedSettings, isWellKeyed_ownSettings, isWellKeyed_runSettings,
    shapesAgree_of_run, hassoc shapesAgree_of_run, hempty⟩

/-- Shapes have to agree: a value between two mappings keeps them from being joined only if it is
laid over the first one before the last one is laid over it. -/
example :
    overlay (overlay [(.text "x", .map [(.int 1, .null)])] [(.text "x", .null)])
        [(.text "x", .map [])] = [(.text "x", .map [])] ∧
      overlay [(.text "x", .map [(.int 1, .null)])]
        (overlay [(.text "x", .null)] [(.text "x", .map [])]) =
          [(.text "x", .map [(.int 1, .null)])] :=
  ⟨rfl, rfl⟩

end RefSite.Entries
