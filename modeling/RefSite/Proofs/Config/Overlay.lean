import RefSite.Proofs.Config.KeyPaths

namespace RefSite

namespace Value

/-- The items of a value that is a list. -/
def items? (v : Value) : Option (List Value) :=
  match v.body with
  | list items => some items
  | _ => none

def isMap (v : Value) : Bool := v.entries?.isSome

def isList (v : Value) : Bool := v.items?.isSome

theorem isMap_iff {v : Value} : v.isMap = true ↔ ∃ es, v.body = map es := by
  unfold isMap entries?
  cases v.body <;> simp

theorem isList_iff {v : Value} : v.isList = true ↔ ∃ xs, v.body = list xs := by
  unfold isList items?
  cases v.body <;> simp

end Value

namespace Entries

variable {key k l v w : Value} {es base update b u : Entries} {xs ys : List Value}
  {path : List Value}

theorem combined_of_maps (key : Value) (hw : w.body = .map u) :
    combined key (some (.map b)) w = .map (overlay b u) := by
  cases w with
  | map es =>
    obtain rfl : es = u := Value.map.inj hw
    rw [combined]
  | knot n w =>
    obtain rfl : w = .map u := hw
    rw [combined, if_pos (by rfl), combined]
  | _ => cases hw

theorem combined_of_lists (hkey : isAdditive key = true) (hw : w.body = .list ys) :
    combined key (some (.list xs)) w = .list (xs ++ ys) := by
  cases w with
  | list zs =>
    obtain rfl : zs = ys := Value.list.inj hw
    rw [combined]
    simp only [hkey, if_true]
  | knot n w =>
    obtain rfl : w = .list ys := hw
    rw [combined, if_pos (by exact hkey), combined]
    simp only [hkey, if_true]
  | _ => cases hw

theorem combined_of_not_joins {current : Option Value} (h : joins key current w.body = false) :
    combined key current w = w := by
  cases w with
  | map es =>
    rw [combined]
    rintro base rfl
    cases h
  | list ys =>
    by_cases hcurrent : ∃ xs, current = some (.list xs)
    · obtain ⟨xs, rfl⟩ := hcurrent
      have hkey : ¬ isAdditive key = true := by simpa [joins, Value.body] using h
      rw [combined, if_neg hkey]
    · rw [combined]
      intro xs hxs
      exact hcurrent ⟨xs, hxs⟩
  | knot n w =>
    have hknot : ¬ joins key current w = true := by simpa [Value.body] using h
    rw [combined, if_neg hknot]
  | _ => rw [combined] <;> simp

/-- Values are joined if they are both mappings, or both lists under a key whose lists
accumulate. -/
theorem joins_cases {current : Option Value} (h : joins key current w = true) :
    (∃ b u, current = some (.map b) ∧ w = .map u) ∨
      isAdditive key = true ∧ ∃ xs ys, current = some (.list xs) ∧ w = .list ys := by
  unfold joins at h
  split at h
  · exact .inl ⟨_, _, rfl, rfl⟩
  · exact .inr ⟨h, _, _, rfl, rfl⟩
  · exact nomatch h

theorem isAdditive_eq (key : Value) : isAdditive key = key.sameKey (.text additiveKey) := by
  cases key <;> simp [isAdditive, Value.sameKey, Value.asInt?]

theorem isAdditive_congr (h : k.sameKey l = true) : isAdditive k = isAdditive l := by
  rw [isAdditive_eq, isAdditive_eq, Value.sameKey_comm k, Value.sameKey_comm l,
    Value.sameKey_congr h]

theorem joins_congr (h : k.sameKey l = true) (current : Option Value) (w : Value) :
    joins k current w = joins l current w := by
  unfold joins
  rw [isAdditive_congr h]

/-- Keys that are the same combine what they hold alike. -/
theorem combined_congr (h : k.sameKey l = true) (current : Option Value) (w : Value) :
    combined k current w = combined l current w := by
  by_cases hj : joins k current w.body = true
  · obtain ⟨b, u, rfl, hw⟩ | ⟨hkey, xs, ys, rfl, hw⟩ := joins_cases hj
    · rw [combined_of_maps k hw, combined_of_maps l hw]
    · have hkey' : isAdditive l = true := by rwa [← isAdditive_congr h]
      rw [combined_of_lists hkey hw, combined_of_lists hkey' hw]
  · have hj' : joins k current w.body = false := by simpa using hj
    rw [combined_of_not_joins hj', combined_of_not_joins (by rwa [← joins_congr h])]

/-- What is found under a key afterwards: what the second mapping holds there, combined with what
the first one held. -/
theorem find_overlay (hes : (keys es).Pairwise fun k l => k.sameKey l = false) (base : Entries)
    (k : Value) :
    find? (overlay base es) k =
      match find? es k with
      | none => find? base k
      | some w => some (combined k ((find? base k).map Value.body) w) := by
  induction es generalizing base with
  | nil => rw [overlay]; rfl
  | cons e es ih =>
    -- the first key is set in the lower mapping, and none of those after it is the same
    obtain ⟨l, w⟩ := e
    rw [overlay, ih (List.pairwise_cons.1 hes).2, find_cons]
    by_cases hlk : l.sameKey k = true
    · rw [find_of_distinct hes hlk, if_pos hlk, find_insert_same hlk]
      simp only [find_congr hlk, combined_congr hlk]
    · rw [if_neg hlk, find_insert_other (by simpa using hlk)]

/-- The keys keep their places, and those that only the second mapping has come after them. -/
theorem keys_overlay (hes : (keys es).Pairwise fun k l => k.sameKey l = false) (base : Entries) :
    keys (overlay base es) = keys base ++ (keys es).filter fun k => (find? base k).isNone := by
  induction es generalizing base with
  | nil => rw [overlay]; exact (List.append_nil _).symm
  | cons e es ih =>
    obtain ⟨k, w⟩ := e
    obtain ⟨hfirst, hrest⟩ := List.pairwise_cons.1 hes
    have hsame : (keys es).filter (fun l =>
          (find? (insert base k (combined k ((find? base k).map Value.body) w)) l).isNone) =
        (keys es).filter fun l => (find? base l).isNone := by
      apply List.filter_congr
      intro l hl
      rw [find_insert_other (hfirst l hl)]
    rw [overlay, ih hrest, hsame, keys_insert]
    change _ = keys base ++ List.filter _ (k :: keys es)
    rw [List.filter_cons]
    cases find? base k <;> simp

theorem HasKeys.overlay (hbase : HasKeys base) (hes : HasKeys es) :
    HasKeys (overlay base es) := by
  constructor
  · intro k hk
    rw [keys_overlay hes.distinct, List.mem_append, List.mem_filter] at hk
    rcases hk with hk | ⟨hk, -⟩
    · exact hbase.areKeys k hk
    · exact hes.areKeys k hk
  · rw [keys_overlay hes.distinct, List.pairwise_append]
    refine ⟨hbase.distinct, hes.distinct.filter _, ?_⟩
    intro k hk l hl
    have hnone : find? base l = none := by
      simpa using (List.mem_filter.1 hl).2
    exact find_eq_none_iff.1 hnone k hk

/-- Where a path leads to mappings of both, it leads to the one laid over the other. -/
theorem mappingAt_overlay (hupdate : IsWellKeyed update) (hb : mappingAt? base path = some b)
    (hu : mappingAt? update path = some u) :
    mappingAt? (overlay base update) path = some (overlay b u) := by
  induction path generalizing base update with
  | nil =>
    rw [mappingAt_nil] at hb hu ⊢
    rw [Option.some.inj hb, Option.some.inj hu]
  | cons k path ih =>
    rw [mappingAt_cons, Option.bind_eq_some_iff] at hb hu
    obtain ⟨b', hb', hb⟩ := hb
    obtain ⟨u', hu', hu⟩ := hu
    have hnested : IsWellKeyed u' := by
      rw [← mappingAt_singleton] at hu'
      exact hupdate.below hu'
    obtain ⟨v, hv, hb'⟩ := Option.bind_eq_some_iff.1 hb'
    obtain ⟨w, hw, hu'⟩ := Option.bind_eq_some_iff.1 hu'
    have hfind : find? (overlay base update) k = some (.map (overlay b' u')) := by
      rw [find_overlay hupdate.hasKeys.distinct, hw, hv]
      simp only [Option.map_some, Value.body_of_entries hb']
      rw [combined_of_maps k (Value.body_of_entries hu')]
    rw [mappingAt_cons, hfind]
    exact ih hnested hb hu

/-- What stands in one place of two mappings, and there in the second one laid over the first. -/
inductive LaidOver (additive : Bool) : Option Value → Option Value → Option Value → Prop where
  | neither : LaidOver additive none none none
  | below (v : Value) : LaidOver additive (some v) none (some v)
  | above (w : Value) : LaidOver additive none (some w) (some w)
  | mappings {v w r : Value} (hv : v.isMap = true) (hw : w.isMap = true) (hr : r.isMap = true) :
      LaidOver additive (some v) (some w) (some r)
  | lists {v w : Value} {xs ys : List Value} (h : additive = true) (hv : v.items? = some xs)
      (hw : w.items? = some ys) : LaidOver additive (some v) (some w) (some (.list (xs ++ ys)))
  | replaced {v w : Value} (hmaps : ¬ (v.isMap = true ∧ w.isMap = true))
      (hlists : ¬ (additive = true ∧ v.isList = true ∧ w.isList = true)) :
      LaidOver additive (some v) (some w) (some w)

theorem joins_iff : joins key (some v.body) w.body = true ↔
    v.isMap = true ∧ w.isMap = true ∨
      isAdditive key = true ∧ v.isList = true ∧ w.isList = true := by
  simp only [Value.isMap_iff, Value.isList_iff]
  cases v.body <;> cases w.body <;> simp [joins]

theorem laidOver_combined (key v w : Value) :
    LaidOver (isAdditive key) (some v) (some w) (some (combined key (some v.body) w)) := by
  by_cases hj : joins key (some v.body) w.body = true
  · obtain ⟨b, u, hv, hw⟩ | ⟨hkey, xs, ys, hv, hw⟩ := joins_cases hj
    · have hv : v.body = .map b := Option.some.inj hv
      rw [hv, combined_of_maps key hw]
      exact .mappings (Value.isMap_iff.2 ⟨b, hv⟩) (Value.isMap_iff.2 ⟨u, hw⟩) rfl
    · have hv : v.body = .list xs := Option.some.inj hv
      rw [hv, combined_of_lists hkey hw]
      exact .lists hkey (by rw [Value.items?, hv]) (by rw [Value.items?, hw])
  · rw [combined_of_not_joins (by simpa using hj)]
    rw [joins_iff, not_or] at hj
    exact .replaced hj.1 hj.2

theorem laidOver_find (hes : HasKeys es) (base : Entries) (k : Value) :
    LaidOver (isAdditive k) (find? base k) (find? es k) (find? (overlay base es) k) := by
  rw [find_overlay hes.distinct]
  cases find? base k with
  | none =>
    cases find? es k with
    | none => exact .neither
    | some w =>
      simp only [Option.map_none, combined_none]
      exact .above w
  | some v =>
    cases find? es k with
    | none => exact .below v
    | some w => exact laidOver_combined k v w

/-- Nothing is lost at any depth when one mapping is laid over another. Along every path that leads
through mappings of both, the result holds what stands there in one of them alone; what is joined of
both, if both are mappings, or lists of plugins; and else what the second one holds. Mappings that
are joined keep the keys of the first in their order, those of the second alone come after them, and
none comes twice. -/
theorem overlay_is_lossless (hbase : IsWellKeyed base) (hupdate : IsWellKeyed update)
    (hb : LeadsThrough base path) (hu : LeadsThrough update path) :
    LaidOver (path.getLast?.any isAdditive) (at? base path) (at? update path)
        (at? (overlay base update) path) ∧
      ∀ b u, mappingAt? base path = some b → mappingAt? update path = some u →
        ∃ r, mappingAt? (overlay base update) path = some r ∧
          keys r = keys b ++ (keys u).filter (fun k => (find? b k).isNone) ∧
          (keys r).Pairwise fun k l => k.sameKey l = false := by
  constructor
  · -- only the last key of the path leads to anything but mappings
    rcases List.eq_nil_or_concat path with rfl | ⟨front, k, rfl⟩
    · rw [at_nil, at_nil, at_nil]
      exact .mappings rfl rfl rfl
    · rw [List.concat_eq_append] at hb hu ⊢
      obtain ⟨b, hb⟩ := Option.isSome_iff_exists.1 ((leadsThrough_concat base front k).1 hb)
      obtain ⟨u, hu⟩ := Option.isSome_iff_exists.1 ((leadsThrough_concat update front k).1 hu)
      rw [at_concat, at_concat, at_concat, mappingAt_overlay hupdate hb hu, hb, hu,
        List.getLast?_concat]
      exact laidOver_find (hupdate front u hu) b k
  · intro b u hb hu
    have hkb : HasKeys b := hbase path b hb
    have hku : HasKeys u := hupdate path u hu
    exact ⟨overlay b u, mappingAt_overlay hupdate hb hu, keys_overlay hku.distinct b,
      (hkb.overlay hku).distinct⟩

/-- Settings shared by several sites, with one key that is a number. -/
def sharedPart : Entries :=
  [(.int 1, .text "one"), (.text "plugins", .list [.text "a"]), (.text "x", .null)]

def sharedSettings : Entries := [(.text "site", .map sharedPart), (.text "plugins", .null)]

/-- Settings of one site, with a truth value for the same key. -/
def ownPart : Entries :=
  [(.text "z", .int 4), (.text "plugins", .list [.text "b"]), (.bool true, .map [])]

def ownSettings : Entries := [(.text "plugins", .list [.text "c"]), (.text "site", .map ownPart)]

theorem isWellKeyed_sharedSettings : IsWellKeyed sharedSettings := by
  have hpart : IsWellKeyed sharedPart :=
    .of_entries (by decide) (by simp [sharedPart, Value.entries?, Value.body])
  exact .of_entries (by decide) (by simp [sharedSettings, Value.entries?, Value.body, hpart])

theorem isWellKeyed_ownSettings : IsWellKeyed ownSettings := by
  have hpart : IsWellKeyed ownPart :=
    .of_entries (by decide) (by simp [ownPart, Value.entries?, Value.body, isWellKeyed_nil])
  exact .of_entries (by decide) (by simp [ownSettings, Value.entries?, Value.body, hpart])

/-- The plugins inside the site's settings accumulate, and its keys are those shared, with their
forms, before its own. -/
theorem plugins_of_site_accumulate :
    IsWellKeyed sharedSettings ∧ IsWellKeyed ownSettings ∧
      LaidOver true (some (.list [.text "a"])) (some (.list [.text "b"]))
        (at? (overlay sharedSettings ownSettings) [.text "site", .text "plugins"]) ∧
      ∃ r, mappingAt? (overlay sharedSettings ownSettings) [.text "site"] = some r ∧
        keys r = [.int 1, .text "plugins", .text "x", .text "z"] := by
  have hplugins : LeadsThrough sharedSettings [.text "site", .text "plugins"] ∧
      LeadsThrough ownSettings [.text "site", .text "plugins"] :=
    ⟨(leadsThrough_concat _ [.text "site"] (.text "plugins")).2 rfl,
      (leadsThrough_concat _ [.text "site"] (.text "plugins")).2 rfl⟩
  have hlists := (overlay_is_lossless isWellKeyed_sharedSettings isWellKeyed_ownSettings
    hplugins.1 hplugins.2).1
  have hmappings := (overlay_is_lossless isWellKeyed_sharedSettings isWellKeyed_ownSettings
    (leadsThrough_singleton _ (.text "site")) (leadsThrough_singleton _ _)).2
  obtain ⟨r, hr, hkeys, -⟩ := hmappings sharedPart ownPart rfl rfl
  exact ⟨isWellKeyed_sharedSettings, isWellKeyed_ownSettings, hlists, r, hr, hkeys⟩

end Entries

end RefSite
