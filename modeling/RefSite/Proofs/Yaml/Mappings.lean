import RefSite.Proofs.Value.Mappings
import RefSite.Proofs.Yaml.Parts
import RefSite.Yaml.Load

/-! Mappings that are read from texts. No key comes twice in one, and what is under a key is laid
out, also where mappings and lists hold themselves. -/
namespace RefSite.Yaml

variable {ps : Array (Option Part)} {vs : Values} {n m fuel : Nat} {p : Part} {v : Value}

/-- The value is no knot, and if it is a mapping, it is one without faults. -/
structure IsPlain (v : Value) : Prop where
  not_knot : ∀ n w, v ≠ .knot n w
  mapping : ∀ es, v = .map es → Entries.IsMapping es

theorem IsPlain.not_spent (h : IsPlain v) : v.isSpent = false := by
  cases v with
  | knot n w => exact absurd rfl (h.not_knot n w)
  | _ => rfl

theorem IsPlain.isMapping_of_body (h : IsPlain v) {es : Entries} (hes : v.body = .map es) :
    es.IsMapping := by
  cases v with
  | knot n w => exact absurd rfl (h.not_knot n w)
  | map es' =>
    cases hes
    exact h.mapping es rfl
  | _ => exact nomatch hes

/-- The entries of a mapping have its keys, and their values are known ones. -/
theorem entries_of_mapM {es : List (Value × Nat)} {es' : Entries}
    (h : (es.mapM fun e => (vs.get? e.2).map fun v => (e.1, v)) = some es') :
    es'.map Prod.fst = es.map Prod.fst ∧ ∀ e ∈ es', ∃ n, vs.get? n = some e.2 := by
  induction es generalizing es' with
  | nil =>
    cases h
    exact ⟨rfl, fun e he => nomatch he⟩
  | cons e es ih =>
    rw [List.mapM_cons] at h
    obtain ⟨e', he', h⟩ := Option.bind_eq_some_iff.1 h
    obtain ⟨rest, hrest, h⟩ := Option.bind_eq_some_iff.1 h
    cases h
    obtain ⟨v, hv, rfl⟩ := Option.map_eq_some_iff.1 he'
    obtain ⟨hkeys, hvalues⟩ := ih hrest
    refine ⟨by rw [List.map_cons, List.map_cons, hkeys], ?_⟩
    exact List.forall_mem_cons.2 ⟨⟨e.2, hv⟩, hvalues⟩

/-- What is put together of values that are laid out has no fault. -/
theorem isPlain_of_valueOf (hp : p.IsSound)
    (hvs : ∀ n v, vs.get? n = some v → v.isSpent = false) (h : valueOf vs p = some v) :
    IsPlain v := by
  cases p with
  | scalar w object =>
    obtain rfl := Option.some.inj h
    constructor
    · rintro n w rfl
      exact nomatch hp
    · rintro es rfl
      exact nomatch hp
  | pending => exact nomatch h
  | list ns =>
    obtain ⟨items, -, rfl⟩ := Option.map_eq_some_iff.1 h
    constructor
    · exact fun n w he => nomatch he
    · exact fun es he => nomatch he
  | map es =>
    obtain ⟨entries, hentries, rfl⟩ := Option.map_eq_some_iff.1 h
    obtain ⟨hkeys, hvalues⟩ := entries_of_mapM hentries
    constructor
    · exact fun n w he => nomatch he
    · intro es' he
      obtain rfl := Value.map.inj he
      constructor
      · -- the keys are those of the part, which are distinct
        have hdistinct : (entries.map Prod.fst).Pairwise fun k l => k.sameKey l = false := by
          rw [hkeys]
          exact List.pairwise_map.2 hp
        exact List.pairwise_map.1 hdistinct
      · intro e he
        obtain ⟨n, hn⟩ := hvalues e he
        exact hvs n e.2 hn

theorem get_setIfInBounds (vs : Values) (n m : Nat) (x : Option Value) :
    Values.get? (vs.setIfInBounds n x) m =
      if n = m ∧ m < vs.size then x else vs.get? m := by
  unfold Values.get?
  rw [Array.getElem?_setIfInBounds]
  by_cases hn : n = m
  · subst hn
    by_cases hsize : n < vs.size <;> simp [hsize]
  · simp [hn]

theorem size_settle (ps : Array (Option Part)) (vs : Values) (n : Nat) :
    (settle ps vs n).size = vs.size := by
  unfold settle
  split
  · rfl
  · exact Array.size_setIfInBounds

/-- What is known stays as it is. -/
theorem get_settle_of_some (h : vs.get? m = some v) (n : Nat) :
    (settle ps vs n).get? m = some v := by
  unfold settle
  split
  · exact h
  · next hunknown =>
    rw [get_setIfInBounds, if_neg]
    · exact h
    · rintro ⟨rfl, -⟩
      exact hunknown (by rw [h]; rfl)

/-- What was not known before is put together of what was. -/
theorem get_settle_cases (h : (settle ps vs n).get? m = some v) :
    vs.get? m = some v ∨ ∃ p, (ps[m]?).join = some p ∧ valueOf vs p = some v := by
  unfold settle at h
  split at h
  · exact .inl h
  · rw [get_setIfInBounds] at h
    split at h
    · next hm =>
      obtain ⟨rfl, -⟩ := hm
      exact .inr (Option.bind_eq_some_iff.1 h)
    · exact .inl h

/-- A scalar or an empty collection. -/
def Part.isClosed : Part → Bool
  | .scalar _ _ | .list [] | .map [] => true
  | _ => false

theorem valueOf_of_isClosed (h : p.isClosed = true) (vs : Values) : (valueOf vs p).isSome = true := by
  unfold Part.isClosed at h
  split at h <;> first | rfl | exact nomatch h

theorem isSome_settle (hp : (ps[n]?).join = some p) (hclosed : p.isClosed = true)
    (hsize : n < vs.size) : ((settle ps vs n).get? n).isSome = true := by
  cases hv : vs.get? n with
  | some v => rw [get_settle_of_some hv]; rfl
  | none =>
    have hvalue := valueOf_of_isClosed hclosed vs
    rw [settle, hv, if_neg (by decide), get_setIfInBounds, if_pos ⟨rfl, hsize⟩, hp, Option.bind_some]
    exact hvalue

theorem isSome_foldl_settle (h : (vs.get? m).isSome = true) (ns : List Nat) :
    ((ns.foldl (settle ps) vs).get? m).isSome = true := by
  induction ns generalizing vs with
  | nil => exact h
  | cons n ns ih =>
    obtain ⟨v, hv⟩ := Option.isSome_iff_exists.1 h
    exact ih (by rw [get_settle_of_some hv]; rfl)

/-- Scalars and empty collections are settled when it is their turn. -/
theorem isSome_foldl_settle_of_mem (hp : (ps[n]?).join = some p) (hclosed : p.isClosed = true)
    {ns : List Nat} (hn : n ∈ ns) (hsize : n < vs.size) :
    ((ns.foldl (settle ps) vs).get? n).isSome = true := by
  induction ns generalizing vs with
  | nil => exact nomatch hn
  | cons k ns ih =>
    obtain rfl | hn := List.mem_cons.1 hn
    · exact isSome_foldl_settle (isSome_settle hp hclosed hsize) ns
    · exact ih hn (by rwa [size_settle])

theorem isSome_settleAll (h : (vs.get? m).isSome = true) (fuel : Nat) :
    ((settleAll ps fuel vs).get? m).isSome = true := by
  induction fuel generalizing vs with
  | zero => exact h
  | succ fuel ih =>
    have hafter : (((unsettled ps vs).reverse.foldl (settle ps) vs).get? m).isSome = true :=
      isSome_foldl_settle h _
    unfold settleAll
    dsimp only
    split
    · exact ih hafter
    · exact hafter

theorem mem_unsettled : n ∈ unsettled ps vs ↔
    n < ps.size ∧ ((ps[n]?).join).isSome = true ∧ (vs.get? n).isNone = true := by
  rw [unsettled, List.mem_filter, List.mem_range, Bool.and_eq_true]

/-- Only collections that hold something are left to be tied. -/
theorem not_closed_of_unsettled (hsize : vs.size = ps.size)
    (hn : n ∈ unsettled ps (settleAll ps (fuel + 1) vs)) (hp : (ps[n]?).join = some p) :
    p.isClosed = false := by
  obtain ⟨hlt, hpart, hunknown⟩ := mem_unsettled.1 hn
  rw [Option.isNone_iff_eq_none] at hunknown
  cases hclosed : p.isClosed with
  | false => rfl
  | true =>
    -- the first round settles it, unless it was settled before
    have hround : (((unsettled ps vs).reverse.foldl (settle ps) vs).get? n).isSome = true := by
      cases hv : vs.get? n with
      | some v => exact isSome_foldl_settle (by rw [hv]; rfl) _
      | none =>
        refine isSome_foldl_settle_of_mem hp hclosed ?_ (by rwa [hsize])
        rw [List.mem_reverse, mem_unsettled, hv]
        exact ⟨hlt, hpart, rfl⟩
    have hsettled : ((settleAll ps (fuel + 1) vs).get? n).isSome = true := by
      rw [settleAll]
      split
      · exact isSome_settleAll hround fuel
      · exact hround
    rw [hunknown] at hsettled
    exact absurd hsettled (by decide)

/-- No value that is known has a fault or is a knot. -/
def ArePlain (vs : Values) : Prop := ∀ n v, vs.get? n = some v → IsPlain v

theorem ArePlain.foldl_settle (hps : AreSound ps) (h : ArePlain vs) (ns : List Nat) :
    ArePlain (ns.foldl (settle ps) vs) := by
  induction ns generalizing vs with
  | nil => exact h
  | cons n ns ih =>
    refine ih fun m v hv => ?_
    obtain hv | ⟨p, hp, hv⟩ := get_settle_cases hv
    · exact h m v hv
    · exact isPlain_of_valueOf (hps m p hp) (fun k w hw => (h k w hw).not_spent) hv

theorem ArePlain.settleAll (hps : AreSound ps) (h : ArePlain vs) (fuel : Nat) :
    ArePlain (settleAll ps fuel vs) := by
  induction fuel generalizing vs with
  | zero => exact h
  | succ fuel ih =>
    have hafter := h.foldl_settle hps (unsettled ps vs).reverse
    rw [Yaml.settleAll]
    split
    · exact ih hafter
    · exact hafter

theorem lt_size_of_get (h : vs.get? n = some v) : n < vs.size := by
  by_contra hle
  rw [Values.get?, Array.getElem?_eq_none (Nat.le_of_not_lt hle)] at h
  exact nomatch h

/-- Where several values are set, each is one of these or stays as it was. -/
theorem get_foldl_set {f : Nat → Option Value} {ns : List Nat}
    (h : Values.get? (ns.foldl (fun ws n => ws.setIfInBounds n (f n)) vs) m = some v) :
    m ∈ ns ∧ f m = some v ∨ m ∉ ns ∧ vs.get? m = some v := by
  induction ns generalizing vs with
  | nil => exact .inr ⟨List.not_mem_nil, h⟩
  | cons n ns ih =>
    obtain ⟨hm, hv⟩ | ⟨hm, hv⟩ := ih h
    · exact .inl ⟨List.mem_cons_of_mem _ hm, hv⟩
    · rw [get_setIfInBounds] at hv
      split at hv
      · next hset =>
        obtain ⟨rfl, -⟩ := hset
        exact .inl ⟨List.mem_cons_self, hv⟩
      · next hset =>
        have hne : m ≠ n := by
          rintro rfl
          exact hset ⟨rfl, lt_size_of_get hv⟩
        exact .inr ⟨List.not_mem_cons_of_ne_of_not_mem hne hm, hv⟩

/-- A knot that is laid out shows what it holds. -/
theorem knot_not_spent (hclosed : p.isClosed = false) (h : valueOf vs p = some v) (n : Nat) :
    (Value.knot n v).isSpent = false := by
  -- only scalars and empty collections are closed, and what holds something is not spent
  cases p with
  | scalar w object => exact nomatch hclosed
  | pending => exact nomatch h
  | list ns =>
    obtain ⟨items, hitems, rfl⟩ := Option.map_eq_some_iff.1 h
    cases ns with
    | nil => exact nomatch hclosed
    | cons k ns =>
      rw [List.mapM_cons] at hitems
      obtain ⟨a, -, hitems⟩ := Option.bind_eq_some_iff.1 hitems
      obtain ⟨rest, -, hitems⟩ := Option.bind_eq_some_iff.1 hitems
      cases hitems
      rfl
  | map es =>
    obtain ⟨entries, hentries, rfl⟩ := Option.map_eq_some_iff.1 h
    cases es with
    | nil => exact nomatch hclosed
    | cons e es =>
      obtain ⟨hkeys, -⟩ := entries_of_mapM hentries
      cases entries with
      | nil => exact nomatch hkeys
      | cons e' entries => rfl

/-- Values of which all have no fault but those with the given numbers. -/
def ArePlainExcept (ks : List Nat) (vs : Values) : Prop :=
  ∀ n v, n ∉ ks → vs.get? n = some v → IsPlain v

section

variable {ks : List Nat}

theorem ArePlainExcept.unfoldOnce (h : ArePlainExcept ks vs) :
    ArePlainExcept ks (unfoldOnce ps ks vs) := by
  intro n v hn hv
  obtain ⟨hmem, -⟩ | ⟨-, hv⟩ := get_foldl_set hv
  · exact absurd hmem hn
  · exact h n v hn hv

/-- Once they are laid out, all knots show what they hold. -/
theorem ArePlainExcept.laidOut (h : ArePlainExcept ks vs)
    (hks : ∀ n ∈ ks, ∀ p, (ps[n]?).join = some p → p.isClosed = false)
    (hv : (Yaml.unfoldOnce ps ks vs).get? n = some v) : v.isSpent = false := by
  obtain ⟨hn, hv⟩ | ⟨hn, hv⟩ := get_foldl_set hv
  · obtain ⟨w, hw, rfl⟩ := Option.map_eq_some_iff.1 hv
    obtain ⟨p, hp, hw⟩ := Option.bind_eq_some_iff.1 hw
    exact knot_not_spent (hks n hn p hp) hw n
  · exact (h n v hn hv).not_spent

/-- Once they are laid out again, all mappings among them are without faults. -/
theorem ArePlainExcept.isMapping (h : ArePlainExcept ks vs) (hps : AreSound ps)
    (hlaid : ∀ n v, vs.get? n = some v → v.isSpent = false)
    (hv : (Yaml.unfoldOnce ps ks vs).get? n = some v) {es : Entries} (hes : v.body = .map es) :
    es.IsMapping := by
  obtain ⟨-, hv⟩ | ⟨hn, hv⟩ := get_foldl_set hv
  · obtain ⟨w, hw, rfl⟩ := Option.map_eq_some_iff.1 hv
    obtain ⟨p, hp, hw⟩ := Option.bind_eq_some_iff.1 hw
    exact (isPlain_of_valueOf (hps n p hp) hlaid hw).mapping es hes
  · exact (h n v hn hv).isMapping_of_body hes

theorem repeated_succ {α : Type} (f : α → α) (k : Nat) (a : α) :
    repeated f (k + 1) a = f (repeated f k a) := by
  induction k generalizing a with
  | zero => rfl
  | succ k ih => exact ih (f a)

theorem ArePlainExcept.repeated (h : ArePlainExcept ks vs) (k : Nat) :
    ArePlainExcept ks (repeated (Yaml.unfoldOnce ps ks) k vs) := by
  induction k with
  | zero => exact h
  | succ k ih =>
    rw [repeated_succ]
    exact ih.unfoldOnce

end

/-- Every mapping that is put together from sound parts is one without faults. -/
theorem isMapping_of_tie (hps : AreSound ps) (hv : (tie ps).get? n = some v) {es : Entries}
    (hes : v.body = .map es) : es.IsMapping := by
  let settled := settleAll ps (ps.size + 1) (Array.replicate ps.size none)
  let knots := unsettled ps settled
  let start := knots.foldl
    (fun ws n => ws.setIfInBounds n (((ps[n]?).join).map (spent n))) settled
  have hempty : ArePlain (Array.replicate ps.size none) := by
    intro n v hv
    rw [Values.get?, Array.getElem?_replicate] at hv
    split at hv <;> exact nomatch hv
  have hsettled : ArePlain settled := hempty.settleAll hps (ps.size + 1)
  -- knots start spent, which no other value is
  have hstart : ArePlainExcept knots start := by
    intro n v hn hv
    obtain ⟨hmem, -⟩ | ⟨-, hv⟩ := get_foldl_set hv
    · exact absurd hmem hn
    · exact hsettled n v hv
  have hopen : ∀ n ∈ knots, ∀ p, (ps[n]?).join = some p → p.isClosed = false :=
    fun n hn p hp => not_closed_of_unsettled Array.size_replicate hn hp
  have hrounds (k : Nat) : ArePlainExcept knots (repeated (unfoldOnce ps knots) k start) :=
    hstart.repeated k
  have htie : tie ps = repeated (unfoldOnce ps knots)
    (if knots.isEmpty then 0 else layoutDepth knots.length) start := rfl
  rw [htie] at hv
  split at hv
  · next hnone =>
    rw [List.isEmpty_iff] at hnone
    have hout : n ∉ knots := by
      rw [hnone]
      exact List.not_mem_nil
    exact (hstart n v hout hv).isMapping_of_body hes
  · -- the last two rounds: one lays out what the knots hold, the other the knots themselves
    rw [layoutDepth, repeated_succ, repeated_succ] at hv
    refine ((hrounds _).unfoldOnce).isMapping hps (fun m w hw => ?_) hv hes
    exact (hrounds _).laidOut hopen hw

/-- A mapping that is read from a text has no key twice, and what is under its keys is laid out. -/
theorem isMapping_of_load {s : String} (h : load s = .ok v) {es : Entries}
    (hes : v.body = .map es) : es.IsMapping := by
  unfold load at h
  split at h
  · exact nomatch h
  · cases h
    exact nomatch hes
  · next g root _ =>
    obtain ⟨ps, hps, h⟩ := exists_of_bind_ok h
    split at h
    · next w hw =>
      cases h
      exact isMapping_of_tie (areSound_of_parts hps) hw hes
    · exact nomatch h

end RefSite.Yaml
