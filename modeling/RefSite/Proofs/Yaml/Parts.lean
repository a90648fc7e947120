import RefSite.Proofs.Computations
import RefSite.Yaml.Build

namespace RefSite

/-- The value is no collection. -/
def Value.isAtom : Value → Bool
  | .list _ | .map _ | .knot _ _ => false
  | _ => true

namespace Yaml

theorem isAtom_of_timestampScalar {s : String} {v : Value} (h : timestampScalar s = .ok v) :
    v.isAtom = true := by
  unfold timestampScalar at h
  split at h
  · split at h
    · cases h
      rfl
    · exact nomatch h
  · split at h
    · cases h
      rfl
    · exact nomatch h
  · exact nomatch h

theorem isAtom_of_scalarValue {tag : Tag} {s : String} {v : Value}
    (h : scalarValue tag s = .ok v) : v.isAtom = true := by
  unfold scalarValue at h
  split at h
  · cases h
    rfl
  · split at h
    · cases h
      rfl
    · exact nomatch h
  · obtain ⟨n, -, rfl⟩ := exists_of_map_ok h
    rfl
  · obtain ⟨x, -, rfl⟩ := exists_of_map_ok h
    rfl
  · exact isAtom_of_timestampScalar h
  · cases h
    rfl
  · exact nomatch h

/-- Scalars are atoms, and the keys of a mapping are distinct. -/
def Part.IsSound : Part → Prop
  | .scalar v _ => v.isAtom = true
  | .map es => es.Pairwise fun a b => a.1.sameKey b.1 = false
  | _ => True

/-- All parts that there are are sound. -/
def AreSound (ps : Array (Option Part)) : Prop :=
  ∀ (n : Nat) (p : Part), (ps[n]?).join = some p → p.IsSound

namespace Building

theorem mem_setKey {k : Key} {n : Nat} {es : List (Key × Nat)} {e : Key × Nat}
    (h : e ∈ setKey k n es) : e.1 = k ∨ ∃ e' ∈ es, e'.1 = e.1 := by
  induction es with
  | nil =>
    obtain rfl := List.mem_singleton.1 h
    exact .inl rfl
  | cons e' es ih =>
    obtain ⟨l, m⟩ := e'
    rw [setKey] at h
    split at h
    · obtain rfl | h := List.mem_cons.1 h
      · exact .inr ⟨_, List.mem_cons_self, rfl⟩
      · exact .inr ⟨e, List.mem_cons_of_mem _ h, rfl⟩
    · obtain rfl | h := List.mem_cons.1 h
      · exact .inr ⟨_, List.mem_cons_self, rfl⟩
      · exact (ih h).imp_right fun ⟨e', he', heq⟩ => ⟨e', List.mem_cons_of_mem _ he', heq⟩

/-- No key comes twice. -/
def HasDistinctKeys (es : List (Key × Nat)) : Prop :=
  es.Pairwise fun a b => a.1.value.sameKey b.1.value = false

theorem HasDistinctKeys.setKey {es : List (Key × Nat)} (h : HasDistinctKeys es) (k : Key)
    (n : Nat) : HasDistinctKeys (setKey k n es) := by
  induction es with
  | nil => exact List.pairwise_singleton _ _
  | cons e es ih =>
    obtain ⟨l, m⟩ := e
    obtain ⟨hl, hes⟩ := List.pairwise_cons.1 h
    rw [Building.setKey]
    split
    · exact List.pairwise_cons.2 ⟨hl, hes⟩
    · next hother =>
      refine List.pairwise_cons.2 ⟨fun e he => ?_, ih hes⟩
      obtain hk | ⟨e', he', heq⟩ := mem_setKey he
      · rw [Key.same, Bool.or_eq_true, not_or] at hother
        rw [hk]
        exact Bool.eq_false_iff.2 hother.1
      · rw [← heq]
        exact hl e' he'

/-- The step leaves sound parts and gives what is wanted. -/
def Keeps {α : Type} (wanted : α → Prop) (x : Building α) : Prop :=
  ∀ b a b', AreSound b.parts → x.run b = .ok (a, b') → AreSound b'.parts ∧ wanted a

section

variable {α β : Type} {wanted : α → Prop} {wanted' : β → Prop}

theorem Keeps.pure {a : α} (h : wanted a) : Keeps wanted (pure a : Building α) := by
  intro b a' b' hb hx
  cases hx
  exact ⟨hb, h⟩

theorem Keeps.bind {x : Building α} {k : α → Building β} (hx : Keeps wanted x)
    (hk : ∀ a, wanted a → Keeps wanted' (k a)) : Keeps wanted' (x >>= k) := by
  intro b c b' hb h
  rw [StateT.run_bind] at h
  obtain ⟨⟨a, b₁⟩, hx', hk'⟩ := exists_of_bind_ok h
  obtain ⟨hb₁, ha⟩ := hx b a b₁ hb hx'
  exact hk a ha b₁ c b' hb₁ hk'

theorem Keeps.lift {x : Except Failure α} (h : ∀ a, x = .ok a → wanted a) :
    Keeps wanted (liftM x : Building α) := by
  intro b a b' hb hx
  obtain ⟨a', ha', hpure⟩ := exists_of_bind_ok hx
  cases hpure
  exact ⟨hb, h a ha'⟩

theorem Keeps.throw (f : Failure) : Keeps wanted (throw f : Building α) :=
  fun _ _ _ _ hx => nomatch hx

theorem Keeps.get : Keeps (fun b => AreSound b.parts) (get : Building Builder) := by
  intro b a b' hb hx
  cases hx
  exact ⟨hb, hb⟩

theorem Keeps.modify {f : Builder → Builder} (h : ∀ b, AreSound b.parts → AreSound (f b).parts) :
    Keeps (fun _ => True) (modify f : Building Unit) := by
  intro b a b' hb hx
  cases hx
  exact ⟨h b hb, trivial⟩

theorem Keeps.set (b : Builder) (h : AreSound b.parts) :
    Keeps (fun _ => True) (set b : Building Unit) := by
  intro _ a b' _ hx
  cases hx
  exact ⟨h, trivial⟩

theorem Keeps.forM {f : α → Building Unit} (h : ∀ a, Keeps (fun _ => True) (f a))
    (as : List α) : Keeps (fun _ => True) (as.forM f) := by
  induction as with
  | nil => exact .pure trivial
  | cons a as ih => exact (h a).bind fun _ _ => ih

end

theorem keeps_setPart {n : Nat} {p : Part} (hp : p.IsSound) :
    Keeps (fun _ => True) (setPart n p) := by
  refine Keeps.modify fun b hb => ?_
  intro m q hq
  rw [Array.getElem?_setIfInBounds] at hq
  split at hq
  · split at hq
    · cases hq
      exact hp
    · exact nomatch hq
  · exact hb m q hq

theorem isSound_of_scalarPart {g : Graph} {n : Nat} {x : Node} {p : Part}
    (h : scalarPart g n x = .ok p) : p.IsSound := by
  obtain ⟨s, -, h⟩ := exists_of_bind_ok h
  split at h
  · exact nomatch h
  · obtain ⟨x, -, h⟩ := exists_of_bind_ok h
    cases h
    rfl
  · obtain ⟨v, hv, h⟩ := exists_of_bind_ok h
    cases h
    exact isAtom_of_scalarValue hv

theorem keeps_part (n : Nat) : Keeps (fun _ => True) (part? n) :=
  Keeps.get.bind fun _ _ => .pure trivial

theorem keeps_start (n : Nat) : Keeps (fun _ => True) (start n) := by
  have hcollection : Keeps (fun _ => True) (do
      setPart n .pending
      modify fun b => { b with next := n :: b.next }) :=
    (keeps_setPart (p := .pending) trivial).bind fun _ _ => .modify fun _ hb => hb
  have hscalar (g : Graph) (x : Node) : Keeps (fun _ => True) (do
      setPart n (← scalarPart g n x)) :=
    (Keeps.lift fun _ hp => isSound_of_scalarPart hp).bind fun _ hp => keeps_setPart hp
  refine (keeps_part n).bind fun known _ => ?_
  split
  · exact .pure trivial
  · refine Keeps.get.bind fun b _ => ?_
    dsimp only
    split
    · next x _ =>
      split
      all_goals first | exact hcollection | exact hscalar _ _ | exact .throw _
    · exact .throw _

theorem keeps_key (n : Nat) : Keeps (fun _ => True) (key n) := by
  refine (keeps_part n).bind fun known _ => ?_
  split
  · exact .pure trivial
  · exact .throw _

theorem keeps_fillEntries {done : List (Key × Nat)} (h : HasDistinctKeys done)
    (es : List (Nat × Nat)) : Keeps HasDistinctKeys (fillEntries done es) := by
  induction es generalizing done with
  | nil => exact .pure h
  | cons e es ih =>
    obtain ⟨k, v⟩ := e
    refine (keeps_start k).bind fun _ _ => (keeps_key k).bind fun key _ => ?_
    exact (keeps_start v).bind fun _ _ => ih (h.setKey key v)

theorem keeps_fill (fuel n : Nat) : Keeps (fun _ => True) (fill fuel n) := by
  refine Keeps.get.bind fun b _ => ?_
  split
  · next x _ =>
    split
    · next ns _ _ =>
      exact (Keeps.forM keeps_start ns).bind fun _ _ => keeps_setPart (p := .list ns) trivial
    · refine Keeps.get.bind fun b hb => ?_
      split
      · exact .throw _
      · next es g _ =>
        refine (Keeps.set { b with graph := g } hb).bind fun _ _ => ?_
        refine (keeps_fillEntries .nil _).bind fun done hdone => keeps_setPart ?_
        exact List.pairwise_map.2 hdone
    · exact .throw _
  · exact .throw _

theorem keeps_fillRounds (fuel rounds : Nat) :
    Keeps (fun _ => True) (fillRounds fuel rounds) := by
  induction rounds with
  | zero => exact .pure trivial
  | succ rounds ih =>
    refine Keeps.get.bind fun b _ => ?_
    dsimp only
    split
    · exact .pure trivial
    · have hround : Keeps (fun _ => True) (modify fun b => { b with next := [] }) :=
        .modify fun _ hb => hb
      exact hround.bind fun _ _ => (Keeps.forM (keeps_fill fuel) _).bind fun _ _ => ih

theorem keeps_document (root : Nat) : Keeps (fun _ => True) (document root) :=
  (keeps_start root).bind fun _ _ => Keeps.get.bind fun _ _ => keeps_fillRounds _ _

end Building

/-- The parts of a document are sound. -/
theorem areSound_of_parts {g : Graph} {root : Nat} {ps : Array (Option Part)}
    (h : parts g root = .ok ps) : AreSound ps := by
  unfold parts at h
  split at h
  · next b hb =>
    cases h
    have hempty : AreSound (Array.replicate g.size none) := by
      intro n p hp
      rw [Array.getElem?_replicate] at hp
      split at hp <;> exact nomatch hp
    exact (Building.keeps_document root _ _ _ hempty hb).1
  · exact nomatch h

end Yaml

end RefSite
