import RefSite.Proofs.Files.Frame
import RefSite.Proofs.Files.Walk
import RefSite.Proofs.Computations

namespace RefSite.Disk

open Entry

variable {changed changed' : List String → Prop} {d d' d'' : Disk} {aim : Aim} {links : Nat}
  {place parts q : List String} {e : Entry} {t : Target}

/-- The second file system has all that the first one has, and no further links. Only the files at
places that may be changed have another content. -/
structure Grows (changed : List String → Prop) (d d' : Disk) : Prop where
  here : d'.here = d.here
  keeps : ∀ {place e}, d.root.at? place = some e → (d'.root.at? place).map shape = some e.shape
  files : ∀ {place content}, d.root.at? place = some (.file content) → ¬ changed place →
    d'.root.at? place = some (.file content)
  noLinks : ∀ {place t}, d'.root.at? place = some (.link t) → d.root.at? place = some (.link t)

/-- What a target can turn into: the same place with something of the same shape, or a place where
something is that was missing. -/
inductive Becomes (d : Disk) : Target → Target → Prop where
  | found {q : List String} {e e' : Entry} (h : e'.shape = e.shape) :
      Becomes d (.found q e) (.found q e')
  | vacant {q : List String} {n : String} (h : d.root.at? (q ++ [n]) = none) :
      Becomes d (.vacant q n) (.vacant q n)
  | filled {q : List String} {n : String} {e : Entry} (h : d.root.at? (q ++ [n]) = some e) :
      Becomes d (.vacant q n) (.found (q ++ [n]) e)

namespace Grows

theorem refl (d : Disk) : Grows changed d d := by
  refine ⟨rfl, ?_, fun h _ => h, fun h => h⟩
  intro place e h
  rw [h]
  rfl

theorem mono (h : Grows changed d d') (hc : ∀ place, changed place → changed' place) :
    Grows changed' d d' :=
  ⟨h.here, h.keeps, fun he hn => h.files he fun hp => hn (hc _ hp), h.noLinks⟩

theorem keepsShapes (h : Grows changed d d') : KeepsShapes d.root d'.root := fun _ _ => h.keeps

theorem entry (h : Grows changed d d') (he : d.root.at? place = some e) :
    ∃ e', d'.root.at? place = some e' ∧ e'.shape = e.shape :=
  h.keepsShapes.entry he

theorem folder (h : Grows changed d d') {es : List (String × Entry)}
    (he : d.root.at? place = some (.folder es)) : ∃ es', d'.root.at? place = some (.folder es') :=
  h.keepsShapes.folder he

theorem trans (h : Grows changed d d') (h' : Grows changed d' d'') : Grows changed d d'' := by
  refine ⟨h'.here.trans h.here, ?_, ?_, fun hl => h.noLinks (h'.noLinks hl)⟩
  · intro place e he
    obtain ⟨e', he', hs⟩ := h.entry he
    rw [h'.keeps he', hs]
  · intro place content he hn
    exact h'.files (h.files he hn) hn

/-- A new entry that is no link and holds nothing can be put where nothing is, and a file where a
file is that may be changed. -/
theorem put {dir : List String} {n : String} {es : List (String × Entry)} {new : Entry}
    (hdir : d.root.at? dir = some (.folder es)) (hnew : ∀ x xs, new.at? (x :: xs) = none)
    (hlink : ∀ t, new ≠ .link t) (hold : ∀ e, es.lookup n = some e →
      e.shape = .file ∧ new.shape = .file ∧ changed (dir ++ [n])) :
    Grows changed d (d.put (dir ++ [n]) new) := by
  have old : d.root.at? (dir ++ [n]) = es.lookup n := at_child hdir n
  -- where something was, it was a file that may be changed, and nothing was below it
  have below {rest : List String} {e : Entry} (he : d.root.at? (dir ++ [n] ++ rest) = some e) :
      rest = [] ∧ e.shape = .file ∧ new.shape = .file ∧ changed (dir ++ [n]) := by
    rw [at_append, old] at he
    obtain ⟨f, hf, hrest⟩ := Option.bind_eq_some_iff.1 he
    obtain ⟨hfile, hnewfile, hchanged⟩ := hold f hf
    cases rest with
    | nil =>
      rw [at_nil] at hrest
      cases hrest
      exact ⟨rfl, hfile, hnewfile, hchanged⟩
    | cons x xs =>
      rw [at_cons_of_shape_ne (by rw [hfile]; decide)] at hrest
      cases hrest
  refine ⟨rfl, ?_, ?_, ?_⟩
  · intro place e he
    by_cases hbelow : dir ++ [n] <+: place
    · obtain ⟨rest, rfl⟩ := hbelow
      obtain ⟨rfl, hfile, hnewfile, -⟩ := below he
      rw [Disk.put, at_put_self hdir, at_nil, Option.map_some, hnewfile, hfile]
    · rw [(sameAt_put_child hdir new hbelow).shape, he]
      rfl
  · intro place content he hn
    by_cases hbelow : dir ++ [n] <+: place
    · obtain ⟨rest, rfl⟩ := hbelow
      obtain ⟨rfl, -, -, hchanged⟩ := below he
      rw [List.append_nil] at hn
      exact absurd hchanged hn
    · rw [Disk.put, at_put_elsewhere hdir new hbelow]
      · exact he
      · rintro ⟨rest, rfl⟩
        obtain ⟨fs, hfs⟩ := folder_above hdir
        rw [he] at hfs
        cases hfs
  · intro place t ht
    by_cases hbelow : dir ++ [n] <+: place
    · obtain ⟨rest, rfl⟩ := hbelow
      rw [Disk.put, at_put_self hdir] at ht
      cases rest with
      | nil =>
        rw [at_nil] at ht
        exact absurd (Option.some.inj ht) (hlink t)
      | cons x xs =>
        rw [hnew] at ht
        cases ht
    · have hs := (sameAt_put_child hdir new hbelow).shape
      rw [ht] at hs
      obtain ⟨e, he, hshape⟩ := Option.map_eq_some_iff.1 hs.symm
      rw [he, eq_link_of_shape hshape]

theorem put_file {old : ByteArray} (h : d.root.at? place = some (.file old))
    (content : ByteArray) (hc : changed place) : Grows changed d (d.put place (.file content)) := by
  by_cases hne : place = []
  · -- the file is all that there is
    subst hne
    rw [at_nil] at h
    have hroot : d.root = .file old := Option.some.inj h
    have shapes (p : List String) : ((d.put [] (.file content)).root.at? p).map shape =
        (d.root.at? p).map shape := by
      rw [hroot]
      cases p <;> rfl
    refine ⟨rfl, ?_, ?_, ?_⟩
    · intro p e he
      rw [shapes, he]
      rfl
    · intro p content he hn
      cases p with
      | nil => exact absurd hc hn
      | cons x xs =>
        rw [hroot] at he
        exact nomatch he
    · intro p t hl
      have hs := shapes p
      rw [hl] at hs
      obtain ⟨e, he, hshape⟩ := Option.map_eq_some_iff.1 hs.symm
      rw [he, eq_link_of_shape hshape]
  · rw [← List.dropLast_concat_getLast hne] at h hc ⊢
    obtain ⟨es, hes⟩ := folder_of_at_append h
    refine put hes (fun x xs => rfl) (fun t ht => nomatch ht) (fun e he => ?_)
    rw [← at_child hes, h] at he
    cases he
    exact ⟨rfl, rfl, hc⟩

/-- Every way leads to the same place as before. -/
theorem leads (h : Grows changed d d') (hl : Leads d.root aim links place parts t) :
    ∃ t', Becomes d' t t' ∧ Leads d'.root aim links place parts t' := by
  induction hl with
  | done he =>
    obtain ⟨e', he', hs⟩ := h.entry he
    exact ⟨_, .found hs, .done he'⟩
  | up hf _ ih =>
    obtain ⟨t', ht, hl⟩ := ih
    obtain ⟨es', hes'⟩ := h.folder hf
    exact ⟨t', ht, .up hes' hl⟩
  | stay hf hn _ ih =>
    obtain ⟨t', ht, hl⟩ := ih
    obtain ⟨es', hes'⟩ := h.folder hf
    exact ⟨t', ht, .stay hes' hn hl⟩
  | @vacant links place n es hx hn =>
    obtain ⟨es', hes'⟩ := h.folder hx.folder
    have hx' : LooksUp d'.root aim place n [] es' :=
      ⟨hes', hx.notUp, hx.notHere, hx.notSlash, hx.short⟩
    have hat : d'.root.at? (place ++ [n]) = es'.lookup n := at_child hes' n
    cases hn' : es'.lookup n with
    | none => exact ⟨_, .vacant (hat.trans hn'), .vacant hx' hn'⟩
    | some e =>
      -- what is new is no link, so the way ends at it
      have hne : ∀ target, e ≠ .link target := by
        rintro target rfl
        have hold := h.noLinks (hat.trans hn')
        rw [at_child hx.folder, hn] at hold
        exact nomatch hold
      exact ⟨_, .filled (hat.trans hn'), .enter hx' hn' hne (.done (hat.trans hn'))⟩
  | link hx hn haim =>
    obtain ⟨es', x', hx', hn', hs⟩ := hx.again h.keepsShapes hn
    obtain rfl := eq_link_of_shape hs
    exact ⟨_, .found rfl, .link hx' hn' haim⟩
  | follow hx hn haim _ ih =>
    obtain ⟨t', ht, hl⟩ := ih
    obtain ⟨es', x', hx', hn', hs⟩ := hx.again h.keepsShapes hn
    obtain rfl := eq_link_of_shape hs
    exact ⟨t', ht, .follow hx' hn' haim hl⟩
  | enter hx hn hne _ ih =>
    obtain ⟨t', ht, hl⟩ := ih
    obtain ⟨es', x', hx', hn', hs⟩ := hx.again h.keepsShapes hn
    have hne' : ∀ target, x' ≠ .link target := by
      rintro target rfl
      exact hne target (eq_link_of_shape hs.symm)
    exact ⟨t', ht, .enter hx' hn' hne' hl⟩

end Grows

end RefSite.Disk
