import RefSite.Proofs.Files.Filling

namespace RefSite.Disk

open Entry

variable {d d' : Disk} {aim : Aim} {place : List String} {p : Path}

/-- Where a path leads and what is there, whatever it holds. -/
def outline : Target → List String × Option Shape
  | .found place e => (place, some e.shape)
  | .vacant dir n => (dir ++ [n], none)

theorem at_of_shapes {root root' : Entry}
    (hshapes : ∀ q, (root'.at? q).map shape = (root.at? q).map shape) (place : List String) :
    (root.at? place = none ∧ root'.at? place = none) ∨
      ∃ e e', root.at? place = some e ∧ root'.at? place = some e' ∧ e'.shape = e.shape := by
  have hs := hshapes place
  cases he : root.at? place with
  | none =>
    rw [he] at hs
    exact .inl ⟨rfl, Option.map_eq_none_iff.1 hs⟩
  | some e =>
    rw [he] at hs
    obtain ⟨e', he', hshape⟩ := Option.map_eq_some_iff.1 hs
    exact .inr ⟨e, e', rfl, he', hshape⟩

/-- Ways go the same way in both trees when links are followed in the same way. -/
theorem walkParts_alike {root root' : Entry}
    (hshapes : ∀ q, (root'.at? q).map shape = (root.at? q).map shape)
    {follow follow' : List String → List String → Except FileFault Target}
    (hfollow : ∀ place parts,
      (follow' place parts).map outline = (follow place parts).map outline)
    (parts place : List String) : (walkParts root' aim follow' place parts).map outline =
      (walkParts root aim follow place parts).map outline := by
  induction parts generalizing place with
  | nil =>
    rw [walkParts, walkParts]
    obtain ⟨he, he'⟩ | ⟨e, e', he, he', hshape⟩ := at_of_shapes hshapes place
    · rw [he, he']
    · rw [he, he']
      simp only [Except.map, outline, hshape]
  | cons n rest ih =>
    rw [walkParts, walkParts]
    obtain ⟨he, he'⟩ | ⟨e, e', he, he', hshape⟩ := at_of_shapes hshapes place
    · rw [he, he']
    · cases e with
      | file content =>
        cases e' with
        | file content' => rw [he, he']
        | link _ => cases hshape
        | folder _ => cases hshape
      | link target =>
        obtain rfl := eq_link_of_shape hshape
        rw [he, he']
      | folder es =>
        obtain ⟨es', rfl⟩ := eq_folder_of_shape hshape
        have hlookup := at_of_shapes hshapes (place ++ [n])
        rw [at_child he, at_child he'] at hlookup
        rw [he, he']
        dsimp only
        by_cases hup : n = ".."
        · rw [if_pos hup, if_pos hup]
          exact ih _
        rw [if_neg hup, if_neg hup]
        by_cases hstay : n = "." ∨ n = ""
        · rw [if_pos hstay, if_pos hstay]
          exact ih _
        rw [if_neg hstay, if_neg hstay]
        by_cases hslash : aim = .file ∧ rest = [""]
        · rw [if_pos hslash, if_pos hslash]
        rw [if_neg hslash, if_neg hslash]
        by_cases hlong : nameLimit < n.utf8ByteSize
        · rw [if_pos hlong, if_pos hlong]
        rw [if_neg hlong, if_neg hlong]
        -- the same name is in both folders, with an entry of the same shape
        obtain ⟨hn, hn'⟩ | ⟨x, x', hn, hn', hx⟩ := hlookup
        · rw [hn, hn']
        · rw [hn, hn']
          cases x with
          | file _ =>
            cases x' with
            | file _ => exact ih _
            | link _ => cases hx
            | folder _ => cases hx
          | link target =>
            obtain rfl := eq_link_of_shape hx
            dsimp only
            split
            · rfl
            · exact hfollow _ _
          | folder _ =>
            obtain ⟨_, rfl⟩ := eq_folder_of_shape hx
            exact ih _

theorem walk_alike {root root' : Entry}
    (hshapes : ∀ q, (root'.at? q).map shape = (root.at? q).map shape) (links : Nat)
    (place parts : List String) : (walk root' aim links place parts).map outline =
      (walk root aim links place parts).map outline := by
  induction links generalizing place parts with
  | zero => exact walkParts_alike hshapes (fun _ _ => rfl) parts place
  | succ links ih => exact walkParts_alike hshapes ih parts place

/-- Where the path leads and what is there decides whether a file can be written. -/
theorem run_write_fst (p : Path) (content : ByteArray) (d : Disk) :
    ((write p content).run d).1 =
      match (d.locate .file p).map outline with
      | .ok (_, some .folder) => .error .isFolder
      | .ok _ => .ok ()
      | .error f => .error f := by
  rw [run_write]
  cases d.locate .file p with
  | error f => rfl
  | ok t =>
    cases t with
    | vacant dir n => rfl
    | found place e => cases e <;> rfl

theorem eq_of_write_error {content : ByteArray} {f : FileFault}
    (h : (write p content).run d = (.error f, d')) : d' = d := by
  rw [run_write] at h
  split at h
  · exact (congrArg Prod.snd h).symm
  · exact nomatch congrArg Prod.fst h
  · exact nomatch congrArg Prod.fst h
  · exact (congrArg Prod.snd h).symm

namespace Alike

variable {differs : List String → Prop}

theorem locate (h : Alike differs d d') (aim : Aim) (p : Path) :
    (d'.locate aim p).map outline = (d.locate aim p).map outline := by
  have hbase : d'.base p = d.base p := by rw [base, base, h.here]
  rw [Disk.locate, Disk.locate, hbase]
  split
  · rfl
  · split
    · rfl
    · exact walk_alike h.shapes _ _ _

/-- Writing a file to both ends in the same way. -/
theorem run_write_fst (h : Alike differs d d') (p : Path) (content content' : ByteArray) :
    ((write p content').run d').1 = ((write p content).run d).1 := by
  rw [Disk.run_write_fst, Disk.run_write_fst, h.locate]

end Alike

theorem writeText_grows (k : LineEnd) (p : Path) (s : String) :
    IsGrowth (fun _ => True) (writeText k p s) := by
  intro d
  rcases h : (writeText k p s).run d with ⟨x, d'⟩
  cases x with
  | error f => exact writeText_error h
  | ok _ =>
    obtain ⟨place, hg, -⟩ := writeText_ok h
    exact hg.mono fun _ _ => trivial

/-- The file systems are the same up to the line ends of some texts, which are written in one way in
the first one and in another way in the second. -/
structure SameButLineEnds (k k' : LineEnd) (d d' : Disk) : Prop where
  here : d'.here = d.here
  files : ∀ q, SameAt d d' q ∨ ∃ s, d.root.at? q = some (.file (k.apply s).toUTF8) ∧
    d'.root.at? q = some (.file (k'.apply s).toUTF8)

namespace SameButLineEnds

variable {k k' : LineEnd}

theorem refl (d : Disk) : SameButLineEnds k k' d d := ⟨rfl, fun q => .inl (.refl d q)⟩

theorem alike (h : SameButLineEnds k k' d d') : Alike (fun _ => True) d d' := by
  refine ⟨h.here, fun q => ?_, fun q hq => absurd trivial hq⟩
  obtain hsame | ⟨s, hs, hs'⟩ := h.files q
  · exact hsame.shape
  · rw [hs, hs']
    rfl

theorem put (h : SameButLineEnds k k' d d') (hp : TakesFile d p place) (s : String) :
    SameButLineEnds k k' (d.put place (.file (k.apply s).toUTF8))
      (d'.put place (.file (k'.apply s).toUTF8)) := by
  have hp' := hp.fills h.alike.fills
  refine ⟨h.here, fun q => ?_⟩
  by_cases hq : q = place
  · subst hq
    exact .inr ⟨s, hp.at_put _, hp'.at_put _⟩
  · have hsame := (hp.sameAt_put (k.apply s).toUTF8 hq).symm
    have hsame' := hp'.sameAt_put (k'.apply s).toUTF8 hq
    obtain hfile | ⟨t, ht, ht'⟩ := h.files q
    · exact .inl ((hsame.trans hfile).trans hsame')
    · exact .inr ⟨t, hsame.symm.file ht, hsame'.file ht'⟩

/-- A text that is written to both, with line ends of its own in each, keeps them the same up to line
ends. -/
theorem writeText (h : SameButLineEnds k k' d d') (hout : d.LeadsToFolder p.parent) (s : String) :
    ((writeText k' p s).run d').1 = ((writeText k p s).run d).1 ∧
      SameButLineEnds k k' ((Disk.writeText k p s).run d).2 ((Disk.writeText k' p s).run d').2 := by
  have hout' := hout.grows h.alike.grows
  rw [run_writeText_of_leads k s hout, run_writeText_of_leads k' s hout']
  have hends := h.alike.run_write_fst p (k.apply s).toUTF8 (k'.apply s).toUTF8
  refine ⟨hends, ?_⟩
  rcases hw : (write p (k.apply s).toUTF8).run d with ⟨x, d₁⟩
  rcases hw' : (write p (k'.apply s).toUTF8).run d' with ⟨x', d₁'⟩
  rw [hw, hw'] at hends
  obtain rfl : x' = x := hends
  cases x' with
  | error f =>
    obtain rfl := eq_of_write_error hw
    obtain rfl := eq_of_write_error hw'
    exact h
  | ok _ =>
    obtain ⟨place, hplace, rfl⟩ := write_ok (isSolid_of_parent hout) hw
    obtain ⟨place', hplace', rfl⟩ := write_ok (isSolid_of_parent hout') hw'
    obtain rfl := (hplace.fills h.alike.fills).place_unique hplace'
    exact h.put hplace s

end SameButLineEnds

end RefSite.Disk
