import RefSite.Proofs.Files.Growth

namespace RefSite

/-- Paths that a file system looks at: they hold no null character and are not too long. -/
def Path.IsUsable (p : Path) : Prop :=
  p.isProper = true ∧ p.text.utf8ByteSize ≤ Disk.pathLimit

namespace Disk

open Entry

variable {changed : List String → Prop} {d d' : Disk} {p q : Path} {aim : Aim} {t : Target}
  {α β : Type}

theorem locate_eq_ok_iff : d.locate aim p = .ok t ↔
    p.IsUsable ∧ Leads d.root aim linkLimit (d.base p) p.parts t := by
  unfold locate Path.IsUsable
  rw [leads_iff]
  by_cases hp : p.isProper = true
  · by_cases hl : pathLimit < p.text.utf8ByteSize
    · simp [hp, hl, Nat.not_le.2 hl]
    · simp [hp, hl, Nat.le_of_not_lt hl]
  · simp [hp]

/-- In a file system that has grown a path leads to the same place. -/
theorem Grows.locate (h : Grows changed d d') (hl : d.locate aim p = .ok t) :
    ∃ t', Becomes d' t t' ∧ d'.locate aim p = .ok t' := by
  obtain ⟨hp, hl⟩ := locate_eq_ok_iff.1 hl
  obtain ⟨t', ht, hl'⟩ := h.leads hl
  refine ⟨t', ht, locate_eq_ok_iff.2 ⟨hp, ?_⟩⟩
  rw [base, h.here]
  exact hl'

theorem Grows.locate_found (h : Grows changed d d') {place : List String} {e : Entry}
    (hl : d.locate aim p = .ok (.found place e)) :
    ∃ e', e'.shape = e.shape ∧ d'.locate aim p = .ok (.found place e') := by
  obtain ⟨t', ht, hl'⟩ := h.locate hl
  cases ht with
  | found hs => exact ⟨_, hs, hl'⟩

/-- What a path led to is found again as what another path now finds there. -/
theorem Grows.locate_same (h : Grows changed d d') {place : List String} {e e' : Entry}
    (hl : d.locate aim p = .ok (.found place e))
    (hl' : d'.locate aim q = .ok (.found place e')) : d'.locate aim p = .ok (.found place e') := by
  obtain ⟨e₁, -, hl₁⟩ := h.locate_found hl
  have hat := (locate_eq_ok_iff.1 hl₁).2.at_found
  rw [(locate_eq_ok_iff.1 hl').2.at_found] at hat
  rw [hl₁, Option.some.inj hat]

/-- A file that may not be changed is found with the content it had. -/
theorem Grows.locate_file (h : Grows changed d d') {place : List String} {content : ByteArray}
    (hl : d.locate aim p = .ok (.found place (.file content))) (hplace : ¬ changed place) :
    d'.locate aim p = .ok (.found place (.file content)) := by
  obtain ⟨e', -, hl'⟩ := h.locate_found hl
  have hat := h.files (locate_eq_ok_iff.1 hl).2.at_found hplace
  rw [(locate_eq_ok_iff.1 hl').2.at_found] at hat
  rw [hl', Option.some.inj hat]

theorem read_eq_ok {place : List String} {content : ByteArray}
    (h : d.locate .entry p = .ok (.found place (.file content))) : d.read p = .ok content := by
  rw [read, h]

/-- Two paths lead to the same entry when there is one place that both lead to. -/
theorem isSame_iff : d.isSame p q = .ok true ↔ ∃ place e,
    d.locate .entry p = .ok (.found place e) ∧ d.locate .entry q = .ok (.found place e) := by
  refine ⟨?_, ?_⟩
  · intro h
    unfold isSame at h
    split at h
    · exact nomatch h
    · exact nomatch h
    · next a e b f hp hq =>
      obtain rfl : a = b := eq_of_beq (Except.ok.inj h)
      have hat := (locate_eq_ok_iff.1 hp).2.at_found
      rw [(locate_eq_ok_iff.1 hq).2.at_found] at hat
      cases hat
      exact ⟨a, e, hp, hq⟩
    · exact nomatch h
  · rintro ⟨place, e, hp, hq⟩
    rw [isSame, hp, hq]
    exact congrArg Except.ok (beq_self_eq_true place)

/-- Two paths to the same entry have the same content. -/
theorem read_eq_of_isSame (h : d.isSame p q = .ok true) : d.read p = d.read q := by
  obtain ⟨place, e, hp, hq⟩ := isSame_iff.1 h
  rw [read, read, hp, hq]

theorem run_makeFolder (p : Path) (d : Disk) : (makeFolder p).run d =
    match d.locate .name p with
    | .ok (.found _ _) => (.error .alreadyThere, d)
    | .ok (.vacant dir n) => (.ok (), d.put (dir ++ [n]) (.folder []))
    | .error f => (.error f, d) := by
  unfold makeFolder
  rw [run_bind_ok (run_get d)]
  cases d.locate .name p with
  | error f => rfl
  | ok t => cases t <;> rfl

theorem run_write (p : Path) (content : ByteArray) (d : Disk) : (write p content).run d =
    match d.locate .file p with
    | .ok (.found _ (.folder _)) => (.error .isFolder, d)
    | .ok (.found place _) => (.ok (), d.put place (.file content))
    | .ok (.vacant dir n) => (.ok (), d.put (dir ++ [n]) (.file content))
    | .error f => (.error f, d) := by
  unfold write
  rw [run_bind_ok (run_get d)]
  cases d.locate .file p with
  | error f => rfl
  | ok t =>
    cases t with
    | vacant dir n => rfl
    | found place e => cases e <;> rfl

def LeadsToFolder (d : Disk) (p : Path) : Prop :=
  ∃ dir es, d.locate .entry p = .ok (.found dir (.folder es))

theorem run_unlessFolder (p : Path) (f : FileFault) (d : Disk) :
    ((unlessFolder p f).run d).2 = d ∧
      (((unlessFolder p f).run d).1 = .ok () → d.LeadsToFolder p) := by
  unfold unlessFolder
  split
  · exact ⟨rfl, fun h => nomatch h⟩
  · rw [run_bind_ok (run_get d)]
    split
    · next hfolder =>
      refine ⟨rfl, fun _ => ?_⟩
      unfold isFolder entry? at hfolder
      cases hl : d.locate .entry p with
      | ok t =>
        rw [hl] at hfolder
        cases t with
        | vacant _ _ => exact nomatch hfolder
        | found dir e =>
          cases e with
          | folder es => exact ⟨dir, es, hl⟩
          | file _ => exact nomatch hfolder
          | link _ => exact nomatch hfolder
      | error f =>
        rw [hl] at hfolder
        cases f <;> exact nomatch hfolder
    · exact ⟨rfl, fun h => nomatch h⟩
    · exact ⟨rfl, fun h => nomatch h⟩

/-- The change lets every file system grow, and only files that may be changed get another
content. -/
def IsGrowth (changed : List String → Prop) (m : Change α) : Prop :=
  ∀ d, Grows changed d (m.run d).2

namespace IsGrowth

theorem same {m : Change α} (h : ∀ d, (m.run d).2 = d) : IsGrowth changed m := by
  intro d
  rw [h]
  exact Grows.refl d

theorem bind {m : Change α} {f : α → Change β} (hm : IsGrowth changed m)
    (hf : ∀ a, IsGrowth changed (f a)) : IsGrowth changed (m >>= f) :=
  run_bind_rel (Grows changed) Grows.trans hm hf

theorem tryCatch {m : Change α} {f : FileFault → Change α} (hm : IsGrowth changed m)
    (hf : ∀ e, IsGrowth changed (f e)) : IsGrowth changed (tryCatch m f) :=
  run_tryCatch_rel (Grows changed) Grows.trans hm hf

theorem makeFolder (p : Path) : IsGrowth changed (makeFolder p) := by
  intro d
  rw [run_makeFolder]
  cases hl : d.locate .name p with
  | error f => exact Grows.refl d
  | ok t =>
    cases t with
    | found _ _ => exact Grows.refl d
    | vacant dir n =>
      obtain ⟨es, hx, hn⟩ := (locate_eq_ok_iff.1 hl).2.at_vacant
      refine Grows.put hx.folder (fun x xs => ?_) (fun t ht => nomatch ht) (fun e he => ?_)
      · rw [at_cons_folder]
        rfl
      · rw [hn] at he
        exact nomatch he

theorem makeLastFolder (p : Path) : IsGrowth changed (makeLastFolder p) := by
  refine .tryCatch (.makeFolder p) fun f => ?_
  split
  · exact .same fun d => rfl
  · exact .same fun d => (run_unlessFolder p f d).1

theorem makeFolders (p : Path) : IsGrowth changed (makeFolders p) := by
  rw [Disk.makeFolders]
  refine .tryCatch (.makeFolder p) fun f => ?_
  split
  · split
    · exact .same fun d => rfl
    · exact .bind (makeFolders p.parent) fun _ => .makeLastFolder p
  · exact .same fun d => (run_unlessFolder p f d).1
termination_by p.parts.length
decreasing_by
  next hne =>
    have := List.length_pos_iff.2 hne
    simp only [Path.parent, List.length_dropLast]
    omega

end IsGrowth

/-- One folder is made where nothing was, and its path leads there from then on, or nothing
happens. -/
theorem run_makeFolder_cases (p : Path) (d : Disk) :
    (∃ f, (makeFolder p).run d = (.error f, d)) ∨
    ∃ place d', (makeFolder p).run d = (.ok (), d') ∧ d.root.at? place = none ∧
      d'.locate .entry p = .ok (.found place (.folder [])) ∧ ∀ q, q ≠ place → SameAt d d' q := by
  have hg : Grows (fun _ => False) d ((makeFolder p).run d).2 := IsGrowth.makeFolder p d
  rw [run_makeFolder] at hg ⊢
  cases hl : d.locate .name p with
  | error f => exact .inl ⟨f, rfl⟩
  | ok t =>
    rw [hl] at hg
    cases t with
    | found _ _ => exact .inl ⟨_, rfl⟩
    | vacant dir n =>
      obtain ⟨es, hx, hn⟩ := (locate_eq_ok_iff.1 hl).2.at_vacant
      have hat : (d.put (dir ++ [n]) (.folder [])).root.at? (dir ++ [n]) = some (.folder []) :=
        at_put_place hx.folder _ n
      have hnew (x : String) (xs : List String) : (Entry.folder []).at? (x :: xs) = none := by
        rw [at_cons_folder]
        rfl
      refine .inr ⟨_, _, rfl, (at_child hx.folder n).trans hn, ?_,
        fun q hq => sameAt_put_new hx.folder hn hnew hq⟩
      -- the path leads to the new folder because it led to the place before
      obtain ⟨t', ht, hl'⟩ := hg.locate hl
      obtain ⟨hp, hleads⟩ := locate_eq_ok_iff.1 hl'
      cases ht with
      | vacant hnone =>
        rw [hat] at hnone
        exact nomatch hnone
      | filled he =>
        rw [hat] at he
        cases he
        exact locate_eq_ok_iff.2 ⟨hp, hleads.entry fun t ht => nomatch ht⟩

theorem makeFolder_ok (h : (makeFolder p).run d = (.ok (), d')) : d'.LeadsToFolder p := by
  obtain ⟨f, hrun⟩ | ⟨place, d₁, hrun, -, hl, -⟩ := run_makeFolder_cases p d
  · rw [h] at hrun
    exact nomatch congrArg Prod.fst hrun
  · rw [h] at hrun
    obtain rfl : d' = d₁ := congrArg Prod.snd hrun
    exact ⟨place, [], hl⟩

theorem unlessFolder_ok {f : FileFault} (h : (unlessFolder p f).run d = (.ok (), d')) :
    d'.LeadsToFolder p := by
  obtain ⟨hd, hfolder⟩ := run_unlessFolder p f d
  rw [h] at hd hfolder
  obtain rfl : d' = d := hd
  exact hfolder rfl

theorem makeLastFolder_ok (h : (makeLastFolder p).run d = (.ok (), d')) : d'.LeadsToFolder p := by
  obtain h | ⟨f, d₁, -, h⟩ := tryCatch_eq_ok h
  · exact makeFolder_ok h
  · split at h
    · exact nomatch congrArg Prod.fst h
    · exact unlessFolder_ok h

/-- Where folders have been made there is one. -/
theorem makeFolders_ok (h : (makeFolders p).run d = (.ok (), d')) : d'.LeadsToFolder p := by
  rw [makeFolders] at h
  -- however many folders had to be made above it, the last one is that of the path itself
  obtain h | ⟨f, d₁, -, h⟩ := tryCatch_eq_ok h
  · exact makeFolder_ok h
  · split at h
    · split at h
      · exact nomatch congrArg Prod.fst h
      · obtain ⟨_, d₂, -, h⟩ := bind_eq_ok h
        exact makeLastFolder_ok h
    · exact unlessFolder_ok h

/-- The way along a path does not start from a link. -/
def IsSolid (d : Disk) (p : Path) : Prop := ∀ t, d.root.at? (d.base p) ≠ some (.link t)

/-- A path that leads somewhere starts from a folder, unless it has no parts and stays where it
is. -/
theorem isSolid_of_parent (h : d.LeadsToFolder p.parent) : d.IsSolid p := by
  obtain ⟨dir, es, hl⟩ := h
  have hleads := (locate_eq_ok_iff.1 hl).2
  have hbase : d.base p = d.base p.parent := rfl
  intro t ht
  rw [hbase] at ht
  obtain ⟨-, e, he⟩ | ⟨fs, hfs⟩ := hleads.at_start
  · cases he
    rw [hleads.at_found] at ht
    exact nomatch ht
  · rw [hfs] at ht
    exact nomatch ht

/-- A file is written at one place, where its path leads from then on, or nothing happens. -/
theorem run_write_cases (content : ByteArray) (hd : d.IsSolid p) :
    (∃ f, (write p content).run d = (.error f, d)) ∨
    ∃ place d', (write p content).run d = (.ok (), d') ∧ Grows (fun q => q = place) d d' ∧
      d'.locate .entry p = .ok (.found place (.file content)) ∧
      ∀ q, q ≠ place → SameAt d d' q := by
  rw [run_write]
  cases hl : d.locate .file p with
  | error f => exact .inl ⟨f, rfl⟩
  | ok t =>
    have hleads := (locate_eq_ok_iff.1 hl).2
    -- what stands at the place is written over, and the way to it stays
    have found {place : List String} {e : Entry} {d' : Disk}
        (hl : d'.locate .file p = .ok (.found place e))
        (hat : d'.root.at? place = some (.file content)) :
        d'.locate .entry p = .ok (.found place (.file content)) := by
      obtain ⟨hp, hleads⟩ := locate_eq_ok_iff.1 hl
      rw [hleads.at_found] at hat
      cases hat
      exact locate_eq_ok_iff.2 ⟨hp, hleads.entry fun t ht => nomatch ht⟩
    cases t with
    | vacant dir n =>
      obtain ⟨es, hx, hn⟩ := hleads.at_vacant
      have hg : Grows (fun q => q = dir ++ [n]) d (d.put (dir ++ [n]) (.file content)) := by
        refine .put hx.folder (fun x xs => rfl) (fun t ht => nomatch ht) (fun e he => ?_)
        rw [hn] at he
        exact nomatch he
      have hat : (d.put (dir ++ [n]) (.file content)).root.at? (dir ++ [n]) =
          some (.file content) := at_put_place hx.folder _ n
      obtain ⟨t', ht, hl'⟩ := hg.locate hl
      cases ht with
      | vacant hnone =>
        rw [hat] at hnone
        exact nomatch hnone
      | filled _ =>
        exact .inr ⟨_, _, rfl, hg, found hl' hat,
          fun q hq => sameAt_put_new hx.folder hn (fun x xs => rfl) hq⟩
    | found place e =>
      have hold := hleads.at_found
      cases e with
      | folder _ => exact .inl ⟨_, rfl⟩
      | link target => exact absurd rfl (hleads.ne_link (fun h => nomatch h) hd target)
      | file old =>
        have hg : Grows (fun q => q = place) d (d.put place (.file content)) :=
          .put_file hold content rfl
        obtain ⟨e', -, hl'⟩ := hg.locate_found hl
        exact .inr ⟨_, _, rfl, hg, found hl' (at_put_of_at hold _),
          fun q hq => sameAt_put_file hold content hq⟩

theorem write_grows (content : ByteArray) (hd : d.IsSolid p) :
    Grows (fun _ => True) d ((write p content).run d).2 := by
  obtain ⟨f, h⟩ | ⟨place, d', h, hg, -, -⟩ := run_write_cases content hd
  · rw [h]
    exact .refl d
  · rw [h]
    exact hg.mono fun _ _ => trivial

theorem writeCopy_grows (content : ByteArray) (hd : d.IsSolid p) :
    Grows (fun _ => True) d ((writeCopy p content).run d).2 := by
  have hg := write_grows content hd
  rcases hw : (write p content).run d with ⟨x, d₁⟩
  rw [hw] at hg
  unfold writeCopy
  cases x with
  | ok a =>
    rw [run_tryCatch_ok hw]
    exact hg
  | error f =>
    rw [run_tryCatch_error hw]
    split
    · exact hg
    · dsimp only
      rw [run_bind_ok (run_get d₁)]
      split <;> exact hg

/-- Copying a file takes nothing away. -/
theorem copy_grows (source p : Path) : IsGrowth (fun _ => True) (copy source p) := by
  intro d
  unfold copy
  have hg : Grows (fun _ => True) d ((makeFolders p.parent).run d).2 := IsGrowth.makeFolders _ d
  rcases hm : (makeFolders p.parent).run d with ⟨x, d₁⟩
  rw [hm] at hg
  cases x with
  | error f =>
    rw [run_bind_error hm]
    exact hg
  | ok _ =>
    -- the folder of the copy is there now, so the copy is not written over a link
    have hd₁ := isSolid_of_parent (makeFolders_ok hm)
    rw [run_bind_ok hm, run_bind_ok (run_get d₁)]
    split
    · exact hg
    · exact hg
    · split
      · exact hg.trans (writeCopy_grows _ hd₁)
      · exact hg

theorem writeCopy_ok {content : ByteArray} (h : (writeCopy p content).run d = (.ok (), d')) :
    (write p content).run d = (.ok (), d') := by
  obtain h | ⟨f, d₁, -, h⟩ := tryCatch_eq_ok h
  · exact h
  · -- a failure is handled by another failure
    split at h
    · exact nomatch congrArg Prod.fst h
    · obtain ⟨_, d₂, -, h⟩ := bind_eq_ok h
      split at h <;> exact nomatch congrArg Prod.fst h

/-- A file that could be copied was found when the folder of its copy had been made, and the copy is
at one place, where its path leads from then on. -/
theorem copy_ok {source : Path} (h : (copy source p).run d = (.ok (), d')) :
    ∃ d₁ content place, (makeFolders p.parent).run d = (.ok (), d₁) ∧
      d₁.read source = .ok content ∧ Grows (fun q => q = place) d₁ d' ∧
      d'.locate .entry p = .ok (.found place (.file content)) ∧
      ∀ q, q ≠ place → SameAt d₁ d' q := by
  obtain ⟨_, d₁, hm, h⟩ := bind_eq_ok h
  obtain ⟨_, d₂, hget, h⟩ := bind_eq_ok h
  cases hget
  split at h
  · exact nomatch congrArg Prod.fst h
  · exact nomatch congrArg Prod.fst h
  · split at h
    · next content hread =>
      have hw := writeCopy_ok h
      obtain ⟨f, hwrite⟩ | ⟨place, d₂, hwrite, hg, hl, hsame⟩ :=
        run_write_cases content (isSolid_of_parent (makeFolders_ok hm))
      · rw [hw] at hwrite
        exact nomatch congrArg Prod.fst hwrite
      · rw [hw] at hwrite
        obtain rfl : d' = d₂ := congrArg Prod.snd hwrite
        exact ⟨d₁, content, place, hm, hread, hg, hl, hsame⟩
    · exact nomatch congrArg Prod.fst h

/-- When the folder of a text has been made, the text is written at one place, where its path leads
from then on, or nothing more happens. -/
theorem run_writeText_cases (k : LineEnd) (p : Path) (s : String) (d : Disk) :
    ∃ x d₁, (makeFolders p.parent).run d = (x, d₁) ∧
      ((∃ f, (writeText k p s).run d = (.error f, d₁)) ∨
        ∃ place d', (writeText k p s).run d = (.ok (), d') ∧ Grows (fun q => q = place) d₁ d' ∧
          d'.locate .entry p = .ok (.found place (.file (k.apply s).toUTF8)) ∧
          ∀ q, q ≠ place → SameAt d₁ d' q) := by
  rcases hm : (makeFolders p.parent).run d with ⟨x, d₁⟩
  refine ⟨x, d₁, rfl, ?_⟩
  unfold writeText
  cases x with
  | error f => exact .inl ⟨f, run_bind_error hm _⟩
  | ok _ =>
    rw [run_bind_ok hm]
    exact run_write_cases (k.apply s).toUTF8 (isSolid_of_parent (makeFolders_ok hm))

/-- A text that could be written is found as a file where its path leads, and no other file has
been changed. -/
theorem writeText_ok {k : LineEnd} {s : String} (h : (writeText k p s).run d = (.ok (), d')) :
    ∃ place, Grows (fun q => q = place) d d' ∧
      d'.locate .entry p = .ok (.found place (.file (k.apply s).toUTF8)) := by
  obtain ⟨x, d₁, hm, ⟨f, hw⟩ | ⟨place, d₂, hw, hg, hl, -⟩⟩ := run_writeText_cases k p s d
  · rw [h] at hw
    exact nomatch congrArg Prod.fst hw
  · rw [h] at hw
    obtain rfl : d' = d₂ := congrArg Prod.snd hw
    have hfolders : Grows (fun q => q = place) d ((makeFolders p.parent).run d).2 :=
      IsGrowth.makeFolders _ d
    rw [hm] at hfolders
    exact ⟨place, hfolders.trans hg, hl⟩

/-- A text that could not be written has changed no file. -/
theorem writeText_error {k : LineEnd} {s : String} {f : FileFault}
    (h : (writeText k p s).run d = (.error f, d')) : Grows changed d d' := by
  have hfolders : Grows changed d ((makeFolders p.parent).run d).2 := IsGrowth.makeFolders _ d
  obtain ⟨x, d₁, hm, ⟨g, hw⟩ | ⟨place, d₂, hw, -, -, -⟩⟩ := run_writeText_cases k p s d
  · rw [h] at hw
    obtain rfl : d' = d₁ := congrArg Prod.snd hw
    rw [hm] at hfolders
    exact hfolders
  · rw [h] at hw
    exact nomatch congrArg Prod.fst hw

/-- The path leads to a folder in which there are no links. -/
structure IsSettled (d : Disk) (p : Path) (dir : List String) : Prop where
  found : ∃ es, d.locate .entry p = .ok (.found dir (.folder es))
  noLinks : ∀ n target, d.root.at? (dir ++ [n]) ≠ some (.link target)

/-- A name that stands for an entry of its folder. -/
def IsEntryName (n : String) : Prop := n ≠ ".." ∧ n ≠ "." ∧ n ≠ ""

instance (n : String) : Decidable (IsEntryName n) :=
  inferInstanceAs (Decidable (n ≠ ".." ∧ n ≠ "." ∧ n ≠ ""))

/-- A name that is no link leads to the entry of that name in a folder. -/
theorem Leads.enter_name {root : Entry} {links : Nat} {dir place rest : List String} {n : String}
    {e : Entry} (h : Leads root .entry links dir (n :: rest) (.found place e)) (hn : IsEntryName n)
    (hlink : ∀ target, root.at? (dir ++ [n]) ≠ some (.link target)) :
    Leads root .entry links (dir ++ [n]) rest (.found place e) := by
  cases h with
  | up _ _ => exact absurd rfl hn.1
  | stay _ hhere _ => exact (hhere.elim hn.2.1 hn.2.2).elim
  | link _ _ haim => exact nomatch haim
  | follow hx hl _ _ => exact absurd ((at_child hx.folder n).trans hl) (hlink _)
  | enter _ _ _ hrest => exact hrest

/-- Names lead on from name to name as long as they meet no links. -/
theorem Leads.place_eq {root : Entry} {links : Nat} {dir place names : List String} {e : Entry}
    (h : Leads root .entry links dir names (.found place e)) (hnames : ∀ n ∈ names, IsEntryName n)
    (hlinks : ∀ ns target, ns <+: names → ns ≠ [] → root.at? (dir ++ ns) ≠ some (.link target)) :
    place = dir ++ names := by
  induction names generalizing dir with
  | nil =>
    cases h with
    | done _ => exact (List.append_nil _).symm
  | cons n ns ih =>
    obtain ⟨hn, hns⟩ := List.forall_mem_cons.1 hnames
    have hfirst : [n] <+: n :: ns := ⟨ns, rfl⟩
    have hrest := h.enter_name hn fun target => hlinks [n] target hfirst (by simp)
    have hplace : place = dir ++ [n] ++ ns := by
      refine ih hrest hns fun ms target hms _ => ?_
      rw [List.append_assoc]
      exact hlinks (n :: ms) target ((List.prefix_cons_inj n).2 hms) (by simp)
    rw [hplace, List.append_assoc]
    rfl

/-- Below the folder that a path leads to, names lead where they say as long as they meet no
links. -/
theorem place_eq_below {dir place names : List String} {e f : Entry}
    (hdir : d.locate .entry p = .ok (.found dir f))
    (hl : d.locate .entry ⟨p.start, p.parts ++ names⟩ = .ok (.found place e))
    (hnames : ∀ n ∈ names, IsEntryName n)
    (hlinks : ∀ ns target, ns <+: names → ns ≠ [] → d.root.at? (dir ++ ns) ≠ some (.link target)) :
    place = dir ++ names := by
  by_cases hne : names = []
  · subst hne
    rw [List.append_nil] at hl
    rw [hdir] at hl
    cases hl
    exact (List.append_nil dir).symm
  have hslash : names ≠ [""] := by
    rintro rfl
    exact (hnames "" (by simp)).2.2 rfl
  obtain ⟨k, hk⟩ := (locate_eq_ok_iff.1 hdir).2.walk_append hne hslash .entry
  have hleads : Leads d.root .entry k dir names (.found place e) := by
    rw [leads_iff, ← hk, ← leads_iff]
    exact (locate_eq_ok_iff.1 hl).2
  exact hleads.place_eq hnames hlinks

namespace IsSettled

variable {dir : List String} {n : String}

theorem of_empty (h : d.locate .entry p = .ok (.found dir (.folder []))) : d.IsSettled p dir := by
  refine ⟨⟨[], h⟩, ?_⟩
  intro n target ht
  rw [at_child (locate_eq_ok_iff.1 h).2.at_found] at ht
  exact nomatch ht

theorem grows (h : d.IsSettled p dir) (hg : Grows changed d d') : d'.IsSettled p dir := by
  obtain ⟨es, hes⟩ := h.found
  obtain ⟨e, hs, he⟩ := hg.locate_found hes
  obtain ⟨es', rfl⟩ := eq_folder_of_shape hs
  exact ⟨⟨es', he⟩, fun n target ht => h.noLinks n target (hg.noLinks ht)⟩

/-- A name leads to the entry of that name in the folder. -/
theorem place_eq (h : d.IsSettled p dir) (hn : IsEntryName n) {place : List String} {e : Entry}
    (hl : d.locate .entry (p.child n) = .ok (.found place e)) : place = dir ++ [n] := by
  obtain ⟨es, hes⟩ := h.found
  refine place_eq_below hes hl (by simpa using hn) fun ns target hns hne => ?_
  obtain ⟨rest, hrest⟩ := hns
  obtain ⟨rfl, -⟩ := (List.append_eq_singleton_iff.1 hrest).resolve_left fun h => hne h.1
  exact h.noLinks n target

end IsSettled

end Disk

end RefSite
