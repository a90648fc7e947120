import RefSite.Proofs.Files.Changes

namespace RefSite

/-- The first path is the way to the second one, or a part of that way. -/
structure Path.IsPrefix (a p : Path) : Prop where
  start : a.start = p.start
  parts : a.parts <+: p.parts

theorem Path.IsPrefix.refl (p : Path) : p.IsPrefix p := ⟨rfl, List.prefix_rfl⟩

theorem Path.IsPrefix.of_parent {a p : Path} (h : a.IsPrefix p.parent) : a.IsPrefix p :=
  ⟨h.start, h.parts.trans p.parts.dropLast_prefix⟩

namespace Disk

open Entry

variable {d d' d'' : Disk} {a p : Path} {dir place q names : List String} {e : Entry}

/-- The second file system has more folders than the first one, each of which the path or a prefix
of it leads to, and does not differ in anything else. -/
structure MakesWay (p : Path) (d d' : Disk) : Prop where
  grows : Grows (fun _ => False) d d'
  made : ∀ q, SameAt d d' q ∨ d.root.at? q = none ∧
    ∃ a es, a.IsPrefix p ∧ d'.locate .entry a = .ok (.found q (.folder es))

namespace MakesWay

theorem refl (p : Path) (d : Disk) : MakesWay p d d := ⟨.refl d, fun q => .inl (.refl d q)⟩

theorem trans (h : MakesWay p d d') (h' : MakesWay p d' d'') : MakesWay p d d'' := by
  refine ⟨h.grows.trans h'.grows, fun q => ?_⟩
  obtain hsame | ⟨hnone, a, es, ha, hl⟩ := h.made q
  · obtain hsame' | ⟨hnone, hmade⟩ := h'.made q
    · exact .inl (hsame.trans hsame')
    · exact .inr ⟨hsame.eq_none hnone, hmade⟩
  · -- what was made first is found again
    obtain ⟨e, hs, hl⟩ := h'.grows.locate_found hl
    obtain ⟨es', rfl⟩ := eq_folder_of_shape hs
    exact .inr ⟨hnone, a, es', ha, hl⟩

theorem of_parent (h : MakesWay p.parent d d') : MakesWay p d d' := by
  refine ⟨h.grows, fun q => ?_⟩
  obtain hsame | ⟨hnone, a, es, ha, hl⟩ := h.made q
  · exact .inl hsame
  · exact .inr ⟨hnone, a, es, ha.of_parent, hl⟩

theorem makeFolder (p : Path) (d : Disk) : MakesWay p d ((makeFolder p).run d).2 := by
  have hg : Grows (fun _ => False) d ((Disk.makeFolder p).run d).2 := IsGrowth.makeFolder p d
  obtain ⟨f, hrun⟩ | ⟨place, d₁, hrun, hnone, hl, hsame⟩ := run_makeFolder_cases p d
  · rw [hrun]
    exact .refl p d
  · rw [hrun] at hg ⊢
    refine ⟨hg, fun q => ?_⟩
    by_cases hq : q = place
    · subst hq
      exact .inr ⟨hnone, p, [], .refl p, hl⟩
    · exact .inl (hsame q hq)

theorem unlessFolder (p : Path) (f : FileFault) (d : Disk) :
    MakesWay p d ((unlessFolder p f).run d).2 := by
  rw [(run_unlessFolder p f d).1]
  exact .refl p d

theorem makeLastFolder (p : Path) (d : Disk) : MakesWay p d ((makeLastFolder p).run d).2 := by
  refine run_tryCatch_rel (MakesWay p) trans (makeFolder p) (fun f d => ?_) d
  split
  · exact .refl p d
  · exact .unlessFolder p f d

theorem makeFolders (p : Path) (d : Disk) : MakesWay p d ((makeFolders p).run d).2 := by
  -- the recursion is that of the definition: first the parent, then the folder itself
  rw [Disk.makeFolders]
  refine run_tryCatch_rel (MakesWay p) trans (makeFolder p) (fun f d => ?_) d
  split
  · split
    · exact .refl p d
    · exact run_bind_rel (MakesWay p) trans (fun d => (makeFolders p.parent d).of_parent)
        (fun _ => makeLastFolder p) d
  · exact .unlessFolder p f d
termination_by p.parts.length
decreasing_by
  next hne =>
    have := List.length_pos_iff.2 hne
    simp only [Path.parent, List.length_dropLast]
    omega

end MakesWay

/-- What a prefix of the way to something leads to, after more has been added, is what it led to
before. -/
theorem locate_prefix (hhere : d'.here = d.here) (hkeeps : KeepsShapes d.root d'.root)
    (hp : d.locate .entry p = .ok (.found place e)) (ha : a.IsPrefix p) {f : Entry}
    (hl : d'.locate .entry a = .ok (.found q f)) :
    ∃ e', f.shape = e'.shape ∧ d.locate .entry a = .ok (.found q e') := by
  obtain ⟨more, hmore⟩ := ha.parts
  obtain ⟨-, hleads⟩ := locate_eq_ok_iff.1 hp
  obtain ⟨husable, hlater⟩ := locate_eq_ok_iff.1 hl
  have hbase : d.base a = d.base p := by rw [base, base, Path.isAbsolute, Path.isAbsolute, ha.start]
  have hbase' : d'.base a = d.base a := by rw [base, base, hhere]
  rw [← hmore, ← hbase] at hleads
  obtain ⟨q', e', hbefore⟩ := hleads.prefix_found
  obtain ⟨f', hs, hagain⟩ := hbefore.found_again hkeeps
  -- both ways are the same, and there is one end to a way
  rw [hbase'] at hlater
  have hends := hagain.walk.symm.trans hlater.walk
  cases hends
  exact ⟨e', hs, locate_eq_ok_iff.2 ⟨husable, hbefore⟩⟩

/-- Where names below a folder were made into folders, nothing changes but at these names. -/
theorem MakesWay.below {output : Path} (h : MakesWay ⟨output.start, output.parts ++ names⟩ d d')
    (hdir : d.locate .entry output = .ok (.found dir e)) (hnames : ∀ n ∈ names, IsEntryName n)
    (hlinks : ∀ ns target, ns <+: names → ns ≠ [] → d.root.at? (dir ++ ns) ≠ some (.link target))
    (q : List String) : SameAt d d' q ∨ ∃ ns, ns ≠ [] ∧ ns <+: names ∧ q = dir ++ ns := by
  obtain hsame | ⟨hnone, a, es, ha, hl⟩ := h.made q
  · exact .inl hsame
  -- it is not the way to the folder itself that has been made, since that was there
  have hbelow : ¬ a.parts <+: output.parts := by
    intro hparts
    obtain ⟨e', -, hl'⟩ :=
      locate_prefix h.grows.here h.grows.keepsShapes hdir ⟨ha.start, hparts⟩ hl
    rw [(locate_eq_ok_iff.1 hl').2.at_found] at hnone
    exact nomatch hnone
  obtain ⟨ns, hns⟩ := (List.prefix_or_prefix_of_prefix ha.parts
    (List.prefix_append output.parts names)).resolve_left hbelow
  have hne : ns ≠ [] := by
    rintro rfl
    exact hbelow ⟨[], by rw [List.append_nil, ← hns, List.append_nil]⟩
  have hpart : ns <+: names := by
    have hparts := ha.parts
    rw [← hns] at hparts
    exact (List.prefix_append_right_inj output.parts).1 hparts
  obtain ⟨e', -, hdir'⟩ := h.grows.locate_found hdir
  have hway : a = ⟨output.start, output.parts ++ ns⟩ := by
    rw [hns]
    exact congrArg (fun start => Path.mk start a.parts) ha.start
  rw [hway] at hl
  refine .inr ⟨ns, hne, hpart, place_eq_below hdir' hl
    (fun n hn => hnames n (hpart.subset hn)) fun ms target hms hmne ht => ?_⟩
  exact hlinks ms target (hms.trans hpart) hmne (h.grows.noLinks ht)

/-- Making the folders above what is there changes nothing. -/
theorem MakesWay.sameAt (h : MakesWay p d d') (hp : d.locate .entry p = .ok (.found place e))
    (q : List String) : SameAt d d' q := by
  have hway : p = ⟨p.start, p.parts ++ []⟩ := by rw [List.append_nil]
  rw [hway] at h
  obtain hsame | ⟨ns, hne, hns, -⟩ := h.below hp (fun n hn => nomatch hn)
    (fun ns target hns hne => absurd (List.prefix_nil.1 hns) hne) q
  · exact hsame
  · exact absurd (List.prefix_nil.1 hns) hne

/-- A folder that is there already is left as it is when it is made. -/
theorem IsSettled.makeFolders (h : d.IsSettled p dir) :
    ((makeFolders p).run d).2.IsSettled p dir ∧ ∀ q, SameAt d ((makeFolders p).run d).2 q := by
  have hway := MakesWay.makeFolders p d
  obtain ⟨es, hes⟩ := h.found
  exact ⟨h.grows hway.grows, hway.sameAt hes⟩

/-- Outside the folder that the path leads to there is what was there before, and folders that were
missing and that a part of the way to it leads to. -/
def KeepsOutside (p : Path) (dir : List String) (d d' : Disk) : Prop :=
  ∀ q, ¬ dir <+: q → SameAt d d' q ∨ d.root.at? q = none ∧
    ∃ a es, a.IsPrefix p ∧ a ≠ p ∧ d'.locate .entry a = .ok (.found q (.folder es))

theorem KeepsOutside.grows (h : KeepsOutside p dir d d')
    (hg : Grows (fun _ => True) d' d'') (hsame : ∀ q, ¬ dir <+: q → SameAt d' d'' q) :
    KeepsOutside p dir d d'' := by
  intro q hq
  obtain hold | ⟨hnone, a, es, ha, hne, hl⟩ := h q hq
  · exact .inl (hold.trans (hsame q hq))
  · obtain ⟨e, hs, hl⟩ := hg.locate_found hl
    obtain ⟨es', rfl⟩ := eq_folder_of_shape hs
    exact .inr ⟨hnone, a, es', ha, hne, hl⟩

theorem at_below_empty (hp : d.locate .entry p = .ok (.found dir (.folder []))) {ns : List String}
    (hns : ns ≠ []) : d.root.at? (dir ++ ns) = none := by
  rw [at_append, (locate_eq_ok_iff.1 hp).2.at_found, Option.bind_some]
  cases ns with
  | nil => exact absurd rfl hns
  | cons n ns =>
    rw [at_cons_folder]
    rfl

/-- Nothing that comes to be below an empty folder is a link. -/
theorem ne_link_below_empty (hp : d.locate .entry p = .ok (.found dir (.folder [])))
    (hg : Grows (fun _ => True) d d') {ns : List String} (hns : ns ≠ []) (target : String) :
    d'.root.at? (dir ++ ns) ≠ some (.link target) := by
  intro ht
  have hold := (hg.noLinks ht).symm.trans (at_below_empty hp hns)
  exact Option.some_ne_none _ hold

/-- A folder that is emptied is made first. -/
theorem emptyFolder_ok (h : (emptyFolder p).run d = (.ok (), d'))
    (hp : ((makeFolders p).run d).2.locate .entry p = .ok (.found dir e)) :
    d' = ((makeFolders p).run d).2.put dir (.folder []) := by
  obtain ⟨_, d₁, hm, h⟩ := bind_eq_ok h
  obtain ⟨_, d₂, hget, h⟩ := bind_eq_ok h
  cases hget
  rw [hm] at hp ⊢
  rw [hp] at h
  exact (congrArg Prod.snd h).symm

/-- Outside a folder that is emptied nothing changes but what is made for it, as long as its path
still leads there. -/
theorem emptyFolder_keepsOutside {es : List (String × Entry)}
    (h : (emptyFolder p).run d = (.ok (), d'))
    (hp : ((makeFolders p).run d).2.locate .entry p = .ok (.found dir (.folder es)))
    (hp' : d'.locate .entry p = .ok (.found dir (.folder []))) : KeepsOutside p dir d d' := by
  have hway := MakesWay.makeFolders p d
  have hd' := emptyFolder_ok h hp
  generalize ((makeFolders p).run d).2 = made at hp hway hd'
  have hat := (locate_eq_ok_iff.1 hp).2.at_found
  have hsame (q : List String) (hq : ¬ dir <+: q) : SameAt made d' q := by
    rw [hd']
    exact sameAt_put hat _ hq
  -- what is left when the folder is empty was there when it was made
  have hkeeps : KeepsShapes d'.root made.root := by
    intro place e he
    by_cases hbelow : dir <+: place
    · obtain ⟨ns, rfl⟩ := hbelow
      by_cases hns : ns = []
      · subst hns
        rw [List.append_nil, (locate_eq_ok_iff.1 hp').2.at_found] at he
        cases he
        rw [List.append_nil, hat]
        rfl
      · rw [at_below_empty hp' hns] at he
        exact nomatch he
    · rw [← (hsame place hbelow).shape, he]
      rfl
  intro q hq
  obtain hold | ⟨hnone, a, fs, ha, hl⟩ := hway.made q
  · exact .inl (hold.trans (hsame q hq))
  · -- the way to the folder is still what it was when it was made
    have hhere : made.here = d'.here := by rw [hd', put]
    obtain ⟨e', hs, hl'⟩ := locate_prefix hhere hkeeps hp' ha hl
    obtain ⟨es', rfl⟩ := eq_folder_of_shape hs.symm
    refine .inr ⟨hnone, a, es', ha, ?_, hl'⟩
    rintro rfl
    rw [hp'] at hl'
    cases hl'
    exact hq List.prefix_rfl

/-- Names that spell a place lead to what stands there. -/
theorem Leads.of_spelled {root : Entry} {links : Nat}
    (hnames : ∀ n ∈ names, IsEntryName n ∧ n.utf8ByteSize ≤ nameLimit)
    (hat : root.at? (place ++ names) = some e) (he : ∀ target, e ≠ .link target) :
    Leads root .entry links place names (.found (place ++ names) e) := by
  induction names generalizing place with
  | nil =>
    rw [List.append_nil] at hat ⊢
    exact .done hat
  | cons n ns ih =>
    obtain ⟨⟨⟨hup, hdot, hempty⟩, hshort⟩, hns⟩ := List.forall_mem_cons.1 hnames
    obtain ⟨es, hes⟩ := folder_of_at_append hat
    have hstep : place ++ n :: ns = place ++ [n] ++ ns := by rw [List.append_assoc]; rfl
    rw [hstep] at hat ⊢
    have hrest := ih hns hat
    obtain ⟨f, hf, hfe⟩ : ∃ f, root.at? (place ++ [n]) = some f ∧ f.at? ns = some e := by
      rw [at_append] at hat
      exact Option.bind_eq_some_iff.1 hat
    refine .enter ⟨hes, hup, ?_, (fun hf => nomatch hf.1), Nat.not_lt.2 hshort⟩
      ((at_child hes n).symm.trans hf) ?_ hrest
    · rintro (h | h)
      · exact hdot h
      · exact hempty h
    · -- what stands on the way is a folder, or it is what stands at the end
      rintro target rfl
      cases ns with
      | nil =>
        rw [at_nil] at hfe
        exact he target (Option.some.inj hfe).symm
      | cons x xs => exact nomatch hfe

theorem read_spelled {content : ByteArray} (hat : d.root.at? q = some (.file content))
    (hq : (Path.mk .root q).IsUsable)
    (hnames : ∀ n ∈ q, IsEntryName n ∧ n.utf8ByteSize ≤ nameLimit) :
    d.read ⟨.root, q⟩ = .ok content := by
  have hleads : Leads d.root .entry linkLimit (d.base ⟨.root, q⟩) q
      (.found ([] ++ q) (.file content)) :=
    .of_spelled hnames hat fun target ht => nomatch ht
  exact read_eq_ok (locate_eq_ok_iff.2 ⟨hq, hleads⟩)

/-- A file outside a folder is read as before when the folder is emptied, if its path spells the
place that it stands at. -/
theorem KeepsOutside.read {content : ByteArray} (h : KeepsOutside p dir d d')
    (hat : d.root.at? q = some (.file content)) (hdir : ¬ dir <+: q)
    (hq : (Path.mk .root q).IsUsable)
    (hnames : ∀ n ∈ q, IsEntryName n ∧ n.utf8ByteSize ≤ nameLimit) :
    d'.read ⟨.root, q⟩ = d.read ⟨.root, q⟩ := by
  obtain hsame | ⟨hnone, -⟩ := h q hdir
  · rw [read_spelled hat hq hnames, read_spelled (hsame.file hat) hq hnames]
  · rw [hat] at hnone
    exact nomatch hnone

variable {source : Path} {content : ByteArray}

theorem locate_of_read (h : d.read p = .ok content) :
    ∃ place, d.locate .entry p = .ok (.found place (.file content)) := by
  unfold read at h
  split at h
  · next hl =>
    cases h
    exact ⟨_, hl⟩
  all_goals exact nomatch h

/-- Where no file is changed, every file is read as before. -/
theorem Grows.read (hg : Grows (fun _ => False) d d') (h : d.read p = .ok content) :
    d'.read p = .ok content := by
  obtain ⟨place, hl⟩ := locate_of_read h
  exact read_eq_ok (hg.locate_file hl not_false)

/-- A file that is copied below an empty folder is there under the names it was given, and nothing
else has changed but on the way to it. -/
theorem copy_into_empty (h : (copy source ⟨p.start, p.parts ++ names⟩).run d = (.ok (), d'))
    (hp : d.locate .entry p = .ok (.found dir (.folder []))) (hnames : ∀ n ∈ names, IsEntryName n)
    (hne : names ≠ []) (hread : d.read source = .ok content) :
    d'.root.at? (dir ++ names) = some (.file content) ∧
      ∀ q, SameAt d d' q ∨ ∃ ns, ns ≠ [] ∧ ns <+: names ∧ q = dir ++ ns := by
  have hgrows := copy_grows source ⟨p.start, p.parts ++ names⟩ d
  rw [h] at hgrows
  obtain ⟨d₁, content', place, hm, hsource, -, hl, hsame⟩ := copy_ok h
  rw [Path.parent, List.dropLast_append_of_ne_nil hne] at hm
  have hway := MakesWay.makeFolders ⟨p.start, p.parts ++ names.dropLast⟩ d
  rw [hm] at hway
  rw [hway.grows.read hread] at hsource
  cases hsource
  obtain ⟨e, -, hp'⟩ := hgrows.locate_found hp
  obtain rfl := place_eq_below hp' hl hnames fun ns target _ hns =>
    ne_link_below_empty hp hgrows hns target
  refine ⟨(locate_eq_ok_iff.1 hl).2.at_found, fun q => ?_⟩
  -- the copy itself comes after the folders that were made for it
  by_cases hq : q = dir ++ names
  · exact .inr ⟨names, hne, List.prefix_rfl, hq⟩
  obtain hmade | ⟨ns, hns, hpart, hq⟩ := hway.below hp
    (fun n hn => hnames n (List.dropLast_subset _ hn))
    (fun ns target _ hns => ne_link_below_empty hp (.refl d) hns target) q
  · exact .inl (hmade.trans (hsame q hq))
  · exact .inr ⟨ns, hns, hpart.trans (List.dropLast_prefix _), hq⟩

/-- After a copy the file and its copy hold the same, and if the file could be read before, it holds
what it held. -/
theorem copy_same (h : (copy source p).run d = (.ok (), d')) :
    ∃ content place q, (∀ old, d.read source = .ok old → content = old) ∧
      d'.locate .entry p = .ok (.found place (.file content)) ∧
      d'.locate .entry source = .ok (.found q (.file content)) := by
  obtain ⟨d₁, content, place, hm, hread, hg, hl, -⟩ := copy_ok h
  have hway := MakesWay.makeFolders p.parent d
  rw [hm] at hway
  obtain ⟨q, hsource⟩ := locate_of_read hread
  refine ⟨content, place, q, fun old hold => ?_, hl, ?_⟩
  · have hkept := hway.grows.read hold
    rw [hread] at hkept
    exact Except.ok.inj hkept
  · -- if the copy is at the place of the file itself, it holds the same
    by_cases hq : q = place
    · subst hq
      exact hg.locate_same hsource hl
    · exact hg.locate_file hsource hq

end Disk

end RefSite
