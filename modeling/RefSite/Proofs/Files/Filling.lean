import RefSite.Proofs.Files.Changes

/-! File systems that are filled with files. A path to a file that is written leads to one place, with
a file or with nothing there. It leads to the same place when other files have been written before,
so that files can be written in any order. -/
namespace RefSite.Disk

open Entry

variable {d d' : Disk} {aim : Aim} {links : Nat} {place parts : List String} {p : Path} {t : Target}

/-- What a way leads to is also found when links at its end are not followed. -/
theorem Leads.name {root : Entry} {q : List String} {e : Entry}
    (h : Leads root .entry links place parts (.found q e)) :
    ∃ q' e', Leads root .name links place parts (.found q' e') := by
  have looksUp {place : List String} {n : String} {rest : List String}
      {es : List (String × Entry)} (h : LooksUp root .entry place n rest es) :
      LooksUp root .name place n rest es :=
    ⟨h.folder, h.notUp, h.notHere, (fun hf => nomatch hf.1), h.short⟩
  generalize ht : Target.found q e = t at h
  -- the way is the same one up to a link at its end, where it now stops
  induction h with
  | done h => exact ⟨_, _, .done h⟩
  | up h _ ih =>
    obtain ⟨q', e', hl⟩ := ih ht
    exact ⟨q', e', .up h hl⟩
  | stay h hn _ ih =>
    obtain ⟨q', e', hl⟩ := ih ht
    exact ⟨q', e', .stay h hn hl⟩
  | vacant _ _ => exact nomatch ht
  | link _ _ haim => exact nomatch haim
  | @follow _ _ rest _ _ _ _ h hn _ _ ih =>
    by_cases hrest : rest = []
    · subst hrest
      exact ⟨_, _, .link (looksUp h) hn rfl⟩
    · obtain ⟨q', e', hl⟩ := ih ht
      exact ⟨q', e', .follow (looksUp h) hn (fun hlast => hrest hlast.1) hl⟩
  | enter h hn he _ ih =>
    obtain ⟨q', e', hl⟩ := ih ht
    exact ⟨q', e', .enter (looksUp h) hn he hl⟩

theorem run_makeFolders_of_leads (h : d.LeadsToFolder p) :
    (makeFolders p).run d = (.ok (), d) := by
  obtain ⟨dir, es, hl⟩ := h
  obtain ⟨hp, hleads⟩ := locate_eq_ok_iff.1 hl
  obtain ⟨q, e, hname⟩ := hleads.name
  have hmake : (makeFolder p).run d = (.error .alreadyThere, d) := by
    rw [run_makeFolder, locate_eq_ok_iff.2 ⟨hp, hname⟩]
  have hfolder : d.isFolder p = .ok true := by
    rw [isFolder, entry?, hl]
    rfl
  rw [makeFolders, run_tryCatch_error hmake, if_neg (by decide), unlessFolder, if_neg (by decide),
    run_bind_ok (run_get d), hfolder]
  rfl

theorem LeadsToFolder.base_ne_none (h : d.LeadsToFolder p) : d.root.at? (d.base p) ≠ none := by
  obtain ⟨dir, es, hl⟩ := h
  obtain ⟨-, e, he⟩ | ⟨fs, hfs⟩ := (locate_eq_ok_iff.1 hl).2.at_start
  · cases he
    rw [(locate_eq_ok_iff.1 hl).2.at_found]
    exact fun h => nomatch h
  · rw [hfs]
    exact fun h => nomatch h

theorem LeadsToFolder.grows {changed : List String → Prop} (h : d.LeadsToFolder p)
    (hd : Grows changed d d') : d'.LeadsToFolder p := by
  obtain ⟨dir, es, hl⟩ := h
  obtain ⟨e, hs, hl'⟩ := hd.locate_found hl
  obtain ⟨es', rfl⟩ := eq_folder_of_shape hs
  exact ⟨dir, es', hl'⟩

/-- Where a folder is there, writing a text is writing a file. -/
theorem run_writeText_of_leads (k : LineEnd) (s : String) (h : d.LeadsToFolder p.parent) :
    (writeText k p s).run d = (write p (k.apply s).toUTF8).run d := by
  rw [writeText, run_bind_ok (run_makeFolders_of_leads h)]

/-- The path leads to a place that takes a file: there is a file already, or a folder without
anything of the name. -/
inductive TakesFile (d : Disk) (p : Path) : List String → Prop where
  | file {place : List String} {content : ByteArray}
      (h : d.locate .file p = .ok (.found place (.file content))) : TakesFile d p place
  | vacant {dir : List String} {n : String} (h : d.locate .file p = .ok (.vacant dir n)) :
      TakesFile d p (dir ++ [n])

namespace TakesFile

theorem place_unique {place' : List String} (h : TakesFile d p place) (h' : TakesFile d p place') :
    place' = place := by
  cases h with
  | file h =>
    cases h' with
    | file h' =>
      rw [h] at h'
      cases h'
      rfl
    | vacant h' => exact nomatch h.symm.trans h'
  | vacant h =>
    cases h' with
    | file h' => exact nomatch h.symm.trans h'
    | vacant h' =>
      rw [h] at h'
      cases h'
      rfl

theorem run_write (h : TakesFile d p place) (content : ByteArray) :
    (write p content).run d = (.ok (), d.put place (.file content)) := by
  rw [Disk.run_write]
  cases h with
  | file h => rw [h]
  | vacant h => rw [h]

theorem at_put (h : TakesFile d p place) (content : ByteArray) :
    (d.put place (.file content)).root.at? place = some (.file content) := by
  cases h with
  | file h => exact at_put_of_at (locate_eq_ok_iff.1 h).2.at_found _
  | vacant h =>
    obtain ⟨es, hx, -⟩ := (locate_eq_ok_iff.1 h).2.at_vacant
    exact at_put_place hx.folder _ _

/-- A file that is put in the place is put nowhere else. -/
theorem sameAt_put (h : TakesFile d p place) (content : ByteArray) {q : List String}
    (hq : q ≠ place) : SameAt d (d.put place (.file content)) q := by
  cases h with
  | file h => exact sameAt_put_file (locate_eq_ok_iff.1 h).2.at_found content hq
  | vacant h =>
    obtain ⟨es, hx, hn⟩ := (locate_eq_ok_iff.1 h).2.at_vacant
    exact sameAt_put_new hx.folder hn (fun x xs => rfl) hq

/-- Nothing but a file is replaced. -/
theorem at_place (h : TakesFile d p place) :
    d.root.at? place = none ∨ ∃ content, d.root.at? place = some (.file content) := by
  cases h with
  | file h => exact .inr ⟨_, (locate_eq_ok_iff.1 h).2.at_found⟩
  | vacant h =>
    obtain ⟨es, hx, hn⟩ := (locate_eq_ok_iff.1 h).2.at_vacant
    exact .inl ((at_child hx.folder _).trans hn)

/-- Where a file is in the place, the path leads to it. -/
theorem locate_entry (h : TakesFile d p place) {content : ByteArray}
    (hat : d.root.at? place = some (.file content)) :
    d.locate .entry p = .ok (.found place (.file content)) := by
  cases h with
  | file h =>
    obtain ⟨hp, hleads⟩ := locate_eq_ok_iff.1 h
    rw [hleads.at_found] at hat
    cases hat
    exact locate_eq_ok_iff.2 ⟨hp, hleads.entry fun t ht => nomatch ht⟩
  | vacant h =>
    obtain ⟨es, hx, hn⟩ := (locate_eq_ok_iff.1 h).2.at_vacant
    rw [at_child hx.folder, hn] at hat
    exact nomatch hat

end TakesFile

/-- A file that was written has been put in the place that the path led to. -/
theorem write_ok {content : ByteArray} (hd : d.IsSolid p)
    (h : (write p content).run d = (.ok (), d')) :
    ∃ place, TakesFile d p place ∧ d' = d.put place (.file content) := by
  rw [run_write] at h
  split at h
  · exact nomatch congrArg Prod.fst h
  · next place e hne hl =>
    obtain rfl : _ = d' := congrArg Prod.snd h
    cases e with
    | folder es => exact (hne es rfl).elim
    | link target =>
      exact absurd rfl ((locate_eq_ok_iff.1 hl).2.ne_link (fun h => nomatch h) hd target)
    | file old => exact ⟨place, .file hl, rfl⟩
  · next dir n hl =>
    obtain rfl : _ = d' := congrArg Prod.snd h
    exact ⟨_, .vacant hl, rfl⟩
  · exact nomatch congrArg Prod.fst h

/-- The second file system has all that the first one has, and what is new in it are files. -/
structure Fills (d d' : Disk) : Prop where
  grows : Grows (fun _ => True) d d'
  files : ∀ {q e}, d.root.at? q = none → d'.root.at? q = some e → e.shape = .file

namespace Fills

theorem refl (d : Disk) : Fills d d := by
  refine ⟨.refl d, fun h h' => ?_⟩
  rw [h] at h'
  exact nomatch h'

theorem trans {d'' : Disk} (h : Fills d d') (h' : Fills d' d'') : Fills d d'' := by
  refine ⟨h.grows.trans h'.grows, fun {q e} hq he => ?_⟩
  cases hq' : d'.root.at? q with
  | none => exact h'.files hq' he
  | some e' =>
    have hkept := h'.grows.keeps hq'
    rw [he] at hkept
    rw [← h.files hq hq', Option.some.inj hkept]

theorem put (h : TakesFile d p place) (content : ByteArray) :
    Fills d (d.put place (.file content)) := by
  have same (q : List String) (hq : q ≠ place) :
      ((d.put place (.file content)).root.at? q).map shape = (d.root.at? q).map shape :=
    (h.sameAt_put content hq).shape
  -- at the place itself there is a file now, and there was a file or nothing
  refine ⟨⟨rfl, fun {q e} he => ?_, fun he hn => absurd trivial hn, fun {q t} ht => ?_⟩,
    fun {q e} hq he => ?_⟩
  · by_cases hq : q = place
    · subst hq
      rw [h.at_put]
      obtain hnone | ⟨old, hold⟩ := h.at_place
      · exact nomatch hnone.symm.trans he
      · cases hold.symm.trans he
        rfl
    · rw [same q hq, he]
      rfl
  · by_cases hq : q = place
    · subst hq
      rw [h.at_put] at ht
      exact nomatch ht
    · have hs := same q hq
      rw [ht] at hs
      obtain ⟨e, he, hshape⟩ := Option.map_eq_some_iff.1 hs.symm
      rw [he, eq_link_of_shape hshape]
  · by_cases hq' : q = place
    · subst hq'
      rw [h.at_put] at he
      cases he
      rfl
    · have hs := same q hq'
      rw [he, hq] at hs
      exact nomatch hs

/-- A file is still a file. -/
theorem file (h : Fills d d') {content : ByteArray}
    (he : d.root.at? place = some (.file content)) :
    ∃ content', d'.root.at? place = some (.file content') := by
  obtain ⟨e, he', hs⟩ := h.grows.entry he
  cases e with
  | file content' => exact ⟨content', he'⟩
  | link _ => exact nomatch hs
  | folder _ => exact nomatch hs

/-- A folder that stands where something was is the folder that was there. -/
theorem old_folder (h : Fills d d') {es : List (String × Entry)}
    (he : d'.root.at? place = some (.folder es)) (hold : d.root.at? place ≠ none) :
    ∃ es', d.root.at? place = some (.folder es') := by
  obtain ⟨e, hat⟩ := Option.ne_none_iff_exists'.1 hold
  have hs := h.grows.keeps hat
  rw [he] at hs
  obtain ⟨es', rfl⟩ := eq_folder_of_shape (Option.some.inj hs).symm
  exact ⟨es', hat⟩

/-- What is looked up in a folder that was there was looked up in it before. -/
theorem looksUp (h : Fills d d') {n : String} {rest : List String} {es : List (String × Entry)}
    (hx : LooksUp d'.root aim place n rest es) (hold : d.root.at? place ≠ none) :
    ∃ es', LooksUp d.root aim place n rest es' ∧ d.root.at? (place ++ [n]) = es'.lookup n ∧
      d'.root.at? (place ++ [n]) = es.lookup n := by
  obtain ⟨es', hes'⟩ := h.old_folder hx.folder hold
  exact ⟨es', ⟨hes', hx.notUp, hx.notHere, hx.notSlash, hx.short⟩, at_child hes' n,
    at_child hx.folder n⟩

/-- A way that leads somewhere did so before, as long as it starts where something was. -/
theorem leads (h : Fills d d') {t' : Target} (hl : Leads d'.root aim links place parts t')
    (hold : d.root.at? place ≠ none) :
    ∃ t, Becomes d' t t' ∧ Leads d.root aim links place parts t := by
  -- the folders above a folder that was there were there too
  have above {place : List String} (rest : List String) {es : List (String × Entry)}
      (he : d.root.at? (place ++ rest) = some (.folder es)) : d.root.at? place ≠ none := by
    obtain ⟨ds, hds⟩ := folder_above he
    rw [hds]
    exact fun h => nomatch h
  induction hl with
  | done he =>
    obtain ⟨e, hat⟩ := Option.ne_none_iff_exists'.1 hold
    have hs := h.grows.keeps hat
    rw [he] at hs
    exact ⟨_, .found (Option.some.inj hs), .done hat⟩
  | @up links place rest es t he _ ih =>
    obtain ⟨es', hes'⟩ := h.old_folder he hold
    have hparent : d.root.at? place.dropLast ≠ none := by
      by_cases hne : place = []
      · subst hne
        exact hold
      · rw [← List.dropLast_concat_getLast hne] at hes'
        exact above _ hes'
    obtain ⟨t, ht, hl⟩ := ih hparent
    exact ⟨t, ht, .up hes' hl⟩
  | stay he hn _ ih =>
    obtain ⟨es', hes'⟩ := h.old_folder he hold
    obtain ⟨t, ht, hl⟩ := ih hold
    exact ⟨t, ht, .stay hes' hn hl⟩
  | @vacant links place n es hx hn =>
    obtain ⟨es', hx', hat, hat'⟩ := h.looksUp hx hold
    cases hn' : es'.lookup n with
    | none => exact ⟨_, .vacant (hat'.trans hn), .vacant hx' hn'⟩
    | some e =>
      have hkept := h.grows.keeps (hat.trans hn')
      rw [hat', hn] at hkept
      exact nomatch hkept
  | link hx hn haim =>
    obtain ⟨es', hx', hat, hat'⟩ := h.looksUp hx hold
    have hlink := h.grows.noLinks (hat'.trans hn)
    exact ⟨_, .found rfl, .link hx' (hat.symm.trans hlink) haim⟩
  | @follow links place rest n es target t hx hn haim _ ih =>
    obtain ⟨es', hx', hat, hat'⟩ := h.looksUp hx hold
    have hlink := h.grows.noLinks (hat'.trans hn)
    have hbase : d.root.at? (linkBase place target) ≠ none := by
      unfold linkBase
      split
      · exact above place (by simpa using hx'.folder)
      · exact hold
    obtain ⟨t, ht, hl⟩ := ih hbase
    exact ⟨t, ht, .follow hx' (hat.symm.trans hlink) haim hl⟩
  | @enter links place rest n es e t hx hn hne hrest ih =>
    obtain ⟨es', hx', hat, hat'⟩ := h.looksUp hx hold
    cases hn' : es'.lookup n with
    | none =>
      -- what is new is a file, so the way ends at it
      have hfile := h.files (hat.trans hn') (hat'.trans hn)
      obtain ⟨rfl, f, rfl⟩ | ⟨fs, hfs⟩ := hrest.at_start
      · have hf : d'.root.at? (place ++ [n]) = some f := hrest.at_found
        exact ⟨_, .filled hf, .vacant hx' hn'⟩
      · rw [hat', hn] at hfs
        cases hfs
        exact nomatch hfile
    | some f =>
      have hkept := h.grows.keeps (hat.trans hn')
      rw [hat', hn] at hkept
      have hne' : ∀ target, f ≠ .link target := by
        rintro target rfl
        exact hne target (eq_link_of_shape (Option.some.inj hkept))
      have hold' : d.root.at? (place ++ [n]) ≠ none := by
        rw [hat, hn']
        exact fun h => nomatch h
      obtain ⟨t, ht, hl⟩ := ih hold'
      exact ⟨t, ht, .enter hx' hn' hne' hl⟩

end Fills

namespace TakesFile

/-- A path to a place that takes a file leads to this place when files have been written. -/
theorem fills (h : TakesFile d p place) (hd : Fills d d') : TakesFile d' p place := by
  cases h with
  | file h =>
    obtain ⟨e, hs, hl⟩ := hd.grows.locate_found h
    cases e with
    | file _ => exact .file hl
    | link _ => exact nomatch hs
    | folder _ => exact nomatch hs
  | @vacant dir n h =>
    obtain ⟨t, ht, hl⟩ := hd.grows.locate h
    cases ht with
    | vacant _ => exact .vacant hl
    | @filled _ _ e he =>
      obtain ⟨es, hx, hn⟩ := (locate_eq_ok_iff.1 h).2.at_vacant
      have hs := hd.files ((at_child hx.folder n).trans hn) he
      cases e with
      | file _ => exact .file hl
      | link _ => exact nomatch hs
      | folder _ => exact nomatch hs

/-- A path to a place that takes a file led to this place before files were written. -/
theorem unfills (h : TakesFile d' p place) (hd : Fills d d')
    (hbase : d.root.at? (d.base p) ≠ none) : TakesFile d p place := by
  -- where the path leads now, it led before, to what has become this
  have back {t' : Target} (hl : d'.locate .file p = .ok t') :
      ∃ t, Becomes d' t t' ∧ d.locate .file p = .ok t := by
    obtain ⟨hp, hleads⟩ := locate_eq_ok_iff.1 hl
    rw [base, hd.grows.here] at hleads
    obtain ⟨t, ht, hleads⟩ := hd.leads hleads hbase
    exact ⟨t, ht, locate_eq_ok_iff.2 ⟨hp, hleads⟩⟩
  cases h with
  | file h =>
    obtain ⟨t, ht, hl⟩ := back h
    cases ht with
    | @found _ e _ hs =>
      cases e with
      | file _ => exact .file hl
      | link _ => cases hs
      | folder _ => cases hs
    | filled _ => exact .vacant hl
  | vacant h =>
    obtain ⟨t, ht, hl⟩ := back h
    cases ht with
    | vacant _ => exact .vacant hl

end TakesFile

/-- The second file system is the first one with another content of some files. -/
structure Alike (differs : List String → Prop) (d d' : Disk) : Prop where
  here : d'.here = d.here
  shapes : ∀ q, (d'.root.at? q).map shape = (d.root.at? q).map shape
  same : ∀ q, ¬ differs q → SameAt d d' q

namespace Alike

variable {differs : List String → Prop}

theorem refl (d : Disk) : Alike differs d d := ⟨rfl, fun _ => rfl, fun q _ => .refl d q⟩

theorem grows (h : Alike differs d d') : Grows differs d d' := by
  refine ⟨h.here, fun {q e} he => ?_, fun {q content} he hq => (h.same q hq).file he,
    fun {q t} ht => ?_⟩
  · rw [h.shapes, he]
    rfl
  · have hs := h.shapes q
    rw [ht] at hs
    obtain ⟨e, he, hshape⟩ := Option.map_eq_some_iff.1 hs.symm
    rw [he, eq_link_of_shape hshape]

theorem fills (h : Alike differs d d') : Fills d d' := by
  refine ⟨h.grows.mono fun _ _ => trivial, fun {q e} hq he => ?_⟩
  have hs := h.shapes q
  rw [he, hq] at hs
  exact nomatch hs

/-- File systems that are alike stay so when a file is written to both, whose contents may be
different at places where files may differ. -/
theorem put (h : Alike differs d d') (hp : TakesFile d p place) {content content' : ByteArray}
    (hcontent : content' = content ∨ differs place) :
    Alike differs (d.put place (.file content)) (d'.put place (.file content')) := by
  have hp' := hp.fills h.fills
  refine ⟨h.here, fun q => ?_, fun q hq => ?_⟩
  · by_cases hplace : q = place
    · subst hplace
      rw [hp.at_put, hp'.at_put]
      rfl
    · rw [(hp'.sameAt_put content' hplace).shape, h.shapes, (hp.sameAt_put content hplace).shape]
  · by_cases hplace : q = place
    · subst hplace
      obtain rfl := hcontent.resolve_right hq
      exact .of_eq (by rw [hp.at_put, hp'.at_put])
    · exact ((hp.sameAt_put content hplace).symm.trans (h.same q hq)).trans
        (hp'.sameAt_put content' hplace)

end Alike

end RefSite.Disk
