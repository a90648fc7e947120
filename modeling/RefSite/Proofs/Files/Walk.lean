import RefSite.Files.Disk
import RefSite.Proofs.Files.Place

/-! Where paths lead, as a relation: every rule is one step on the way. A way depends on the shapes
of the entries it passes and on nothing else. -/
namespace RefSite.Disk

open Entry

variable {root : Entry} {aim : Aim} {links : Nat} {place parts q : List String} {t : Target}
  {e : Entry}

/-- A part that names something is looked up in a folder. -/
structure LooksUp (root : Entry) (aim : Aim) (place : List String) (n : String)
    (rest : List String) (es : List (String × Entry)) : Prop where
  folder : root.at? place = some (.folder es)
  notUp : n ≠ ".."
  notHere : ¬ (n = "." ∨ n = "")
  notSlash : ¬ (aim = .file ∧ rest = [""])
  short : ¬ nameLimit < n.utf8ByteSize

/-- Everything in the first tree is in the second, where folders may hold more and files may have
another content. -/
def KeepsShapes (root root' : Entry) : Prop :=
  ∀ place e, root.at? place = some e → (root'.at? place).map shape = some e.shape

namespace KeepsShapes

variable {root' : Entry}

theorem entry (h : KeepsShapes root root') (he : root.at? place = some e) :
    ∃ e', root'.at? place = some e' ∧ e'.shape = e.shape :=
  Option.map_eq_some_iff.1 (h _ _ he)

theorem folder (h : KeepsShapes root root') {es : List (String × Entry)}
    (he : root.at? place = some (.folder es)) : ∃ es', root'.at? place = some (.folder es') := by
  obtain ⟨e', he', hs⟩ := h.entry he
  obtain ⟨es', rfl⟩ := eq_folder_of_shape hs
  exact ⟨es', he'⟩

end KeepsShapes

/-- What is looked up and found is found again. -/
theorem LooksUp.again {root' : Entry} {n : String} {rest : List String} {es : List (String × Entry)}
    (h : LooksUp root aim place n rest es) (hkeeps : KeepsShapes root root')
    (hn : es.lookup n = some e) : ∃ es' e', LooksUp root' aim place n rest es' ∧
      es'.lookup n = some e' ∧ e'.shape = e.shape := by
  obtain ⟨es', hes'⟩ := hkeeps.folder h.folder
  obtain ⟨e', he', hs⟩ := hkeeps.entry ((at_child h.folder n).trans hn)
  rw [at_child hes'] at he'
  exact ⟨es', e', ⟨hes', h.notUp, h.notHere, h.notSlash, h.short⟩, he', hs⟩

/-- Parts lead from a place to a target while at most `links` links are followed. -/
inductive Leads (root : Entry) (aim : Aim) :
    Nat → List String → List String → Target → Prop where
  | done {links : Nat} {place : List String} {e : Entry} (h : root.at? place = some e) :
      Leads root aim links place [] (.found place e)
  | up {links : Nat} {place rest : List String} {es : List (String × Entry)} {t : Target}
      (h : root.at? place = some (.folder es))
      (hrest : Leads root aim links place.dropLast rest t) :
      Leads root aim links place (".." :: rest) t
  | stay {links : Nat} {place rest : List String} {n : String} {es : List (String × Entry)}
      {t : Target} (h : root.at? place = some (.folder es)) (hn : n = "." ∨ n = "")
      (hrest : Leads root aim links place rest t) :
      Leads root aim links place (n :: rest) t
  | vacant {links : Nat} {place : List String} {n : String} {es : List (String × Entry)}
      (h : LooksUp root aim place n [] es) (hn : es.lookup n = none) :
      Leads root aim links place [n] (.vacant place n)
  | link {links : Nat} {place : List String} {n : String} {es : List (String × Entry)}
      {target : String} (h : LooksUp root aim place n [] es)
      (hn : es.lookup n = some (.link target)) (haim : aim = .name) :
      Leads root aim links place [n] (.found (place ++ [n]) (.link target))
  | follow {links : Nat} {place rest : List String} {n : String} {es : List (String × Entry)}
      {target : String} {t : Target} (h : LooksUp root aim place n rest es)
      (hn : es.lookup n = some (.link target)) (haim : ¬ (rest = [] ∧ aim = .name))
      (hrest : Leads root aim links (linkBase place target) (linkParts target ++ rest) t) :
      Leads root aim (links + 1) place (n :: rest) t
  | enter {links : Nat} {place rest : List String} {n : String} {es : List (String × Entry)}
      {e : Entry} {t : Target} (h : LooksUp root aim place n rest es)
      (hn : es.lookup n = some e) (he : ∀ target, e ≠ .link target)
      (hrest : Leads root aim links (place ++ [n]) rest t) :
      Leads root aim links place (n :: rest) t

theorem Leads.of_walkParts {follow : List String → List String → Except FileFault Target}
    (hfollow : ∀ place parts, follow place parts = .ok t →
      ∃ k, links = k + 1 ∧ Leads root aim k place parts t)
    (h : walkParts root aim follow place parts = .ok t) : Leads root aim links place parts t := by
  fun_induction walkParts root aim follow place parts with
  | case1 place e he =>
    cases h
    exact .done he
  | case3 place rest es he ih => exact .up he (ih h)
  | case4 place n rest es he _ hn ih => exact .stay he hn (ih h)
  | case7 place n rest es he hup hhere hslash hshort hn hrest =>
    cases h
    obtain rfl := List.isEmpty_iff.1 hrest
    exact .vacant ⟨he, hup, hhere, hslash, hshort⟩ hn
  | case9 place n rest es he hup hhere hslash hshort target hn hlast =>
    cases h
    obtain ⟨hrest, haim⟩ := Bool.and_eq_true_iff.1 hlast
    obtain rfl := List.isEmpty_iff.1 hrest
    exact .link ⟨he, hup, hhere, hslash, hshort⟩ hn (of_decide_eq_true haim)
  | case10 place n rest es he hup hhere hslash hshort target hn hlast =>
    obtain ⟨k, rfl, hk⟩ := hfollow _ _ h
    refine .follow ⟨he, hup, hhere, hslash, hshort⟩ hn ?_ hk
    rintro ⟨rfl, rfl⟩
    exact hlast rfl
  | case11 place n rest es he hup hhere hslash hshort e hne hn ih =>
    exact .enter ⟨he, hup, hhere, hslash, hshort⟩ hn hne (ih h)
  | _ => exact nomatch h

theorem Leads.of_walk (h : walk root aim links place parts = .ok t) :
    Leads root aim links place parts t := by
  -- each link that is followed leaves one less to follow
  induction links generalizing place parts with
  | zero =>
    rw [walk] at h
    refine Leads.of_walkParts ?_ h
    intro place parts h
    exact nomatch h
  | succ links ih =>
    rw [walk] at h
    exact .of_walkParts (fun _ _ h => ⟨links, rfl, ih h⟩) h

theorem walk_up {rest : List String} {es : List (String × Entry)}
    (h : root.at? place = some (.folder es)) :
    walk root aim links place (".." :: rest) = walk root aim links place.dropLast rest := by
  cases links <;> simp [walk, walkParts, h]

theorem walk_stay {n : String} {rest : List String} {es : List (String × Entry)}
    (h : root.at? place = some (.folder es)) (hn : n = "." ∨ n = "") :
    walk root aim links place (n :: rest) = walk root aim links place rest := by
  have hup : n ≠ ".." := by obtain rfl | rfl := hn <;> decide
  cases links <;> simp [walk, walkParts, h, hup, hn]

theorem walk_missing {n : String} {es : List (String × Entry)}
    (h : LooksUp root aim place n [] es) (hn : es.lookup n = none) :
    walk root aim links place [n] = .ok (.vacant place n) := by
  cases links <;> simp [walk, walkParts, h.folder, h.notUp, h.notHere, h.short, hn]

theorem walk_link {n target : String} {es : List (String × Entry)}
    (h : LooksUp root .name place n [] es) (hn : es.lookup n = some (.link target)) :
    walk root .name links place [n] = .ok (.found (place ++ [n]) (.link target)) := by
  cases links <;> simp [walk, walkParts, h.folder, h.notUp, h.notHere, h.short, hn]

theorem walk_follow {n target : String} {rest : List String} {es : List (String × Entry)}
    (h : LooksUp root aim place n rest es) (hn : es.lookup n = some (.link target))
    (haim : ¬ (rest = [] ∧ aim = .name)) :
    walk root aim (links + 1) place (n :: rest) =
      walk root aim links (linkBase place target) (linkParts target ++ rest) := by
  simp [walk, walkParts, h.folder, h.notUp, h.notHere, h.notSlash, h.short, hn, haim]

theorem walk_enter {n : String} {rest : List String} {es : List (String × Entry)}
    (h : LooksUp root aim place n rest es) (hn : es.lookup n = some e)
    (he : ∀ target, e ≠ .link target) :
    walk root aim links place (n :: rest) = walk root aim links (place ++ [n]) rest := by
  cases links <;> simp only [walk, walkParts, h.folder, if_neg h.notUp, if_neg h.notHere,
    if_neg h.notSlash, if_neg h.short, hn]

theorem walk_done (h : root.at? place = some e) :
    walk root aim links place [] = .ok (.found place e) := by
  cases links <;> simp [walk, walkParts, h]

theorem Leads.walk (h : Leads root aim links place parts t) :
    Disk.walk root aim links place parts = .ok t := by
  induction h with
  | done h => rw [walk_done h]
  | up h _ ih => rw [walk_up h, ih]
  | stay h hn _ ih => rw [walk_stay h hn, ih]
  | vacant h hn => rw [walk_missing h hn]
  | link h hn haim =>
    subst haim
    rw [walk_link h hn]
  | follow h hn haim _ ih => rw [walk_follow h hn haim, ih]
  | enter h hn he _ ih => rw [walk_enter h hn he, ih]

theorem leads_iff : Leads root aim links place parts t ↔ walk root aim links place parts = .ok t :=
  ⟨Leads.walk, Leads.of_walk⟩

namespace Leads

/-- What is found stands at its place. -/
theorem at_found (h : Leads root aim links place parts (.found q e)) : root.at? q = some e := by
  generalize ht : Target.found q e = t at h
  induction h with
  | done h => cases ht; exact h
  | up _ _ ih => exact ih ht
  | stay _ _ _ ih => exact ih ht
  | vacant _ _ => exact nomatch ht
  | link h hn _ => cases ht; rw [at_child h.folder, hn]
  | follow _ _ _ _ ih => exact ih ht
  | enter _ _ _ _ ih => exact ih ht

/-- Where something is missing there is a folder without it. -/
theorem at_vacant {n : String} (h : Leads root aim links place parts (.vacant q n)) :
    ∃ es, LooksUp root aim q n [] es ∧ es.lookup n = none := by
  generalize ht : Target.vacant q n = t at h
  induction h with
  | done _ => exact nomatch ht
  | up _ _ ih => exact ih ht
  | stay _ _ _ ih => exact ih ht
  | vacant h hn => cases ht; exact ⟨_, h, hn⟩
  | link _ _ _ => exact nomatch ht
  | follow _ _ _ _ ih => exact ih ht
  | enter _ _ _ _ ih => exact ih ht

/-- A way that leads somewhere starts where something is, and from a folder if it has parts. -/
theorem at_start (h : Leads root aim links place parts t) :
    (parts = [] ∧ ∃ e, t = .found place e) ∨ ∃ es, root.at? place = some (.folder es) := by
  cases h with
  | done h => exact .inl ⟨rfl, _, rfl⟩
  | up h _ => exact .inr ⟨_, h⟩
  | stay h _ _ => exact .inr ⟨_, h⟩
  | vacant h _ => exact .inr ⟨_, h.folder⟩
  | link h _ _ => exact .inr ⟨_, h.folder⟩
  | follow h _ _ _ => exact .inr ⟨_, h.folder⟩
  | enter h _ _ _ => exact .inr ⟨_, h.folder⟩

/-- The way stays among folders, so it finds no link unless that is what is sought. -/
theorem ne_link (h : Leads root aim links place parts (.found q e)) (haim : aim ≠ .name)
    (hstart : ∀ target, root.at? place ≠ some (.link target)) :
    ∀ target, e ≠ .link target := by
  -- no link stands above a folder, so double dots and links lead to no link
  have notLink {place : List String} (rest : List String) {es : List (String × Entry)}
      (h : root.at? (place ++ rest) = some (.folder es)) (target : String) :
      root.at? place ≠ some (.link target) := by
    obtain ⟨ds, hds⟩ := folder_above h
    rw [hds]
    exact fun h => nomatch h
  generalize ht : Target.found q e = t at h
  induction h with
  | done h =>
    cases ht
    rintro target rfl
    exact hstart target h
  | @up links place rest es t h _ ih =>
    refine ih ?_ ht
    intro target
    by_cases hne : place = []
    · subst hne
      exact notLink [] (by simpa using h) target
    · rw [← List.dropLast_concat_getLast hne] at h
      exact notLink _ h target
  | stay _ _ _ ih => exact ih hstart ht
  | vacant _ _ => exact nomatch ht
  | link _ _ hname => exact absurd hname haim
  | @follow links place rest n es link t h _ _ _ ih =>
    refine ih ?_ ht
    intro target
    unfold linkBase
    split
    · exact notLink place (by simpa using h.folder) target
    · exact notLink [] (by simpa using h.folder) target
  | enter h hn hne _ ih =>
    refine ih ?_ ht
    intro target htarget
    rw [at_child h.folder, hn] at htarget
    exact hne target (Option.some.inj htarget)

/-- What has been found is where the rest of a way goes on from. -/
theorem walk_append (h : Leads root .entry links place parts (.found q e)) {rest : List String}
    (hrest : rest ≠ []) (hslash : rest ≠ [""]) (aim : Aim) :
    ∃ k, Disk.walk root aim links place (parts ++ rest) = Disk.walk root aim k q rest := by
  -- a name is looked up the same with more behind it, as this is not just a slash
  have looksUp {place : List String} {n : String} {parts : List String}
      {es : List (String × Entry)} (h : LooksUp root .entry place n parts es) :
      LooksUp root aim place n (parts ++ rest) es := by
    refine ⟨h.folder, h.notUp, h.notHere, ?_, h.short⟩
    rintro ⟨-, hlast⟩
    obtain ⟨-, h⟩ | ⟨-, h⟩ := List.append_eq_singleton_iff.1 hlast
    · exact hslash h
    · exact hrest h
  generalize ht : Target.found q e = t at h
  induction h with
  | @done links _ _ _ =>
    cases ht
    exact ⟨links, rfl⟩
  | up h _ ih =>
    obtain ⟨k, hk⟩ := ih ht
    exact ⟨k, (walk_up h).trans hk⟩
  | stay h hn _ ih =>
    obtain ⟨k, hk⟩ := ih ht
    exact ⟨k, (walk_stay h hn).trans hk⟩
  | vacant _ _ => exact nomatch ht
  | link _ _ haim => exact nomatch haim
  | @follow _ _ parts _ _ _ _ h hn _ _ ih =>
    obtain ⟨k, hk⟩ := ih ht
    have hlast : ¬ (parts ++ rest = [] ∧ aim = .name) := by
      rintro ⟨hnil, -⟩
      exact hrest (List.append_eq_nil_iff.1 hnil).2
    refine ⟨k, (walk_follow (looksUp h) hn hlast).trans ?_⟩
    rw [← hk, List.append_assoc]
  | enter h hn he _ ih =>
    obtain ⟨k, hk⟩ := ih ht
    exact ⟨k, (walk_enter (looksUp h) hn he).trans hk⟩

/-- What is found for any purpose is where the way leads, if it is no link. -/
theorem entry (h : Leads root aim links place parts (.found q e)) (he : ∀ target, e ≠ .link target) :
    Leads root .entry links place parts (.found q e) := by
  have looksUp {place : List String} {n : String} {parts : List String}
      {es : List (String × Entry)} (h : LooksUp root aim place n parts es) :
      LooksUp root .entry place n parts es :=
    ⟨h.folder, h.notUp, h.notHere, (fun hf => nomatch hf.1), h.short⟩
  generalize ht : Target.found q e = t at h ⊢
  induction h with
  | done h => exact .done h
  | up h _ ih => exact .up h (ih ht)
  | stay h hn _ ih => exact .stay h hn (ih ht)
  | vacant _ _ => exact nomatch ht
  | @link _ _ _ _ target _ _ _ =>
    cases ht
    exact absurd rfl (he target)
  | follow h hn _ _ ih => exact .follow (looksUp h) hn (fun hl => nomatch hl.2) (ih ht)
  | enter h hn hne _ ih => exact .enter (looksUp h) hn hne (ih ht)

/-- Everything on the way to something is something itself. -/
theorem prefix_found {xs ys : List String}
    (h : Leads root .entry links place (xs ++ ys) (.found q e)) :
    ∃ q' e', Leads root .entry links place xs (.found q' e') := by
  have start {links : Nat} {place : List String} {es : List (String × Entry)}
      (h : root.at? place = some (.folder es)) :
      ∃ q' e', Leads root .entry links place [] (.found q' e') := ⟨_, _, .done h⟩
  have looksUp {place : List String} {n : String} {xs : List String} {es : List (String × Entry)}
      (h : LooksUp root .entry place n (xs ++ ys) es) : LooksUp root .entry place n xs es :=
    ⟨h.folder, h.notUp, h.notHere, (fun hf => nomatch hf.1), h.short⟩
  -- the shorter way takes the same steps until its parts are used up
  generalize ht : Target.found q e = t at h
  generalize hparts : xs ++ ys = parts at h
  induction h generalizing xs with
  | done h =>
    obtain ⟨rfl, -⟩ := List.append_eq_nil_iff.1 hparts
    exact ⟨_, _, .done h⟩
  | up h _ ih =>
    cases xs with
    | nil => exact start h
    | cons x xs =>
      obtain ⟨rfl, hrest⟩ := List.cons.inj hparts
      obtain ⟨q', e', hl⟩ := ih ht hrest
      exact ⟨q', e', .up h hl⟩
  | stay h hn _ ih =>
    cases xs with
    | nil => exact start h
    | cons x xs =>
      obtain ⟨rfl, hrest⟩ := List.cons.inj hparts
      obtain ⟨q', e', hl⟩ := ih ht hrest
      exact ⟨q', e', .stay h hn hl⟩
  | vacant _ _ => exact nomatch ht
  | link _ _ haim => exact nomatch haim
  | @follow _ _ _ _ _ target _ h hn _ _ ih =>
    cases xs with
    | nil => exact start h.folder
    | cons x xs =>
      obtain ⟨rfl, rfl⟩ := List.cons.inj hparts
      obtain ⟨q', e', hl⟩ := ih ht (List.append_assoc (linkParts target) xs ys)
      exact ⟨q', e', .follow (looksUp h) hn (fun hl => nomatch hl.2) hl⟩
  | enter h hn he _ ih =>
    cases xs with
    | nil => exact start h.folder
    | cons x xs =>
      obtain ⟨rfl, rfl⟩ := List.cons.inj hparts
      obtain ⟨q', e', hl⟩ := ih ht rfl
      exact ⟨q', e', .enter (looksUp h) hn he hl⟩

/-- Where everything is kept that is there, what was found is found again. -/
theorem found_again {root' : Entry} (hkeeps : KeepsShapes root root')
    (h : Leads root aim links place parts (.found q e)) :
    ∃ e', e'.shape = e.shape ∧ Leads root' aim links place parts (.found q e') := by
  -- the way takes the same steps: links are still links to the same, and folders are still there
  generalize ht : Target.found q e = t at h
  induction h with
  | done h =>
    cases ht
    obtain ⟨e', he', hs⟩ := hkeeps.entry h
    exact ⟨e', hs, .done he'⟩
  | up h _ ih =>
    obtain ⟨e', hs, hl⟩ := ih ht
    obtain ⟨es', hes'⟩ := hkeeps.folder h
    exact ⟨e', hs, .up hes' hl⟩
  | stay h hn _ ih =>
    obtain ⟨e', hs, hl⟩ := ih ht
    obtain ⟨es', hes'⟩ := hkeeps.folder h
    exact ⟨e', hs, .stay hes' hn hl⟩
  | vacant _ _ => exact nomatch ht
  | link h hn haim =>
    cases ht
    obtain ⟨es', e', h', hn', hs⟩ := h.again hkeeps hn
    obtain rfl := eq_link_of_shape hs
    exact ⟨_, rfl, .link h' hn' haim⟩
  | follow h hn haim _ ih =>
    obtain ⟨e', hs, hl⟩ := ih ht
    obtain ⟨es', x', h', hn', hx⟩ := h.again hkeeps hn
    obtain rfl := eq_link_of_shape hx
    exact ⟨e', hs, .follow h' hn' haim hl⟩
  | enter h hn hne _ ih =>
    obtain ⟨e', hs, hl⟩ := ih ht
    obtain ⟨es', x', h', hn', hx⟩ := h.again hkeeps hn
    have hne' : ∀ target, x' ≠ .link target := by
      rintro target rfl
      exact hne target (eq_link_of_shape hx.symm)
    exact ⟨e', hs, .enter h' hn' hne' hl⟩

end Leads

end RefSite.Disk
