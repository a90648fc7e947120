import RefSite.Files.Entry

namespace RefSite.Entry

/-- What an entry is, whatever it holds. -/
inductive Shape where
  | file
  | link (target : String)
  | folder
  deriving DecidableEq, Repr

def shape : Entry → Shape
  | file _ => .file
  | link t => .link t
  | folder _ => .folder

variable {root new : Entry} {dir p : List String} {n : String} {es : List (String × Entry)}

theorem eq_link_of_shape {e : Entry} {t : String} (h : e.shape = .link t) : e = link t := by
  cases e with
  | link u => cases h; rfl
  | file _ => exact nomatch h
  | folder _ => exact nomatch h

theorem eq_folder_of_shape {e : Entry} (h : e.shape = .folder) : ∃ es, e = folder es := by
  cases e with
  | folder es => exact ⟨es, rfl⟩
  | file _ => exact nomatch h
  | link _ => exact nomatch h

theorem at_cons_folder (es : List (String × Entry)) (n : String) (ns : List String) :
    (folder es).at? (n :: ns) = (es.lookup n).bind fun e => e.at? ns := by rw [at?]

/-- Only a folder has something below it. -/
theorem at_cons_of_shape_ne {e : Entry} (h : e.shape ≠ .folder) (x : String) (xs : List String) :
    e.at? (x :: xs) = none := by
  cases e with
  | folder _ => exact absurd rfl h
  | file _ => rfl
  | link _ => rfl

theorem at_append (e : Entry) (xs ys : List String) :
    e.at? (xs ++ ys) = (e.at? xs).bind fun f => f.at? ys := by
  induction xs generalizing e with
  | nil => rw [List.nil_append, at_nil, Option.bind_some]
  | cons x xs ih =>
    cases e with
    | folder es =>
      rw [List.cons_append, at_cons_folder, at_cons_folder, Option.bind_assoc]
      simp only [ih]
    | file _ => rfl
    | link _ => rfl

theorem at_child (h : root.at? dir = some (folder es)) (n : String) :
    root.at? (dir ++ [n]) = es.lookup n := by
  rw [at_append, h, Option.bind_some, at_cons_folder]
  cases es.lookup n with
  | none => rfl
  | some e => exact at_nil e

/-- Only folders stand on the way to an entry. -/
theorem folder_of_at_append {e : Entry} {x : String} {xs : List String}
    (h : root.at? (dir ++ x :: xs) = some e) : ∃ es, root.at? dir = some (folder es) := by
  rw [at_append] at h
  obtain ⟨f, hf, hx⟩ := Option.bind_eq_some_iff.1 h
  cases f with
  | folder es => exact ⟨es, hf⟩
  | file _ => exact nomatch hx
  | link _ => exact nomatch hx

/-- Above a folder there are folders only. -/
theorem folder_above {rest : List String} (h : root.at? (dir ++ rest) = some (folder es)) :
    ∃ ds, root.at? dir = some (folder ds) := by
  cases rest with
  | nil =>
    rw [List.append_nil] at h
    exact ⟨es, h⟩
  | cons x xs => exact folder_of_at_append h

theorem put_single (new : Entry) (n : String) (es : List (String × Entry)) :
    put new [n] (folder es) = folder (setName n new es) := by rw [put]

theorem put_cons {e : Entry} {d : String} (h : es.lookup d = some e) (new : Entry)
    (ns : List String) (n : String) :
    put new (d :: (ns ++ [n])) (folder es) = folder (setName d (put new (ns ++ [n]) e) es) := by
  cases ns <;> simp [put, h]

theorem at_cons_eq_folder {d : String} {ds : List String}
    (h : root.at? (d :: ds) = some (folder es)) :
    ∃ rs e, root = folder rs ∧ rs.lookup d = some e ∧ e.at? ds = some (folder es) := by
  cases root with
  | folder rs =>
    rw [at_cons_folder] at h
    obtain ⟨e, he, hds⟩ := Option.bind_eq_some_iff.1 h
    exact ⟨rs, e, rfl, he, hds⟩
  | file _ => exact nomatch h
  | link _ => exact nomatch h

/-- At and below the place there is what was put there. -/
theorem at_put_self (h : root.at? dir = some (folder es)) (new : Entry) (n : String)
    (rest : List String) :
    (put new (dir ++ [n]) root).at? (dir ++ [n] ++ rest) = new.at? rest := by
  induction dir generalizing root with
  | nil =>
    rw [at_nil] at h
    cases h
    rw [List.nil_append, put_single, List.singleton_append, at_cons_folder, lookup_setName_self,
      Option.bind_some]
  | cons d ds ih =>
    obtain ⟨rs, e, rfl, he, hds⟩ := at_cons_eq_folder h
    rw [List.cons_append, List.cons_append, put_cons he, at_cons_folder, lookup_setName_self,
      Option.bind_some]
    exact ih hds

theorem at_put_place (h : root.at? dir = some (folder es)) (new : Entry) (n : String) :
    (put new (dir ++ [n]) root).at? (dir ++ [n]) = some new := by
  have hput := at_put_self h new n []
  rwa [List.append_nil, at_nil] at hput

/-- What is put in the place of something is there. -/
theorem at_put_of_at {place : List String} {old : Entry} (h : root.at? place = some old)
    (new : Entry) : (put new place root).at? place = some new := by
  by_cases hne : place = []
  · subst hne
    rw [at_nil, put]
  · rw [← List.dropLast_concat_getLast hne] at h ⊢
    obtain ⟨es, hes⟩ := folder_of_at_append h
    exact at_put_place hes new _

theorem at_put_folder (h : root.at? dir = some (folder es)) (new : Entry) (n : String) :
    (put new (dir ++ [n]) root).at? dir = some (folder (setName n new es)) := by
  induction dir generalizing root with
  | nil =>
    rw [at_nil] at h
    cases h
    rw [List.nil_append, put_single, at_nil]
  | cons d ds ih =>
    obtain ⟨rs, e, rfl, he, hds⟩ := at_cons_eq_folder h
    rw [List.cons_append, put_cons he, at_cons_folder, lookup_setName_self, Option.bind_some]
    exact ih hds

/-- Elsewhere there is what was there before. -/
theorem at_put_elsewhere (h : root.at? dir = some (folder es)) (new : Entry)
    (hbelow : ¬ dir ++ [n] <+: p) (habove : ¬ p <+: dir) :
    (put new (dir ++ [n]) root).at? p = root.at? p := by
  induction dir generalizing root p with
  | nil =>
    cases p with
    | nil => exact absurd List.nil_prefix habove
    | cons m ms =>
      rw [at_nil] at h
      cases h
      have hne : m ≠ n := by
        rintro rfl
        exact hbelow (by simp)
      rw [List.nil_append, put_single, at_cons_folder, at_cons_folder, lookup_setName_of_ne hne]
  | cons d ds ih =>
    cases p with
    | nil => exact absurd List.nil_prefix habove
    | cons m ms =>
      obtain ⟨rs, e, rfl, he, hds⟩ := at_cons_eq_folder h
      rw [List.cons_append, put_cons he, at_cons_folder, at_cons_folder]
      -- the path follows the changed folders for as long as it has their names
      by_cases hm : m = d
      · subst hm
        rw [lookup_setName_self, he, Option.bind_some, Option.bind_some]
        apply ih hds
        · intro hpre
          exact hbelow (by simpa using hpre)
        · intro hpre
          exact habove (by simpa using hpre)
      · rw [lookup_setName_of_ne hm]

end RefSite.Entry
