import RefSite.Item.Name

namespace RefSite.Place

variable {p : Place} {package : Declaration} {above below : List Declaration}

/-- The item is the package below the given levels, or it stands under an entry point of it. Between
the entry point and the item there are only levels that show in names; the last list has these, down
to the item. -/
inductive LiesIn (above : List Declaration) (package : Declaration) :
    List Declaration → Place → Prop where
  | itself {p : Place} (hpackage : package.is .package = true)
      (hlevels : p.levels = above ++ [package]) : LiesIn above package [] p
  | below {p : Place} {below : List Declaration} {entryPoint : Declaration}
      (hpackage : package.is .package = true)
      (hlevels : p.levels = above ++ package :: entryPoint :: below)
      (hentry : entryPoint.is .entryPoint = true)
      (hbelow : ∀ d ∈ below, d.isContainer = false) : LiesIn above package below p

theorem foldl_extendStem (h : ∀ d ∈ below, d.isContainer = false) (s : String) :
    below.foldl extendStem s = ".".intercalate (s :: below.map segment) := by
  induction below generalizing s with
  | nil => simp
  | cons d ds ih =>
    obtain ⟨hd, hds⟩ := List.forall_mem_cons.1 h
    rw [List.foldl_cons, extendStem_shown hd, ih hds, List.map_cons,
      String.intercalate_cons_cons, String.intercalate_cons_append]

/-- The last level is that of the item. -/
theorem self_mem_of_levels (above : List Declaration) {ds : List Declaration}
    (h : p.levels = above ++ ds) (hne : ds ≠ []) : p.self ∈ ds := by
  have hlast := congrArg List.getLast? h
  rw [levels, List.getLast?_concat, List.getLast?_append, List.getLast?_eq_some_getLast hne,
    Option.some_or] at hlast
  rw [Option.some.inj hlast]
  exact List.getLast_mem hne

theorem fileName_of_not_model (h : p.self.is .model = false) :
    p.fileName = stem p.levels ++ pageEnding := by
  rw [fileName, h, if_neg (by decide)]

namespace LiesIn

/-- The item is the package, an entry point, or an item that shows in names. -/
theorem self_cases (h : p.LiesIn above package below) :
    (p.self.is .package = true ∧ below = []) ∨ p.self.is .entryPoint = true ∨
      p.self.isContainer = false := by
  cases h with
  | itself hpackage hlevels =>
    obtain rfl := List.mem_singleton.1 (self_mem_of_levels _ hlevels (by simp))
    exact .inl ⟨hpackage, rfl⟩
  | @below _ below entryPoint _ hlevels hentry hbelow =>
    have hmem : p.self ∈ entryPoint :: below :=
      self_mem_of_levels (above ++ [package]) (by simpa using hlevels) (by simp)
    obtain he | hmem := List.mem_cons.1 hmem
    · exact .inr (.inl (he ▸ hentry))
    · exact .inr (.inr (hbelow _ hmem))

theorem self_not_model (h : p.LiesIn above package below) : p.self.is .model = false := by
  obtain ⟨hpackage, -⟩ | hentry | hshown := h.self_cases
  · exact Declaration.is_eq_false_of_is hpackage (by decide)
  · exact Declaration.is_eq_false_of_is hentry (by decide)
  · exact Declaration.is_eq_false_of_shown hshown rfl

/-- The file of an item is named after the package and the levels below the entry point. -/
theorem fileName_eq (h : p.LiesIn above package below) : p.fileName =
    ".".intercalate (safeName (unscopedName package.name) :: below.map segment) ++ pageEnding := by
  rw [fileName_of_not_model h.self_not_model]
  congr 1
  cases h with
  | itself hpackage hlevels =>
    rw [hlevels, stem_append, List.foldl_cons, List.foldl_nil, extendStem_package hpackage]
    simp
  | below hpackage hlevels hentry hbelow =>
    rw [hlevels, stem_append, List.foldl_cons, List.foldl_cons, extendStem_package hpackage,
      extendStem_entryPoint hentry, foldl_extendStem hbelow]

end LiesIn

end RefSite.Place
