import RefSite.Proofs.Files.Address
import RefSite.Proofs.Item.FileNames
import RefSite.Proofs.Site.Replacement

namespace RefSite

/-- A letter or digit of ASCII, an underscore, a dot or a dash. -/
def IsFileChar (c : Char) : Prop :=
  ('A' ≤ c ∧ c ≤ 'Z') ∨ ('a' ≤ c ∧ c ≤ 'z') ∨ ('0' ≤ c ∧ c ≤ '9') ∨ c = '_' ∨ c = '.' ∨ c = '-'

instance (c : Char) : Decidable (IsFileChar c) :=
  inferInstanceAs (Decidable (_ ∨ _ ∨ _ ∨ _ ∨ _ ∨ _))

theorem isSafeChar_iff (c : Char) : isSafeChar c = true ↔ IsFileChar c := by
  have hle (a b : Char) : a ≤ b ↔ a.val ≤ b.val := Iff.rfl
  simp only [isSafeChar, IsFileChar, Char.isAlphanum, Char.isAlpha, Char.isUpper, Char.isLower,
    Char.isDigit, Bool.or_eq_true, Bool.and_eq_true, decide_eq_true_eq, hle, or_assoc, ge_iff_le]

/-- All characters of the text may stand in file names. -/
def IsFileText (s : String) : Prop := ∀ c ∈ s.toList, IsFileChar c

instance (s : String) : Decidable (IsFileText s) :=
  decidable_of_iff (s.toList.all (fun c => decide (IsFileChar c)) = true) (by simp [IsFileText])

namespace IsFileText

variable {s t : String}

theorem append (hs : IsFileText s) (ht : IsFileText t) : IsFileText (s ++ t) := by
  intro c hc
  rw [String.toList_append, List.mem_append] at hc
  rcases hc with hc | hc
  · exact hs c hc
  · exact ht c hc

theorem safeName (s : String) : IsFileText (safeName s) := by
  intro c hc
  rw [RefSite.safeName, String.toList_ofList, List.mem_map] at hc
  obtain ⟨c, -, rfl⟩ := hc
  split
  · next h => exact (isSafeChar_iff c).1 h
  · decide

theorem safeName_eq (h : IsFileText s) : RefSite.safeName s = s :=
  safeName_eq_self fun c hc => (isSafeChar_iff c).2 (h c hc)

theorem notMem (h : IsFileText s) {c : Char} (hc : ¬ IsFileChar c) : c ∉ s.toList :=
  fun hmem => hc (h c hmem)

end IsFileText

namespace Path

theorem startOf_of_notMem {cs : List Char} (h : '/' ∉ cs) : startOf cs = .relative := by
  unfold startOf
  split <;> simp_all

/-- A name without a slash in it is a path of one part. -/
theorem ofText_of_notMem {name : String} (h : '/' ∉ name.toList) (hempty : name ≠ "")
    (hdot : name ≠ ".") : ofText name = ⟨.relative, [name]⟩ := by
  have hkept : (!name.toList.isEmpty && name.toList != ['.']) = true := by
    have hdot' : name.toList ≠ ['.'] := fun hname => hdot (String.toList_inj.1 hname)
    simpa using ⟨hempty, hdot'⟩
  have hfilter : [name.toList].filter (fun p => !p.isEmpty && p != ['.']) = [name.toList] :=
    List.filter_cons_of_pos hkept
  rw [ofText, startOf_of_notMem h, partsOf, splitAt_of_notMem h, hfilter, List.map_singleton,
    String.ofList_toList]

end Path

namespace Place

open Disk

/-- A level in a file name, if the number of an overload can be written. -/
def segment? (d : Declaration) : Option String :=
  if d.isFunctionLike && decide (1 < d.overload) then
    (Text.ofInt? (d.overload - 1)).map fun n => safeName d.name ++ ("_" ++ n)
  else some (safeName d.name)

def extendStem? (stem : String) (d : Declaration) : Option String :=
  if d.is .model || d.is .entryPoint then some stem
  else if d.is .package then some (safeName (unscopedName d.name))
  else (segment? d).map fun s => stem ++ "." ++ s

/-- The file name of an item, if there is one. -/
def fileName? (p : Place) : Option String :=
  if p.self.is .model then some indexFile
  else (p.levels.foldlM extendStem? "").map (· ++ pageEnding)

/-- An overload whose number has too many digits, one less than it included. -/
def IsFarOverload (d : Declaration) : Prop :=
  d.isFunctionLike = true ∧ ((Nat.pow 10 Text.digitLimit : Nat) : Int) < d.overload

theorem hasWritableOverload_iff (d : Declaration) :
    hasWritableOverload d = true ↔ ¬ IsFarOverload d := by
  have hpositive (n : Nat) : 0 < Nat.pow 10 n := Nat.pow_pos (by decide)
  have hlimit := hpositive Text.digitLimit
  unfold hasWritableOverload IsFarOverload Text.ofInt?
  generalize Nat.pow 10 Text.digitLimit = limit at hlimit ⊢
  cases d.isFunctionLike with
  | false => simp
  | true =>
    simp only [Bool.not_true, Bool.false_or, Bool.or_eq_true, decide_eq_true_eq, Option.isSome_ite,
      true_and]
    omega

/-- What is function-like shows in names. -/
theorem not_container_of_isFunctionLike {d : Declaration} (h : d.isFunctionLike = true) :
    d.isContainer = false := by
  unfold Declaration.isFunctionLike at h
  unfold Declaration.isContainer
  cases hk : d.kind.kind? with
  | none => rfl
  | some k =>
    rw [hk, Option.any_some] at h
    rw [Option.any_some]
    revert h
    cases k <;> decide

theorem segment?_eq (d : Declaration) :
    segment? d = if hasWritableOverload d then some (segment d) else none := by
  rw [segment?, hasWritableOverload, segment, overloadSuffix, Text.ofInt?]
  generalize Nat.pow 10 Text.digitLimit = limit
  cases d.isFunctionLike with
  | false => simp
  | true =>
    by_cases hfirst : d.overload ≤ 1
    · simp [hfirst, not_lt.2 hfirst]
    · simp only [Bool.true_and, not_le.1 hfirst, decide_true, if_true, Bool.not_true, Bool.false_or,
        hfirst, decide_false, Option.isSome_ite]
      split <;> rfl

theorem extendStem?_eq (s : String) (d : Declaration) :
    extendStem? s d = if hasWritableOverload d then some (extendStem s d) else none := by
  rw [extendStem?, extendStem, segment?_eq]
  cases hwritable : hasWritableOverload d with
  | true =>
    split
    · rfl
    · split <;> rfl
  | false =>
    have hfunction : d.isFunctionLike = true := by
      cases h : d.isFunctionLike with
      | true => rfl
      | false =>
        rw [hasWritableOverload, h] at hwritable
        exact absurd hwritable.symm Bool.false_ne_true
    have hkinds {k : Kind} (hk : k.isContainer = true) : d.is k = false :=
      Declaration.is_eq_false_of_shown (not_container_of_isFunctionLike hfunction) hk
    rw [hkinds rfl, hkinds rfl, hkinds rfl]
    rfl

theorem foldlM_extendStem? (ds : List Declaration) (s : String) :
    ds.foldlM extendStem? s =
      if ds.all hasWritableOverload then some (ds.foldl extendStem s) else none := by
  induction ds generalizing s with
  | nil => rfl
  | cons d ds ih =>
    rw [List.foldlM_cons, extendStem?_eq, List.all_cons, List.foldl_cons]
    cases hasWritableOverload d with
    | false => rfl
    | true =>
      rw [if_pos rfl, Bool.true_and]
      exact ih _

/-- The steps put together the file name if every number on the way can be written. -/
theorem fileName?_eq (p : Place) :
    p.fileName? = if p.isNameable then some p.fileName else none := by
  rw [fileName?, fileName, isNameable, foldlM_extendStem?, stem]
  cases p.self.is .model with
  | true => rfl
  | false =>
    rw [Bool.false_or]
    cases p.levels.all hasWritableOverload <;> rfl

/-- An item has no file name exactly if it is no model and an overload on the way to it has a number
with too many digits. -/
theorem isNameable_iff (p : Place) : p.isNameable = true ↔
    p.self.is .model = true ∨ ∀ d ∈ p.levels, ¬ IsFarOverload d := by
  simp only [isNameable, Bool.or_eq_true, List.all_eq_true, hasWritableOverload_iff]

theorem isFileText_overloadSuffix (d : Declaration) : IsFileText (overloadSuffix d) := by
  rw [overloadSuffix_eq]
  split
  · next hlater =>
    refine IsFileText.append (by decide +kernel) fun c hc => ?_
    have hdigit : c.isDigit = true := isDigit_of_mem_toString (by omega) hc
    rw [← isSafeChar_iff, isSafeChar, Char.isAlphanum, hdigit]
    simp
  · intro c hc
    exact absurd hc List.not_mem_nil

theorem isFileText_extendStem {s : String} (hs : IsFileText s) (d : Declaration) :
    IsFileText (extendStem s d) := by
  have hsegment : IsFileText (segment d) :=
    (IsFileText.safeName d.name).append (isFileText_overloadSuffix d)
  unfold extendStem
  split
  · exact hs
  · split
    · exact .safeName _
    · exact (hs.append (by decide +kernel)).append hsegment

theorem isFileText_stem (ds : List Declaration) : IsFileText (stem ds) := by
  rw [stem]
  induction ds using List.reverseRecOn with
  | nil => exact fun c hc => absurd hc List.not_mem_nil
  | append_singleton ds d ih =>
    rw [List.foldl_append, List.foldl_cons, List.foldl_nil]
    exact isFileText_extendStem ih d

theorem isFileText_fileName (p : Place) : IsFileText p.fileName := by
  unfold fileName
  split
  · decide +kernel
  · exact (isFileText_stem p.levels).append (by decide +kernel)

theorem isUnreserved_of_isFileChar {c : Char} (h : IsFileChar c) : Address.isUnreserved c = true := by
  rw [← isSafeChar_iff, isSafeChar] at h
  simp only [Bool.or_eq_true, decide_eq_true_eq] at h
  simp only [Address.isUnreserved, Bool.or_eq_true, decide_eq_true_eq]
  tauto

/-- File names have only letters and digits of ASCII, underscores, dots and dashes, and they end like
pages. So a file lies in the output folder itself, the link to it is an address without escapes that
leads to it, and its name is a safe one. There is a name unless an overload on the way to the item has
a number that cannot be written. -/
theorem file_names_are_safe (p : Place) (output : Path) :
    (∀ name, p.fileName? = some name ↔ name = p.fileName ∧
      (p.self.is .model = true ∨ ∀ d ∈ p.levels, ¬ IsFarOverload d)) ∧
    (∀ c ∈ p.fileName.toList, IsFileChar c) ∧ pageEnding.toList <:+ p.fileName.toList ∧
    IsEntryName p.fileName ∧
    output.join (Path.ofText p.fileName) = output.child p.fileName ∧
    Address.encode p.link = p.link ∧
    Address.target? output p.link = some (output.child p.fileName) ∧
    safeName p.fileName = p.fileName := by
  have hchars := isFileText_fileName p
  have hentry := p.isEntryName_fileName
  have hslash : '/' ∉ p.fileName.toList := hchars.notMem (by decide)
  have hnull : '\x00' ∉ p.fileName.toList := hchars.notMem (by decide)
  have hpath : output.join (Path.ofText p.fileName) = output.child p.fileName := by
    rw [Path.ofText_of_notMem hslash hentry.2.2 hentry.2.1]
    rfl
  -- the link is the name after a dot and a slash, which stand for themselves
  have hlink : Address.encode p.link = p.link := by
    apply Address.encode_eq_self
    intro c hc
    rw [link, String.toList_append, List.mem_append] at hc
    rcases hc with hc | hc
    · have hstart : ("./".toList.all fun c => Address.isUnreserved c || c = '/') = true := by
        decide +kernel
      simpa using List.all_eq_true.1 hstart c hc
    · exact .inl (isUnreserved_of_isFileChar (hchars c hc))
  refine ⟨fun name => ?_, hchars, p.ending_fileName, hentry, hpath, hlink, ?_, hchars.safeName_eq⟩
  · rw [fileName?_eq, ← isNameable_iff, Option.ite_none_right_eq_some, Option.some_inj, and_comm,
      eq_comm (a := p.fileName)]
  · calc
      Address.target? output p.link = Address.target? output (Address.encode p.link) := by rw [hlink]
      _ = some (output.child p.fileName) :=
        Address.target_encode ⟨hentry.2.2, hentry.2.1, hentry.1⟩ hslash hnull output

/-- No part of a name gets through that could lead elsewhere. -/
example : (memberPlace { kind := .known .package, name := "@a/../%2e" }
    { kind := .known .classDecl, name := "/etc" }
    { kind := .known .method, name := "\x00#?", overload := 3 }).fileName =
      "..__2e._etc.____2.html" := by
  decide +kernel

/-- A method has no file name if its number has so many digits that it cannot be written. -/
theorem far_overload_has_no_name :
    let turn : Declaration :=
      { kind := .known .method, name := "turn", overload := Int.ofNat (Nat.pow 10 4300) + 1 }
    let p := memberPlace { kind := .known .package, name := "kit" }
      { kind := .known .classDecl, name := "Dial" } turn
    p.fileName? = none ∧ ¬ ∃ name, p.fileName? = some name ∧ ∀ c ∈ name.toList, IsFileChar c := by
  intro turn p
  have hnone : p.fileName? = none := by decide +kernel
  refine ⟨hnone, ?_⟩
  rintro ⟨name, hname, -⟩
  rw [hnone] at hname
  exact nomatch hname

end Place

end RefSite
