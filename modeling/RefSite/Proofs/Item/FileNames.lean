import Mathlib
import RefSite.Proofs.Item.InPackages

namespace RefSite

/-- The number of an overload. What has no overloads counts as a first one, and so does what is
numbered below the first. -/
def Declaration.overloadNumber (d : Declaration) : Int :=
  if d.isFunctionLike then max 1 d.overload else 1

def isPlainChar (c : Char) : Bool := c.isAlphanum || c = '-'

/-- The name has only letters and digits of ASCII and dashes; it may be empty. -/
def IsPlain (s : String) : Prop := ∀ c ∈ s.toList, isPlainChar c = true

instance (s : String) : Decidable (IsPlain s) :=
  decidable_of_iff (s.toList.all isPlainChar = true) List.all_eq_true

theorem IsPlain.safeName_eq {s : String} (h : IsPlain s) : safeName s = s := by
  refine safeName_eq_self fun c hc => ?_
  have hplain := h c hc
  simp only [isPlainChar, Bool.or_eq_true] at hplain
  rcases hplain with hplain | hplain <;> simp [isSafeChar, hplain]

theorem IsPlain.notMem {s : String} (h : IsPlain s) {c : Char} (hc : isPlainChar c = false) :
    c ∉ s.toList := by
  intro hmem
  rw [h c hmem] at hc
  exact nomatch hc

/-- A number that is not negative is written with digits. -/
theorem isDigit_of_mem_toString {n : Int} (h : 0 ≤ n) {c : Char} (hc : c ∈ (toString n).toList) :
    c.isDigit = true := by
  obtain ⟨m, rfl⟩ := Int.eq_ofNat_of_zero_le h
  have hdigits : (toString (m : Int)).toList = Nat.toDigits 10 m := by
    change (String.ofList (Nat.toDigits 10 m)).toList = _
    exact String.toList_ofList
  rw [hdigits] at hc
  exact Nat.isDigit_of_mem_toDigits (by decide) (by decide) hc

/-- Words that are joined by a separator none of them has can be told apart again. -/
theorem intercalate_inj {sep : Char} {ws vs : List String} (hws : ∀ w ∈ ws, sep ∉ w.toList)
    (hvs : ∀ v ∈ vs, sep ∉ v.toList) (hne : ws ≠ []) (hne' : vs ≠ [])
    (h : (String.singleton sep).intercalate ws = (String.singleton sep).intercalate vs) :
    ws = vs := by
  have split {us : List String} (hus : ∀ u ∈ us, sep ∉ u.toList) (hne : us ≠ []) :
      ((String.singleton sep).intercalate us).toList.splitOn sep = us.map String.toList := by
    rw [String.toList_intercalate, String.toList_singleton]
    refine List.splitOn_intercalate sep ?_ (by simpa using hne)
    simpa using hus
  have hmap := congrArg (fun s => s.toList.splitOn sep) h
  simp only [split hws hne, split hvs hne'] at hmap
  exact List.map_injective_iff.2 (fun _ _ => String.toList_inj.1) hmap

namespace Place

variable {p q : Place} {package package' d e : Declaration}
  {above above' below below' : List Declaration}

theorem one_le_overloadNumber (d : Declaration) : 1 ≤ d.overloadNumber := by
  unfold Declaration.overloadNumber
  split
  · exact le_max_left _ _
  · exact le_refl _

theorem overloadSuffix_eq (d : Declaration) : overloadSuffix d =
    if 1 < d.overloadNumber then "_" ++ toString (d.overloadNumber - 1) else "" := by
  unfold overloadSuffix Declaration.overloadNumber
  cases d.isFunctionLike with
  | false => simp
  | true =>
    by_cases h : 1 < d.overload
    · rw [if_pos rfl, max_eq_right h.le]
      simp [h]
    · simp [h]

/-- The name of a level and the number of a later overload. -/
def segmentWords (d : Declaration) : List String :=
  d.name :: if 1 < d.overloadNumber then [toString (d.overloadNumber - 1)] else []

theorem segment_eq (h : IsPlain d.name) : segment d = "_".intercalate (segmentWords d) := by
  rw [segment, h.safeName_eq, overloadSuffix_eq, segmentWords]
  split
  · rw [String.intercalate_cons_cons, String.intercalate_singleton, String.append_assoc]
  · simp

/-- Each word of a segment has plain characters only. -/
theorem isPlain_segmentWords (h : IsPlain d.name) : ∀ w ∈ segmentWords d, IsPlain w := by
  refine List.forall_mem_cons.2 ⟨h, ?_⟩
  split
  · intro w hw c hc
    obtain rfl := List.mem_singleton.1 hw
    have hdigit := isDigit_of_mem_toString (by omega) hc
    simp [isPlainChar, Char.isAlphanum, hdigit]
  · simp

theorem segmentWords_inj (h : segmentWords d = segmentWords e) :
    d.name = e.name ∧ d.overloadNumber = e.overloadNumber := by
  obtain ⟨hname, hnumber⟩ := List.cons.inj h
  refine ⟨hname, ?_⟩
  have hd := one_le_overloadNumber d
  have he := one_le_overloadNumber e
  split at hnumber <;> split at hnumber
  · have hrepr := Int.repr_inj.1 (List.singleton_inj.1 hnumber)
    omega
  · exact nomatch hnumber
  · exact nomatch hnumber
  · omega

/-- Among plain names a segment tells the name and the overload. -/
theorem segment_eq_iff (hd : IsPlain d.name) (he : IsPlain e.name) :
    segment d = segment e ↔ d.name = e.name ∧ d.overloadNumber = e.overloadNumber := by
  have hsep {d : Declaration} (h : IsPlain d.name) : ∀ w ∈ segmentWords d, '_' ∉ w.toList :=
    fun w hw => (isPlain_segmentWords h w hw).notMem rfl
  constructor
  · intro h
    rw [segment_eq hd, segment_eq he] at h
    exact segmentWords_inj (intercalate_inj (hsep hd) (hsep he) (by simp [segmentWords])
      (by simp [segmentWords]) h)
  · rintro ⟨hname, hnumber⟩
    rw [segment, segment, overloadSuffix_eq, overloadSuffix_eq, hname, hnumber]

theorem segments_eq_iff (hbelow : ∀ d ∈ below, IsPlain d.name)
    (hbelow' : ∀ d ∈ below', IsPlain d.name) :
    below.map segment = below'.map segment ↔ List.Forall₂
      (fun d e => d.name = e.name ∧ d.overloadNumber = e.overloadNumber) below below' := by
  induction below generalizing below' with
  | nil => simp
  | cons d ds ih =>
    obtain ⟨hd, hds⟩ := List.forall_mem_cons.1 hbelow
    cases below' with
    | nil => simp
    | cons e es =>
      obtain ⟨he, hes⟩ := List.forall_mem_cons.1 hbelow'
      rw [List.map_cons, List.map_cons, List.cons_eq_cons, segment_eq_iff hd he, ih hds hes,
        List.forall₂_cons]

theorem dot_notMem_overloadSuffix (d : Declaration) : '.' ∉ (overloadSuffix d).toList := by
  rw [overloadSuffix_eq]
  split
  · intro hmem
    rw [String.toList_append] at hmem
    obtain hmem | hmem := List.mem_append.1 hmem
    · exact absurd hmem (by decide)
    · exact absurd (isDigit_of_mem_toString (by omega) hmem) (by decide)
  · simp

/-- A segment has no dot in it. -/
theorem dot_notMem_segment (h : IsPlain d.name) : '.' ∉ (segment d).toList := by
  rw [segment, h.safeName_eq, String.toList_append, List.mem_append, not_or]
  exact ⟨h.notMem rfl, dot_notMem_overloadSuffix d⟩

/-- File names identify items whose names are plain. Two items in packages have the same file name
exactly when the packages have the same name without their scopes, and the items have equally many
levels below their entry points, with the same name and the same overload on each level. -/
theorem plain_file_names_identify_items (hp : p.LiesIn above package below)
    (hq : q.LiesIn above' package' below')
    (hpackage : IsPlain (unscopedName package.name))
    (hpackage' : IsPlain (unscopedName package'.name))
    (hbelow : ∀ d ∈ below, IsPlain d.name) (hbelow' : ∀ d ∈ below', IsPlain d.name) :
    p.fileName = q.fileName ↔ unscopedName package.name = unscopedName package'.name ∧
      List.Forall₂ (fun d e => d.name = e.name ∧ d.overloadNumber = e.overloadNumber)
        below below' := by
  -- no dot is in a word of the name, so the dots between the words tell where each ends
  have hwords {package : Declaration} {below : List Declaration}
      (hpackage : IsPlain (unscopedName package.name)) (hbelow : ∀ d ∈ below, IsPlain d.name) :
      ∀ w ∈ unscopedName package.name :: below.map segment, '.' ∉ w.toList := by
    refine List.forall_mem_cons.2 ⟨hpackage.notMem rfl, ?_⟩
    intro w hw
    obtain ⟨d, hd, rfl⟩ := List.mem_map.1 hw
    exact dot_notMem_segment (hbelow d hd)
  rw [hp.fileName_eq, hq.fileName_eq, hpackage.safeName_eq, hpackage'.safeName_eq,
    String.append_left_inj, ← segments_eq_iff hbelow hbelow']
  constructor
  · intro h
    exact List.cons.inj (intercalate_inj (hwords hpackage hbelow) (hwords hpackage' hbelow')
      (by simp) (by simp) h)
  · rintro ⟨hname, hmap⟩
    rw [hname, hmap]

def plainModel : Declaration := { kind := .known .model, name := "" }

/-- The place of a member of a declaration in the only entry point of a package. -/
def memberPlace (package owner member : Declaration) : Place :=
  ⟨[plainModel, package, { kind := .known .entryPoint, name := "" }, owner], member⟩

theorem liesIn_memberPlace {owner member : Declaration} (hpackage : package.is .package = true)
    (howner : owner.isContainer = false) (hmember : member.isContainer = false) :
    (memberPlace package owner member).LiesIn [plainModel] package [owner, member] :=
  .below hpackage rfl rfl (by simp [howner, hmember])

/-- A method of a class and a method signature of an interface have one file: the packages differ in
their scope only, the owners have no overloads, and the members are the same overload. -/
theorem method_and_signature_share_file :
    let kit : Declaration := { kind := .known .package, name := "kit" }
    let kit' : Declaration := { kind := .known .package, name := "@parts/kit" }
    let dial : Declaration := { kind := .known .classDecl, name := "Dial" }
    let dial' : Declaration := { kind := .known .interface, name := "Dial", overload := 7 }
    let turn : Declaration := { kind := .known .method, name := "turn", overload := 3 }
    let turn' : Declaration := { kind := .known .methodSignature, name := "turn", overload := 3 }
    let p := memberPlace kit dial turn
    let q := memberPlace kit' dial' turn'
    p.LiesIn [plainModel] kit [dial, turn] ∧ q.LiesIn [plainModel] kit' [dial', turn'] ∧
      IsPlain (unscopedName kit.name) ∧ IsPlain (unscopedName kit'.name) ∧
      p.fileName = "kit.Dial.turn_2.html" ∧ p.fileName = q.fileName ∧
      unscopedName kit.name = unscopedName kit'.name ∧
      List.Forall₂ (fun d e => d.name = e.name ∧ d.overloadNumber = e.overloadNumber)
        [dial, turn] [dial', turn'] := by
  intro kit kit' dial dial' turn turn' p q
  have hp : p.LiesIn [plainModel] kit [dial, turn] := liesIn_memberPlace rfl rfl rfl
  have hq : q.LiesIn [plainModel] kit' [dial', turn'] := liesIn_memberPlace rfl rfl rfl
  have hkit : IsPlain (unscopedName kit.name) := by decide +kernel
  have hkit' : IsPlain (unscopedName kit'.name) := by decide +kernel
  have hfile : p.fileName = q.fileName := by decide +kernel
  have hsame := (plain_file_names_identify_items hp hq hkit hkit' (by decide +kernel)
    (by decide +kernel)).1 hfile
  exact ⟨hp, hq, hkit, hkit', by decide +kernel, hfile, hsame⟩

end Place

end RefSite
