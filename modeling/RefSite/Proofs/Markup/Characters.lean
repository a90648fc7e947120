import RefSite.Markup.WellFormed

namespace RefSite.Markup

def attributeCharacters : List (String × Value) → List Char
  | [] => []
  | (name, v) :: attributes =>
    ' ' :: (name.toList ++ '=' :: '\x22' :: (v.written.toList.flatMap escapeAttributeChar ++
      '\x22' :: attributeCharacters attributes))

/-- The characters of a closing tag; some types have none. -/
def closingCharacters (type : String) : List Char :=
  if voidTypes.contains type then [] else '<' :: '/' :: (type.toList ++ ['>'])

mutual

def characters : Markup → List Char
  | element type attributes content =>
    '<' :: (type.toList ++ (attributeCharacters attributes ++ '>' ::
      (contentCharacters content ++ closingCharacters type)))
  | _ => []

def contentCharacters : Markup → List Char
  | value (.text s) => s.toList.flatMap escapeChar
  | block cs => allCharacters cs
  | _ => []

def allCharacters : List Markup → List Char
  | [] => []
  | c :: cs => characters c ++ allCharacters cs

end

theorem attributesText_eq_ok {attributes : List (String × Value)}
    (h : attributes.all isWellFormedAttribute = true) :
    attributesText attributes = .ok (String.ofList (attributeCharacters attributes)) := by
  induction attributes with
  | nil => rfl
  | cons a attributes ih =>
    obtain ⟨name, v⟩ := a
    rw [List.all_cons, Bool.and_eq_true] at h
    cases v with
    | text s =>
      rw [attributesText, ih h.2]
      simp [Value.written?, attributeCharacters, Value.written_text, escapeAttribute,
        ← String.toList_inj]
    | _ => exact nomatch h.1

theorem enclose_eq {type : String} (h : voidTypes.contains type = false) (opening : String)
    (inner : List Char) : enclose type opening (String.ofList inner) =
      String.ofList ('<' :: (type.toList ++ (opening.toList ++ '>' ::
        (inner ++ closingCharacters type)))) := by
  have hv : type ∉ voidTypes := by simpa using h
  simp [enclose, closingCharacters, ← String.toList_inj, hv]

mutual

/-- A well-formed tree has a text, made of the characters of the tree. -/
theorem render_eq_ok : ∀ {m : Markup}, isWellFormed m = true →
    render m = .ok (String.ofList (characters m))
  | element type attributes content, h => by
    rw [isWellFormed, Bool.and_eq_true, Bool.and_eq_true] at h
    obtain ⟨⟨_, ha⟩, hc⟩ := h
    have henclose (hv : voidTypes.contains type = false) :=
      enclose_eq hv (String.ofList (attributeCharacters attributes))
    rw [render, attributesText_eq_ok ha, characters]
    cases content with
    | value v =>
      cases v with
      | null =>
        -- without content the type of the element decides whether there is a closing tag
        by_cases hv : voidTypes.contains type = true
        · have ht : type ∈ voidTypes := by simpa using hv
          simp [renderValue, contentCharacters, closingCharacters, ← String.toList_inj, ht]
        · simp only [renderValue, if_neg hv]
          simpa [contentCharacters] using henclose (by simpa using hv) []
      | text s =>
        rw [isWellFormedContent, Bool.not_eq_true'] at hc
        simpa [renderValue, contentCharacters, escape] using
          henclose hc (s.toList.flatMap escapeChar)
      | _ => exact nomatch hc
    | block cs =>
      rw [isWellFormedContent, Bool.and_eq_true, Bool.not_eq_true'] at hc
      simpa [renderAll_eq_ok hc.2, contentCharacters] using henclose hc.1 (allCharacters cs)
    | element _ _ _ => exact nomatch hc
  | value _, h => nomatch h
  | block _, h => nomatch h

theorem renderAll_eq_ok : ∀ {cs : List Markup}, areWellFormed cs = true →
    renderAll cs = .ok (String.ofList (allCharacters cs))
  | [], _ => rfl
  | c :: cs, h => by
    rw [areWellFormed, Bool.and_eq_true] at h
    rw [renderAll, render_eq_ok h.1, renderAll_eq_ok h.2]
    simp [allCharacters]

end

mutual

/-- A tree and its normal form have the same characters. -/
theorem characters_normal : ∀ t : Markup, characters (normal t) = characters t
  | value _ => rfl
  | block _ => rfl
  | element _ _ content => by rw [normal, characters, characters, contentCharacters_normal content]

theorem contentCharacters_normal : ∀ c : Markup,
    contentCharacters (normalContent c) = contentCharacters c
  | value v => by
    cases v with
    | text s => by_cases hs : s = "" <;> simp [normalContent, contentCharacters, void, hs]
    | _ => rfl
  | block [] => rfl
  | block (c :: cs) => by
    simp only [normalContent, contentCharacters, allCharacters]
    rw [characters_normal c, allCharacters_normals cs]
  | element _ _ _ => rfl

theorem allCharacters_normals : ∀ cs : List Markup, allCharacters (normals cs) = allCharacters cs
  | [] => rfl
  | c :: cs => by
    rw [normals, allCharacters, allCharacters, characters_normal c, allCharacters_normals cs]

end

end RefSite.Markup
