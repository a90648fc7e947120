import Mathlib.Data.List.Basic
import RefSite.Proofs.Markup.Characters
import RefSite.Proofs.Markup.Escape

/-! The text of well-formed markup is unambiguous: it determines the tree up to empty content, so no
text and no attribute can pass for markup. The proof reads the characters from the left. An element
ends where its own closing tag stands, whatever follows, since its name, its attributes and its text
each end at a character that they cannot hold. -/
namespace RefSite.Markup

theorem isNameChar_of_isName {s : String} (h : isName s = true) :
    ∀ c ∈ s.toList, isNameChar c = true := by
  rw [isName, Bool.and_eq_true] at h
  exact List.all_eq_true.1 h.2

theorem text_of_isWellFormedAttribute {name : String} {v : Value}
    (h : isWellFormedAttribute (name, v) = true) : ∃ s, v = .text s ∧ isName name = true := by
  cases v with
  | text s => exact ⟨s, rfl, h⟩
  | _ => exact nomatch h

/-- Attributes that read alike up to the end of their tag are the same. -/
theorem attributeCharacters_append_inj {as bs : List (String × Value)}
    (ha : as.all isWellFormedAttribute = true) (hb : bs.all isWellFormedAttribute = true)
    {x y : List Char}
    (h : attributeCharacters as ++ '>' :: x = attributeCharacters bs ++ '>' :: y) :
    as = bs ∧ x = y := by
  induction as generalizing bs with
  | nil =>
    cases bs with
    | nil => exact ⟨rfl, (List.cons.inj h).2⟩
    | cons b bs => simp [attributeCharacters] at h
  | cons a as ih =>
    cases bs with
    | nil => simp [attributeCharacters] at h
    | cons b bs =>
      obtain ⟨m, v⟩ := a
      obtain ⟨n, w⟩ := b
      rw [List.all_cons, Bool.and_eq_true] at ha hb
      obtain ⟨s, rfl, hm⟩ := text_of_isWellFormedAttribute ha.1
      obtain ⟨t, rfl, hn⟩ := text_of_isWellFormedAttribute hb.1
      simp only [attributeCharacters, List.cons_append, List.append_assoc, List.cons.injEq,
        true_and] at h
      -- the name ends at the equals sign, and the value at its closing quote
      obtain ⟨hname, h⟩ := eq_of_append_eq (isNameChar_of_isName hm) (isNameChar_of_isName hn)
        (by simp [isNameChar]) (by simp [isNameChar]) h
      simp only [List.cons.injEq, true_and] at h
      obtain ⟨hvalue, h⟩ := eq_of_append_eq
        (bne_of_mem_flatMap quote_notMem_escapeAttributeChar)
        (bne_of_mem_flatMap quote_notMem_escapeAttributeChar) (by simp) (by simp) h
      obtain ⟨rfl, hxy⟩ := ih ha.2 hb.2 (List.cons.inj h).2
      have hst : s = t := flatMap_escapeAttributeChar_inj hvalue
      exact ⟨by rw [String.toList_inj.1 hname, hst], hxy⟩

/-- The text of a content, if it is one. -/
def textOf : Markup → String
  | value (.text s) => s
  | _ => ""

/-- The elements of a content, if it has some. -/
def childrenOf : Markup → List Markup
  | block cs => cs
  | _ => []

theorem contentCharacters_eq (content : Markup) :
    contentCharacters content =
      (textOf content).toList.flatMap escapeChar ++ allCharacters (childrenOf content) := by
  cases content with
  | value v => cases v <;> simp [contentCharacters, textOf, childrenOf, allCharacters]
  | block cs => simp [contentCharacters, textOf, childrenOf]
  | element _ _ _ => simp [contentCharacters, textOf, childrenOf, allCharacters]

theorem content_cases {type : String} {content : Markup}
    (h : isWellFormedContent type content = true) :
    content = void ∨ (∃ s, content = text s ∧ voidTypes.contains type = false) ∨
      ∃ cs, content = block cs ∧ voidTypes.contains type = false ∧ areWellFormed cs = true := by
  cases content with
  | value v =>
    cases v with
    | null => exact .inl rfl
    | text s => exact .inr (.inl ⟨s, rfl, by simpa [isWellFormedContent] using h⟩)
    | _ => exact absurd h Bool.false_ne_true
  | block cs =>
    rw [isWellFormedContent, Bool.and_eq_true, Bool.not_eq_true'] at h
    exact .inr (.inr ⟨cs, rfl, h⟩)
  | element _ _ _ => exact absurd h Bool.false_ne_true

theorem areWellFormed_childrenOf {type : String} {content : Markup}
    (h : isWellFormedContent type content = true) : areWellFormed (childrenOf content) = true := by
  obtain rfl | ⟨s, rfl, -⟩ | ⟨cs, rfl, -, hcs⟩ := content_cases h
  · rfl
  · rfl
  · exact hcs

theorem eq_void_of_isVoid {type : String} {content : Markup}
    (h : isWellFormedContent type content = true) (hv : voidTypes.contains type = true) :
    content = void := by
  obtain rfl | ⟨s, rfl, hs⟩ | ⟨cs, rfl, hs, -⟩ := content_cases h
  · rfl
  · exact absurd (hv.symm.trans hs) (by decide)
  · exact absurd (hv.symm.trans hs) (by decide)

theorem normalContent_block (cs : List Markup) :
    normalContent (block cs) = if normals cs = [] then void else block (normals cs) := by
  cases cs with
  | nil => rfl
  | cons c cs => simp [normalContent, normals]

/-- The normal form of a content, from its text and its children. -/
theorem normalContent_eq {type : String} {content : Markup}
    (h : isWellFormedContent type content = true) :
    normalContent content =
      if textOf content = "" then normalContent (block (childrenOf content))
      else text (textOf content) := by
  obtain rfl | ⟨s, rfl, -⟩ | ⟨cs, rfl, -, -⟩ := content_cases h
  · rfl
  · by_cases hs : s = "" <;> simp [normalContent, textOf, childrenOf, text, hs]
  · rfl

/-- Children begin with a tag, and so does what follows them. -/
theorem head_allCharacters {cs : List Markup} (h : areWellFormed cs = true) (x : List Char) :
    ∀ a ∈ (allCharacters cs ++ '<' :: x).head?, (a != '<') = false := by
  cases cs with
  | nil => simp [allCharacters]
  | cons c cs =>
    rw [areWellFormed, Bool.and_eq_true] at h
    cases c with
    | element type attributes content => simp [allCharacters, characters]
    | _ => exact absurd h.1 Bool.false_ne_true

/-- No element begins like a closing tag. -/
theorem characters_append_ne {c : Markup} (h : isWellFormed c = true) (x y : List Char) :
    characters c ++ x ≠ '<' :: '/' :: y := by
  cases c with
  | element type attributes content =>
    rw [isWellFormed, Bool.and_eq_true, Bool.and_eq_true] at h
    intro hxy
    rw [characters, List.cons_append] at hxy
    have htail := (List.cons.inj hxy).2
    cases hs : type.toList with
    | nil =>
      rw [isName, show type = "" from String.toList_eq_nil_iff.1 hs] at h
      simp at h
    | cons d ds =>
      rw [hs, List.cons_append] at htail
      have hd : isNameChar d = true :=
        isNameChar_of_isName h.1.1 d (by rw [hs]; exact List.mem_cons_self)
      rw [(List.cons.inj htail).1] at hd
      exact absurd hd (by decide)
  | _ => exact absurd h Bool.false_ne_true

/-- Where a closing tag stands there are no children. -/
theorem eq_nil_of_closing {ds : List Markup} (hd : areWellFormed ds = true) {x y : List Char}
    (h : '<' :: '/' :: x = allCharacters ds ++ '<' :: '/' :: y) : ds = [] ∧ x = y := by
  cases ds with
  | nil => exact ⟨rfl, by simpa [allCharacters] using h⟩
  | cons d ds =>
    rw [areWellFormed, Bool.and_eq_true] at hd
    rw [allCharacters, List.append_assoc] at h
    exact absurd h.symm (characters_append_ne hd.1 _ _)

mutual

/-- Elements that read alike have the same normal form, whatever follows them. -/
theorem characters_append_inj : ∀ {t u : Markup}, isWellFormed t = true → isWellFormed u = true →
    ∀ {x y : List Char}, characters t ++ x = characters u ++ y → normal t = normal u ∧ x = y
  | element type as content, element type' bs content', ht, hu, x, y, h => by
    rw [isWellFormed, Bool.and_eq_true, Bool.and_eq_true] at ht hu
    obtain ⟨⟨hn, ha⟩, hc⟩ := ht
    obtain ⟨⟨hn', hb⟩, hc'⟩ := hu
    simp only [characters, List.cons_append, List.append_assoc, List.cons.injEq, true_and] at h
    have hstop (cs : List (String × Value)) (z : List Char) :
        ∀ c ∈ (attributeCharacters cs ++ '>' :: z).head?, isNameChar c = false := by
      cases cs <;> simp [attributeCharacters, isNameChar]
    -- the type ends at the first character that no name has
    obtain ⟨htype, h⟩ := eq_of_append_eq (isNameChar_of_isName hn) (isNameChar_of_isName hn')
      (hstop as _) (hstop bs _) h
    obtain rfl := String.toList_inj.1 htype
    obtain ⟨rfl, hrest⟩ := attributeCharacters_append_inj ha hb h
    obtain ⟨hcontent, hxy⟩ := contentCharacters_append_inj hc hc' hrest
    exact ⟨by rw [normal, normal, hcontent], hxy⟩
  | value _, _, ht, _, _, _, _ => nomatch ht
  | block _, _, ht, _, _, _, _ => nomatch ht
  | _, value _, _, hu, _, _, _ => nomatch hu
  | _, block _, _, hu, _, _, _ => nomatch hu

theorem contentCharacters_append_inj : ∀ {type : String} {c d : Markup},
    isWellFormedContent type c = true → isWellFormedContent type d = true → ∀ {x y : List Char},
    contentCharacters c ++ (closingCharacters type ++ x) =
      contentCharacters d ++ (closingCharacters type ++ y) →
    normalContent c = normalContent d ∧ x = y
  | type, c, d, hc, hd, x, y, h => by
    by_cases hv : voidTypes.contains type = true
    · rw [eq_void_of_isVoid hc hv, eq_void_of_isVoid hd hv] at h ⊢
      exact ⟨rfl, by simpa [closingCharacters, hv] using h⟩
    · -- a content is a text followed by children, of which one is missing
      rw [closingCharacters, if_neg hv, contentCharacters_eq, contentCharacters_eq] at h
      simp only [List.cons_append, List.append_assoc, List.nil_append] at h
      -- the text ends where the first tag begins
      obtain ⟨htext, h⟩ := eq_of_append_eq (bne_of_mem_flatMap lt_notMem_escapeChar)
        (bne_of_mem_flatMap lt_notMem_escapeChar)
        (head_allCharacters (areWellFormed_childrenOf hc) _)
        (head_allCharacters (areWellFormed_childrenOf hd) _) h
      have hk := areWellFormed_childrenOf hd
      have hchildren : normals (childrenOf c) = normals (childrenOf d) ∧
          type.toList ++ '>' :: x = type.toList ++ '>' :: y := by
        cases c with
        | block cs => exact allCharacters_append_inj (areWellFormed_childrenOf hc) hk h
        | value v =>
          obtain ⟨hnil, hxy⟩ := eq_nil_of_closing hk h
          exact ⟨by rw [hnil]; rfl, hxy⟩
        | element _ _ _ => exact nomatch hc
      refine ⟨?_, (List.cons.inj (List.append_cancel_left hchildren.2)).2⟩
      rw [normalContent_eq hc, normalContent_eq hd, flatMap_escapeChar_inj htext,
        normalContent_block, normalContent_block, hchildren.1]

theorem allCharacters_append_inj : ∀ {cs ds : List Markup}, areWellFormed cs = true →
    areWellFormed ds = true → ∀ {x y : List Char},
    allCharacters cs ++ '<' :: '/' :: x = allCharacters ds ++ '<' :: '/' :: y →
    normals cs = normals ds ∧ x = y
  | [], ds, _, hd, x, y, h => by
    obtain ⟨rfl, hxy⟩ := eq_nil_of_closing hd h
    exact ⟨rfl, hxy⟩
  | cs, [], hc, _, x, y, h => by
    obtain ⟨rfl, hxy⟩ := eq_nil_of_closing hc h.symm
    exact ⟨rfl, hxy.symm⟩
  | c :: cs, d :: ds, hc, hd, x, y, h => by
    rw [areWellFormed, Bool.and_eq_true] at hc hd
    rw [allCharacters, allCharacters, List.append_assoc, List.append_assoc] at h
    obtain ⟨hcd, h⟩ := characters_append_inj hc.1 hd.1 h
    obtain ⟨hcds, hxy⟩ := allCharacters_append_inj hc.2 hd.2 h
    exact ⟨by rw [normals, normals, hcd, hcds], hxy⟩

end

theorem render_eq_render_iff {t u : Markup} (ht : isWellFormed t = true)
    (hu : isWellFormed u = true) : render t = render u ↔ normal t = normal u := by
  rw [render_eq_ok ht, render_eq_ok hu, Except.ok.injEq, String.ofList_inj]
  constructor
  · intro h
    have hxy : characters t ++ [] = characters u ++ [] := by rw [h]
    exact (characters_append_inj ht hu hxy).1
  · intro h
    rw [← characters_normal t, h, characters_normal u]

theorem isWellFormed_document (styles : List String) {content : List Markup}
    (h : areWellFormed content = true) : isWellFormed (document styles content) = true := by
  have hl : areWellFormed (styles.map stylesheetLink) = true := by
    rw [areWellFormed_eq_all, List.all_map, List.all_eq_true]
    intro s _
    have hn : isName "link" = true ∧ isName "rel" = true ∧ isName "type" = true ∧
        isName "href" = true := by decide
    simp [stylesheetLink, isWellFormed, isWellFormedAttribute, isWellFormedContent, void, hn]
  have hn : isName "html" = true ∧ isName "head" = true ∧ isName "body" = true := by decide
  have hv : "html" ∉ voidTypes ∧ "head" ∉ voidTypes ∧ "body" ∉ voidTypes := by decide
  simp [document, plain, isWellFormed, isWellFormedContent, areWellFormed, hl, h, hn, hv]

theorem normal_document (styles : List String) (content : List Markup) :
    normal (document styles content) = plain "html" (block
      [plain "head" (normalContent (block (styles.map stylesheetLink))),
        plain "body" (normalContent (block content))]) := rfl

theorem normals_of_normalContent {cs ds : List Markup}
    (h : normalContent (block cs) = normalContent (block ds)) : normals cs = normals ds := by
  rw [normalContent_block, normalContent_block] at h
  split at h
  · next hc =>
    split at h
    · next hd => rw [hc, hd]
    · exact nomatch h
  · split at h
    · exact nomatch h
    · exact block.inj h

theorem normals_stylesheetLinks (styles : List String) :
    normals (styles.map stylesheetLink) = styles.map stylesheetLink := by
  rw [normals_eq_map, List.map_map]
  exact List.map_congr_left fun _ _ => rfl

theorem stylesheetLink_injective : Function.Injective stylesheetLink := by
  intro s t h
  simpa [stylesheetLink] using h

theorem normal_document_eq_iff {s₁ s₂ : List String} {c₁ c₂ : List Markup} :
    normal (document s₁ c₁) = normal (document s₂ c₂) ↔
      s₁ = s₂ ∧ c₁.map normal = c₂.map normal := by
  rw [normal_document, normal_document, ← normals_eq_map, ← normals_eq_map]
  constructor
  · intro h
    simp only [plain, element.injEq, block.injEq, List.cons.injEq, true_and, and_true] at h
    have hlinks := normals_of_normalContent h.1
    rw [normals_stylesheetLinks, normals_stylesheetLinks] at hlinks
    exact ⟨stylesheetLink_injective.list_map hlinks, normals_of_normalContent h.2⟩
  · rintro ⟨rfl, hc⟩
    rw [normalContent_block c₁, normalContent_block c₂, hc]

theorem renderDocument_eq_iff {s₁ s₂ : List String} {c₁ c₂ : List Markup}
    (h₁ : areWellFormed c₁ = true) (h₂ : areWellFormed c₂ = true) :
    renderDocument s₁ c₁ = renderDocument s₂ c₂ ↔ s₁ = s₂ ∧ c₁.map normal = c₂.map normal := by
  have hw₁ := isWellFormed_document s₁ h₁
  have hw₂ := isWellFormed_document s₂ h₂
  rw [← normal_document_eq_iff, ← render_eq_render_iff hw₁ hw₂, renderDocument, renderDocument,
    render_eq_ok hw₁, render_eq_ok hw₂]
  simp [← String.toList_inj]

/-- On well-formed markup rendering always gives a text, for elements and for whole pages, and two
texts are the same just when the style sheets are and the trees have the same normal form. -/
theorem rendered_text_determines_markup :
    (∀ t u : Markup, isWellFormed t = true → isWellFormed u = true →
      (∃ s, render t = .ok s) ∧ (render t = render u ↔ normal t = normal u)) ∧
    ∀ (s₁ s₂ : List String) (c₁ c₂ : List Markup),
      areWellFormed c₁ = true → areWellFormed c₂ = true →
      (∃ s, renderDocument s₁ c₁ = .ok s) ∧
      (renderDocument s₁ c₁ = renderDocument s₂ c₂ ↔
        s₁ = s₂ ∧ c₁.map normal = c₂.map normal) := by
  refine ⟨?_, ?_⟩
  · intro t u ht hu
    exact ⟨⟨_, render_eq_ok ht⟩, render_eq_render_iff ht hu⟩
  · intro s₁ s₂ c₁ c₂ h₁ h₂
    refine ⟨?_, renderDocument_eq_iff h₁ h₂⟩
    rw [renderDocument, render_eq_ok (isWellFormed_document s₁ h₁)]
    exact ⟨_, rfl⟩

/-- An empty text and an empty list of children are told apart neither by the text of a paragraph
nor by its normal form, and quotes in an attribute do not end it. -/
theorem rendered_paragraphs :
    let t := element "p" [("title", .text "\" class=\"x")] (text "")
    let u := element "p" [("title", .text "\" class=\"x")] (block [])
    isWellFormed t = true ∧ isWellFormed u = true ∧ normal t = normal u ∧ render t = render u ∧
      areWellFormed [t] = true ∧ areWellFormed [u] = true ∧
      renderDocument ["a.css"] [t] = renderDocument ["a.css"] [u] := by
  refine ⟨by decide, by decide, rfl, ?_, by decide, by decide, ?_⟩
  · exact (rendered_text_determines_markup.1 _ _ (by decide) (by decide)).2.2 rfl
  · exact (rendered_text_determines_markup.2 _ _ _ _ (by decide) (by decide)).2.2 ⟨rfl, rfl⟩

end RefSite.Markup
