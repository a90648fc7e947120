import Mathlib.Tactic.SplitIfs
import RefSite.Markup.WellFormed

namespace RefSite.Markup

/-- Where two lists go on with something else after elements of one kind, these elements are the
same, and so is what follows them. -/
theorem eq_of_append_eq {α : Type} {p : α → Bool} {xs ys r s : List α}
    (hx : ∀ a ∈ xs, p a = true) (hy : ∀ a ∈ ys, p a = true) (hr : ∀ a ∈ r.head?, p a = false)
    (hs : ∀ a ∈ s.head?, p a = false) (h : xs ++ r = ys ++ s) : xs = ys ∧ r = s := by
  induction xs generalizing ys with
  | nil =>
    cases ys with
    | nil => exact ⟨rfl, h⟩
    | cons b ys =>
      have hb : p b = false := hr b (by simp [show r = b :: (ys ++ s) from h])
      exact absurd (hy b List.mem_cons_self) (by simp [hb])
  | cons a xs ih =>
    cases ys with
    | nil =>
      have ha : p a = false := hs a (by simp [show s = a :: (xs ++ r) from h.symm])
      exact absurd (hx a List.mem_cons_self) (by simp [ha])
    | cons b ys =>
      obtain ⟨rfl, ht⟩ := List.cons.inj h
      obtain ⟨rfl, hrs⟩ := ih (fun c hc => hx c (List.mem_cons_of_mem _ hc))
        (fun c hc => hy c (List.mem_cons_of_mem _ hc)) ht
      exact ⟨rfl, hrs⟩

/-- A code that a reader can take apart again word by word loses nothing. -/
theorem flatMap_injective_of_read {α β : Type} {f : α → List β}
    {read : List β → Option (α × List β)} (hn : read [] = none)
    (hf : ∀ a bs, read (f a ++ bs) = some (a, bs)) {xs ys : List α}
    (h : xs.flatMap f = ys.flatMap f) : xs = ys := by
  -- a reader that gets something from a word gets nothing from no words
  induction xs generalizing ys with
  | nil =>
    cases ys with
    | nil => rfl
    | cons b ys =>
      have hb := hf b (ys.flatMap f)
      rw [← List.flatMap_cons, ← h, List.flatMap_nil, hn] at hb
      exact nomatch hb
  | cons a xs ih =>
    have ha := hf a (xs.flatMap f)
    rw [← List.flatMap_cons, h] at ha
    cases ys with
    | nil =>
      rw [List.flatMap_nil, hn] at ha
      exact nomatch ha
    | cons b ys =>
      rw [List.flatMap_cons, hf] at ha
      obtain ⟨rfl, ht⟩ := Prod.mk.inj (Option.some.inj ha)
      rw [ih ht.symm]

/-- Reads back one character of a text or of an attribute. -/
def readEscaped : List Char → Option (Char × List Char)
  | [] => none
  | '&' :: 'a' :: 'm' :: 'p' :: ';' :: cs => some ('&', cs)
  | '&' :: 'l' :: 't' :: ';' :: cs => some ('<', cs)
  | '&' :: 'g' :: 't' :: ';' :: cs => some ('>', cs)
  | '&' :: 'q' :: 'u' :: 'o' :: 't' :: ';' :: cs => some ('\x22', cs)
  | '&' :: '#' :: 'x' :: '2' :: '7' :: ';' :: cs => some ('\x27', cs)
  | c :: cs => some (c, cs)

theorem readEscaped_cons {c : Char} (h : c ≠ '&') (cs : List Char) :
    readEscaped (c :: cs) = some (c, cs) := by
  simp [readEscaped, h]

theorem readEscaped_escapeChar (c : Char) (cs : List Char) :
    readEscaped (escapeChar c ++ cs) = some (c, cs) := by
  unfold escapeChar
  split_ifs with hamp hlt hgt
  · simp [readEscaped, hamp]
  · simp [readEscaped, hlt]
  · simp [readEscaped, hgt]
  · exact readEscaped_cons hamp cs

theorem readEscaped_escapeAttributeChar (c : Char) (cs : List Char) :
    readEscaped (escapeAttributeChar c ++ cs) = some (c, cs) := by
  unfold escapeAttributeChar
  split_ifs with hdouble hsingle
  · simp [readEscaped, hdouble]
  · simp [readEscaped, hsingle]
  · exact readEscaped_escapeChar c cs

theorem flatMap_escapeChar_inj {s t : String}
    (h : s.toList.flatMap escapeChar = t.toList.flatMap escapeChar) : s = t :=
  String.toList_inj.1 (flatMap_injective_of_read rfl readEscaped_escapeChar h)

theorem flatMap_escapeAttributeChar_inj {s t : String}
    (h : s.toList.flatMap escapeAttributeChar = t.toList.flatMap escapeAttributeChar) : s = t :=
  String.toList_inj.1 (flatMap_injective_of_read rfl readEscaped_escapeAttributeChar h)

theorem lt_notMem_escapeChar (c : Char) : '<' ∉ escapeChar c := by
  unfold escapeChar
  split_ifs with hamp hlt hgt
  · decide
  · decide
  · decide
  · simpa using Ne.symm hlt

theorem quote_notMem_escapeAttributeChar (c : Char) : '\x22' ∉ escapeAttributeChar c := by
  unfold escapeAttributeChar escapeChar
  split_ifs with hdouble hsingle hamp hlt hgt
  · decide
  · decide
  · decide
  · decide
  · decide
  · simpa using Ne.symm hdouble

/-- Escaped characters are none of those that the escapes avoid. -/
theorem bne_of_mem_flatMap {f : Char → List Char} {stop : Char} (hf : ∀ c, stop ∉ f c)
    {cs : List Char} : ∀ c ∈ cs.flatMap f, (c != stop) = true := by
  intro c hc
  obtain ⟨d, _, hd⟩ := List.mem_flatMap.1 hc
  rw [bne_iff_ne]
  rintro rfl
  exact hf d hd

end RefSite.Markup
