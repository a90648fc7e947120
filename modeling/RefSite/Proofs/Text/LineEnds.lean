import RefSite.Text.LineEnd

namespace RefSite

/-- A text without the characters that are passed over, and with the new text for the old one wherever
it occurs from there on, from the left and without overlap. -/
def replaceFrom (old new : List Char) : Nat → List Char → List Char
  | _, [] => []
  | n + 1, _ :: cs => replaceFrom old new n cs
  | 0, c :: cs =>
    if old.isPrefixOf (c :: cs) then new ++ replaceFrom old new (old.length - 1) cs
    else c :: replaceFrom old new 0 cs

/-- A text with the new text for every occurrence of the old one. -/
def replaceAll (old new cs : List Char) : List Char := replaceFrom old new 0 cs

example : replaceAll ['a', 'a'] ['b'] ['a', 'a', 'a', 'c'] = ['b', 'a', 'c'] := by decide

/-- Where single characters are replaced, each has a replacement of its own. -/
theorem replaceAll_single (c : Char) (new cs : List Char) :
    replaceAll [c] new cs = cs.flatMap fun d => if d = c then new else [d] := by
  induction cs with
  | nil => rfl
  | cons d cs ih =>
    rw [List.flatMap_cons, ← ih, replaceAll, replaceFrom]
    by_cases h : d = c
    · simp [h, replaceAll]
    · simp [h, Ne.symm h, replaceAll]

namespace LineEnd

variable {k : LineEnd} {c : Char} {cs ds : List Char}

theorem replaceAll_crlf_pair (new cs : List Char) :
    replaceAll crlf.chars new ('\r' :: '\n' :: cs) = new ++ replaceAll crlf.chars new cs := rfl

/-- A character that starts no pair stays. -/
theorem replaceAll_crlf_of_ne (new : List Char) (h : c = '\r' → cs.head? ≠ some '\n') :
    replaceAll crlf.chars new (c :: cs) = c :: replaceAll crlf.chars new cs := by
  have hprefix : crlf.chars.isPrefixOf (c :: cs) = false := by
    rw [← Bool.not_eq_true, List.isPrefixOf_iff_prefix]
    rintro ⟨ds, hds⟩
    obtain ⟨rfl, rfl⟩ := List.cons.inj hds
    exact h rfl rfl
  rw [replaceAll, replaceFrom, hprefix, if_neg (by decide)]
  rfl

theorem unify_pair (cs : List Char) : unify ('\r' :: '\n' :: cs) = '\n' :: unify cs := rfl

theorem unify_of_ne (h : c = '\r' → cs.head? ≠ some '\n') :
    unify (c :: cs) = (if c = '\r' then '\n' else c) :: unify cs := by
  rw [unify]
  rintro ds hreturn rfl
  exact h hreturn rfl

/-- An induction for texts with line ends: a pair is one step. -/
theorem pairs_induction {P : List Char → Prop} (nil : P [])
    (pair : ∀ cs, P cs → P ('\r' :: '\n' :: cs))
    (single : ∀ c cs, (c = '\r' → cs.head? ≠ some '\n') → P cs → P (c :: cs)) (cs : List Char) :
    P cs := by
  induction cs using unify.induct with
  | case1 => exact nil
  | case2 cs ih => exact pair cs ih
  | case3 c cs hne ih =>
    refine single c cs ?_ ih
    intro hreturn hnext
    cases cs with
    | nil => cases hnext
    | cons d ds =>
      cases hnext
      exact hne ds hreturn rfl

/-- The scan does what two replacements do one after the other. The first one can bring a carriage
return and a line feed together; these count as two line ends. -/
theorem unify_eq_replaceAll (cs : List Char) :
    unify cs = replaceAll ['\r'] ['\n'] (replaceAll crlf.chars ['\n'] cs) := by
  rw [replaceAll_single]
  induction cs using pairs_induction with
  | nil => rfl
  | pair cs ih =>
    rw [unify_pair, replaceAll_crlf_pair, List.flatMap_append, ih]
    rfl
  | single c cs hne ih =>
    rw [unify_of_ne hne, replaceAll_crlf_of_ne _ hne, List.flatMap_cons, ih]
    split <;> rfl

theorem expand_eq_replaceAll (k : LineEnd) (cs : List Char) :
    k.expand cs = replaceAll ['\n'] k.chars cs :=
  (replaceAll_single '\n' k.chars cs).symm

theorem expand_cons (k : LineEnd) (c : Char) (cs : List Char) :
    k.expand (c :: cs) = (if c = '\n' then k.chars else [c]) ++ k.expand cs := rfl

theorem return_notMem_unify (cs : List Char) : '\r' ∉ unify cs := by
  induction cs using pairs_induction with
  | nil => exact List.not_mem_nil
  | pair cs ih => exact List.not_mem_cons_of_ne_of_not_mem (by decide) ih
  | single c cs hne ih =>
    rw [unify_of_ne hne]
    refine List.not_mem_cons_of_ne_of_not_mem ?_ ih
    split
    · decide
    · next hc => exact Ne.symm hc

/-- What a text becomes when it is read once from the left, and each line end is replaced by the given
one. All other characters stay. -/
inductive Scanned (ends : List Char) : List Char → List Char → Prop where
  | done : Scanned ends [] []
  | pair {cs ds : List Char} (h : Scanned ends cs ds) :
      Scanned ends ('\r' :: '\n' :: cs) (ends ++ ds)
  | carriageReturn {cs ds : List Char} (hnext : cs.head? ≠ some '\n') (h : Scanned ends cs ds) :
      Scanned ends ('\r' :: cs) (ends ++ ds)
  | lineFeed {cs ds : List Char} (h : Scanned ends cs ds) : Scanned ends ('\n' :: cs) (ends ++ ds)
  | other {c : Char} {cs ds : List Char} (hreturn : c ≠ '\r') (hfeed : c ≠ '\n')
      (h : Scanned ends cs ds) : Scanned ends (c :: cs) (c :: ds)

/-- A text becomes exactly one text, the one that is written. -/
theorem scanned_iff : Scanned k.chars cs ds ↔ ds = k.expand (unify cs) := by
  constructor
  · -- every rule of the scan says what one character becomes
    intro h
    induction h with
    | done => rfl
    | pair _ ih => rw [unify_pair, expand_cons, if_pos rfl, ih]
    | carriageReturn hnext _ ih =>
      rw [unify_of_ne fun _ => hnext, if_pos rfl, expand_cons, if_pos rfl, ih]
    | lineFeed _ ih =>
      rw [unify_of_ne fun hreturn => absurd hreturn (by decide), if_neg (by decide), expand_cons,
        if_pos rfl, ih]
    | other hreturn hfeed _ ih =>
      rw [unify_of_ne fun h => absurd h hreturn, if_neg hreturn, expand_cons, if_neg hfeed, ih]
      rfl
  · rintro rfl
    induction cs using pairs_induction with
    | nil => exact .done
    | pair cs ih => exact .pair ih
    | single c cs hne ih =>
      rw [unify_of_ne hne]
      by_cases hreturn : c = '\r'
      · subst hreturn
        exact .carriageReturn (hne rfl) ih
      · rw [if_neg hreturn]
        by_cases hfeed : c = '\n'
        · subst hfeed
          exact .lineFeed ih
        · rw [expand_cons, if_neg hfeed]
          exact .other hreturn hfeed ih

/-- Whatever makes a line feed of a pair and leaves other texts alone takes back what is written, with
any line ends. -/
theorem eq_of_expand {f : List Char → List Char} (hnil : f [] = [])
    (hpair : ∀ cs, f ('\r' :: '\n' :: cs) = '\n' :: f cs)
    (hother : ∀ c cs, c ≠ '\r' → f (c :: cs) = c :: f cs) (h : '\r' ∉ cs) :
    f (k.expand cs) = cs := by
  induction cs with
  | nil => exact hnil
  | cons c cs ih =>
    obtain ⟨hc, hcs⟩ := not_or.1 (mt List.mem_cons.2 h)
    rw [expand_cons]
    by_cases hfeed : c = '\n'
    · subst hfeed
      have hends : f (k.chars ++ k.expand cs) = '\n' :: f (k.expand cs) := by
        cases k with
        | crlf => exact hpair _
        | lf => exact hother _ _ (by decide)
        | native => exact hother _ _ (by decide)
      rw [if_pos rfl, hends, ih hcs]
    · rw [if_neg hfeed, List.singleton_append, hother c _ (Ne.symm hc), ih hcs]

theorem unify_expand (h : '\r' ∉ cs) : unify (k.expand cs) = cs := by
  apply eq_of_expand rfl unify_pair _ h
  intro c cs hc
  rw [unify_of_ne fun hreturn => absurd hreturn hc, if_neg hc]

/-- With line feeds for the pairs, a text is the same whichever line ends it is written with. -/
theorem replaceAll_crlf_expand (h : '\r' ∉ cs) :
    replaceAll crlf.chars lf.chars (k.expand cs) = cs := by
  apply eq_of_expand rfl (replaceAll_crlf_pair lf.chars) _ h
  intro c cs hc
  exact replaceAll_crlf_of_ne lf.chars fun hreturn => absurd hreturn hc

theorem expand_crlf_feed (cs : List Char) :
    crlf.expand ('\n' :: cs) = '\r' :: '\n' :: crlf.expand cs := rfl

theorem expand_of_ne (hfeed : c ≠ '\n') : k.expand (c :: cs) = c :: k.expand cs := by
  rw [expand_cons, if_neg hfeed, List.singleton_append]

/-- Where pairs are written, a carriage return and a line feed only come together. -/
theorem pair_of_mem_crlf {before after : List Char} (h : '\r' ∉ cs)
    (hwritten : crlf.expand cs = before ++ c :: after) :
    (c = '\r' → after.head? = some '\n') ∧ (c = '\n' → before.getLast? = some '\r') := by
  induction cs generalizing before with
  | nil => exact absurd hwritten.symm (List.append_ne_nil_of_right_ne_nil _ (List.cons_ne_nil _ _))
  | cons d cs ih =>
    obtain ⟨hd, hcs⟩ := not_or.1 (mt List.mem_cons.2 h)
    -- a character with another one before it is further on in the text, or it ends the first pair
    have further {x : Char} {before : List Char}
        (hrest : crlf.expand cs = before ++ c :: after) :
        (c = '\r' → after.head? = some '\n') ∧ (c = '\n' → (x :: before).getLast? = some '\r') := by
      obtain ⟨hreturn, hfeed⟩ := ih hcs hrest
      refine ⟨hreturn, fun hc => ?_⟩
      rw [List.getLast?_cons, hfeed hc]
      rfl
    by_cases hfeed : d = '\n'
    · subst hfeed
      rw [expand_crlf_feed] at hwritten
      match before, hwritten with
      | [], hwritten =>
        obtain ⟨rfl, rfl⟩ := List.cons.inj hwritten
        exact ⟨fun _ => rfl, fun hc => absurd hc (by decide)⟩
      | [_], hwritten =>
        obtain ⟨rfl, hrest⟩ := List.cons.inj hwritten
        obtain ⟨rfl, -⟩ := List.cons.inj hrest
        exact ⟨fun hc => absurd hc (by decide), fun _ => rfl⟩
      | _ :: _ :: before, hwritten =>
        obtain ⟨hreturn, hlast⟩ := further (List.cons.inj (List.cons.inj hwritten).2).2
        exact ⟨hreturn, fun hc => by rw [List.getLast?_cons_cons]; exact hlast hc⟩
    · rw [expand_of_ne hfeed] at hwritten
      match before, hwritten with
      | [], hwritten =>
        obtain ⟨rfl, -⟩ := List.cons.inj hwritten
        exact ⟨fun hc => absurd hc.symm hd, fun hc => absurd hc hfeed⟩
      | _ :: before, hwritten => exact further (List.cons.inj hwritten).2

theorem expand_lf (cs : List Char) : lf.expand cs = cs := by
  induction cs with
  | nil => rfl
  | cons c cs ih =>
    rw [expand_cons, ih]
    by_cases hfeed : c = '\n'
    · rw [if_pos hfeed, hfeed]
      rfl
    · rw [if_neg hfeed]
      rfl

theorem toList_apply (k : LineEnd) (s : String) : (k.apply s).toList = k.expand (unify s.toList) :=
  String.toList_ofList

/-- What is written is the text after three replacements. -/
theorem toList_apply_eq_replaceAll (k : LineEnd) (s : String) : (k.apply s).toList =
    replaceAll ['\n'] k.chars (replaceAll ['\r'] ['\n'] (replaceAll crlf.chars ['\n'] s.toList)) := by
  rw [toList_apply, expand_eq_replaceAll, unify_eq_replaceAll]

theorem apply_apply (k : LineEnd) (s : String) : k.apply (k.apply s) = k.apply s := by
  have hunify : unify (k.apply s).toList = unify s.toList := by
    rw [toList_apply, unify_expand (return_notMem_unify _)]
  rw [apply, hunify, apply]

/-- The texts are the same when a line feed stands for each pair of them. -/
def SameLines (s t : String) : Prop :=
  replaceAll crlf.chars lf.chars s.toList = replaceAll crlf.chars lf.chars t.toList

theorem sameLines_apply (k k' : LineEnd) (s : String) : SameLines (k.apply s) (k'.apply s) := by
  have hlines (k : LineEnd) : replaceAll crlf.chars lf.chars (k.apply s).toList = unify s.toList := by
    rw [toList_apply, replaceAll_crlf_expand (return_notMem_unify _)]
  rw [SameLines, hlines, hlines]

end LineEnd

end RefSite
