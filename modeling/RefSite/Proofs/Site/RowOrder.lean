import RefSite.Proofs.Site.Rows
import RefSite.Proofs.Site.Showing
import RefSite.Proofs.Site.Shown

namespace RefSite

open Markup

/-- What is put together from one part for each element can be put together in any order. -/
theorem exists_perm_of_parts {α β : Type} {part : α → List β → Prop} (whole : List α → List β → Prop)
    (hcons : ∀ a as bs, whole (a :: as) bs ↔ ∃ b, part a b ∧ ∃ rest, whole as rest ∧ bs = b ++ rest)
    {as as' : List α} (hp : as'.Perm as) {bs : List β} (h : whole as bs) :
    ∃ bs', whole as' bs' ∧ bs'.Perm bs := by
  -- the parts are moved as the elements are
  induction hp generalizing bs with
  | nil => exact ⟨bs, h, .refl _⟩
  | cons a _ ih =>
    obtain ⟨b, hb, rest, hrest, rfl⟩ := (hcons _ _ _).1 h
    obtain ⟨rest', hrest', hperm⟩ := ih hrest
    exact ⟨b ++ rest', (hcons _ _ _).2 ⟨b, hb, rest', hrest', rfl⟩, hperm.append_left b⟩
  | swap a a' as =>
    obtain ⟨b, hb, bs, hbs, rfl⟩ := (hcons _ _ _).1 h
    obtain ⟨b', hb', rest, hrest, rfl⟩ := (hcons _ _ _).1 hbs
    have hswapped : whole (a' :: a :: as) (b' ++ (b ++ rest)) :=
      (hcons _ _ _).2 ⟨b', hb', _, (hcons _ _ _).2 ⟨b, hb, rest, hrest, rfl⟩, rfl⟩
    refine ⟨_, hswapped, ?_⟩
    rw [← List.append_assoc, ← List.append_assoc]
    exact List.perm_append_comm.append_right rest
  | trans _ _ ih₁ ih₂ =>
    obtain ⟨bs₁, h₁, hperm₁⟩ := ih₂ h
    obtain ⟨bs₂, h₂, hperm₂⟩ := ih₁ h₁
    exact ⟨bs₂, h₂, hperm₂.trans hperm₁⟩

namespace Page

variable {origin : Log.Origin} {root root' : Place} {k : Kind} {q q' : Placed} {ms ms' : List Placed}
  {rs rs' : List (Section × Markup)} {c : Config} {content : List Markup}

/-- The rows of a list of members are those of the first one and those of the others. -/
theorem rows_cons_eq_ok (m : Placed) (ms : List Placed) (rs : List (Section × Markup)) :
    (rows origin k (m :: ms)).result = .ok rs ↔ ∃ r, (rows origin k [m]).result = .ok r ∧
      ∃ rest, (rows origin k ms).result = .ok rest ∧ rs = r ++ rest := by
  rw [rows, rows]
  split
  · constructor
    · intro h
      cases h
    · rintro ⟨r, hr, -⟩
      cases hr
  split
  · refine ⟨fun h => ⟨[], by rw [rows]; rfl, rs, h, rfl⟩, fun h => ?_⟩
    obtain ⟨r, hr, rest, hrest, rfl⟩ := h
    rw [rows] at hr
    cases hr
    exact hrest
  · next t _ =>
    simp only [Logged.bind_eq_ok, rows]
    constructor
    · rintro ⟨cs, hcs, rest, hrest, h⟩
      cases h
      exact ⟨[(t, Markup.row cs)], ⟨cs, hcs, [], rfl, rfl⟩, rest, hrest, rfl⟩
    · rintro ⟨r, ⟨cs, hcs, none, hnone, hr⟩, rest, hrest, rfl⟩
      cases hnone
      cases hr
      exact ⟨cs, hcs, rest, hrest, rfl⟩

theorem rows_perm (hp : ms'.Perm ms) (h : (rows origin k ms).result = .ok rs) :
    ∃ rs', (rows origin k ms').result = .ok rs' ∧ rs'.Perm rs :=
  exists_perm_of_parts (fun ms rs => (rows origin k ms).result = .ok rs) rows_cons_eq_ok hp h

/-- What a page says is put together from parts, each of which may fail. -/
theorem main_eq_ok (hk : q.self.kind.kind? = some k) :
    (main origin root q).result = .ok content ↔ ∃ title about first ts last,
      (expectNameable (root :: trail q.place)).result = .ok () ∧
      (heading origin q.place).result = .ok title ∧
      (summary origin q.self).result = .ok about ∧
      (if hasRemarksFirst k then remarks origin q.self else pure []).result = .ok first ∧
      (body origin k q).result = .ok ts ∧
      (if hasRemarksFirst k then pure [] else remarks origin q.self).result = .ok last ∧
      content = breadcrumb root q.place ++ [classed "h1" "page-header" (Markup.text title)] ++
        betaNotice q.self ++ about ++ signature q.self ++ first ++ ts ++ last := by
  -- wherever the remarks stand, the parts are put together in the same way
  have both (m m' : Logged (List Markup)) : (do
      expectNameable (root :: trail q.place)
      let title ← heading origin q.place
      let about ← summary origin q.self
      let first ← m
      let ts ← body origin k q
      let last ← m'
      return breadcrumb root q.place ++ [classed "h1" "page-header" (Markup.text title)] ++
        betaNotice q.self ++ about ++ signature q.self ++ first ++ ts ++ last).result = .ok content ↔
      ∃ title about first ts last, (expectNameable (root :: trail q.place)).result = .ok () ∧
        (heading origin q.place).result = .ok title ∧ (summary origin q.self).result = .ok about ∧
        m.result = .ok first ∧ (body origin k q).result = .ok ts ∧ m'.result = .ok last ∧
        content = breadcrumb root q.place ++ [classed "h1" "page-header" (Markup.text title)] ++
          betaNotice q.self ++ about ++ signature q.self ++ first ++ ts ++ last := by
    simp only [Logged.bind_eq_ok]
    constructor
    · rintro ⟨_, hnames, title, htitle, about, habout, first, hfirst, ts, hts, last, hlast, hc⟩
      cases hc
      exact ⟨title, about, first, ts, last, hnames, htitle, habout, hfirst, hts, hlast, rfl⟩
    · rintro ⟨title, about, first, ts, last, hnames, htitle, habout, hfirst, hts, hlast, rfl⟩
      exact ⟨_, hnames, title, htitle, about, habout, first, hfirst, ts, hts, last, hlast, rfl⟩
  unfold main
  rw [hk]
  simp only [Logged.pure_bind]
  cases hasRemarksFirst k with
  | true => exact both (remarks origin q.self) (pure [])
  | false => exact both (pure []) (remarks origin q.self)

/-- What is around the tables of a page does not depend on them. -/
theorem main_of_body (hf : FramesAgree origin root root' q q') (hk : q.self.kind.kind? = some k)
    (h : (main origin root q).result = .ok content) :
    ∃ before ts after, (body origin k q).result = .ok ts ∧ content = before ++ ts ++ after ∧
      ∀ ts', (body origin k q').result = .ok ts' →
        (main origin root' q').result = .ok (before ++ ts' ++ after) := by
  obtain ⟨title, about, first, ts, last, hnames, htitle, habout, hfirst, hts, hlast, rfl⟩ :=
    (main_eq_ok hk).1 h
  refine ⟨_, ts, last, hts, rfl, fun ts' hts' => ?_⟩
  have hk' : q'.self.kind.kind? = some k := by rw [hf.kind, hk]
  rw [main_eq_ok hk', hf.names, hf.heading, hf.summary, hf.remarks, hf.notice, hf.signature, hf.trail]
  exact ⟨title, about, first, ts', last, hnames, htitle, habout, hfirst, hts', hlast, rfl⟩

/-- The tables of a page are those of its rows, whatever comes after them. -/
theorem body_eq_ok {ts : List Markup} (h : (body origin k q).result = .ok ts) :
    ∃ rs after, (∀ r ∈ rs, r.1 ∈ Section.allOn k) ∧ ts = tables k rs ++ after ∧
      ∀ {ms q'}, parameterTable q'.self = parameterTable q.self → (q'.listed k).Perm ms →
        rows origin k ms = rows origin k (q.listed k) →
          ∃ rs', rs'.Perm rs ∧ (body origin k q').result = .ok (tables k rs' ++ after) := by
  rw [body] at h
  -- a page without tables of members has the table of its parameters at most
  cases hnone : (Section.allOn k).isEmpty with
  | true =>
    rw [hnone] at h
    cases h
    refine ⟨[], _, List.forall_mem_nil _, rfl, fun {ms q'} hparameters _ _ => ⟨[], .nil, ?_⟩⟩
    rw [body, hnone, hparameters]
    rfl
  | false =>
    simp only [hnone, Bool.false_eq_true, if_false] at h
    obtain ⟨rs, hrs, h⟩ := Logged.bind_eq_ok.1 h
    cases h
    refine ⟨rs, _, (hrefs_rows "" hrs).1, rfl, fun {ms q'} hparameters hlisted hrows => ?_⟩
    rw [← hrows] at hrs
    obtain ⟨rs', hrs', hperm⟩ := rows_perm hlisted hrs
    refine ⟨rs', hperm, ?_⟩
    simp only [body, hnone, Bool.false_eq_true, if_false, hparameters]
    exact Logged.bind_eq_ok.2 ⟨rs', hrs', rfl⟩

/-- A page that lists its members in another order has the same rows in another order. -/
theorem main_reordered (hf : FramesAgree origin root root' q q') (hk : q.self.kind.kind? = some k)
    (hlisted : (q'.listed k).Perm ms) (hrows : rows origin k ms = rows origin k (q.listed k))
    (h : (main origin root q).result = .ok content) :
    ∃ before rs rs' after, (∀ r ∈ rs, r.1 ∈ Section.allOn k) ∧ rs'.Perm rs ∧
      content = before ++ tables k rs ++ after ∧
        (main origin root' q').result = .ok (before ++ tables k rs' ++ after) := by
  obtain ⟨before, ts, after, hts, rfl, hmain⟩ := main_of_body hf hk h
  obtain ⟨rs, later, hall, rfl, hbody⟩ := body_eq_ok hts
  obtain ⟨rs', hperm, hts'⟩ := hbody hf.parameters hlisted hrows
  refine ⟨before, rs, rs', later ++ after, hall, hperm, ?_, ?_⟩
  · simp only [List.append_assoc]
  · rw [hmain _ hts']
    simp only [List.append_assoc]

theorem renders_of_titled {title : String} {headings : List String} {ms : List Markup}
    (h : ∀ m ∈ titled title headings ms, m.Renders) : ∀ m ∈ ms, m.Renders := by
  unfold titled at h
  split at h
  · next hnone =>
    rw [List.isEmpty_iff.1 hnone]
    exact List.forall_mem_nil _
  · have htable := h _ (List.mem_cons_of_mem _ List.mem_cons_self)
    exact (List.forall_mem_cons.1 (renders_of_block htable)).2

/-- When the tables of a page have texts, all rows have. -/
theorem renders_of_tables (hall : ∀ r ∈ rs, r.1 ∈ Section.allOn k)
    (h : ∀ m ∈ tables k rs, m.Renders) : ∀ r ∈ rs, r.2.Renders := by
  intro r hr
  have htable : ∀ m ∈ titled r.1.title r.1.headings (rowsOf r.1 rs), m.Renders :=
    fun m hm => h m (List.mem_flatMap.2 ⟨r.1, hall r hr, hm⟩)
  exact renders_of_titled htable r.2 (List.mem_map.2 ⟨r, List.mem_filter.2 ⟨hr, by simp⟩, rfl⟩)

theorem renders_of_tree (h : (tree c content).Renders) : ∀ m ∈ content, m.Renders := by
  have hbody := renders_of_block h _ (List.mem_cons_of_mem _ List.mem_cons_self)
  have hmain := renders_of_block hbody _ (List.mem_cons_of_mem _ List.mem_cons_self)
  exact renders_of_block hmain

/-- Whether a page has a text does not depend on the order of its rows. -/
theorem renders_reordered {before after : List Markup} (hall : ∀ r ∈ rs, r.1 ∈ Section.allOn k)
    (hperm : rs'.Perm rs) (h : (tree c (before ++ tables k rs ++ after)).Renders) :
    (tree c (before ++ tables k rs' ++ after)).Renders := by
  obtain ⟨hfirst, hafter⟩ := List.forall_mem_append.1 (renders_of_tree h)
  obtain ⟨hbefore, htables⟩ := List.forall_mem_append.1 hfirst
  have hrows : ∀ r ∈ rs', r.2.Renders :=
    fun r hr => renders_of_tables hall htables r (hperm.mem_iff.1 hr)
  apply renders_tree
  exact List.forall_mem_append.2
    ⟨List.forall_mem_append.2 ⟨hbefore, renders_tables k hrows⟩, hafter⟩

theorem rowsOf_perm (hperm : rs'.Perm rs) (t : Section) : (rowsOf t rs').Perm (rowsOf t rs) :=
  (hperm.filter _).map _

end Page

namespace Site

variable {Event : Type} {s : Site Event} {q : Placed} {content : List Markup}

theorem shows_of_main (hmain : (Page.main s.origin s.model.place q).result = .ok content)
    (htree : (Page.tree s.config content).Renders) : s.Shows q content := by
  obtain ⟨t, ht⟩ := htree
  refine ⟨hmain, t, ht, Logged.bind_eq_ok.2 ⟨content, hmain, ?_⟩⟩
  unfold Page.tree at ht
  rw [renderDocument, ht]
  rfl

/-- The two pages are the same up to the order of the rows in their tables. -/
def SameButRowOrder (s s' : Site Event) (q q' : Placed) : Prop :=
  ∃ k before rs rs' after, q.self.kind.kind? = some k ∧
    s.Shows q (before ++ Page.tables k rs ++ after) ∧
    s'.Shows q' (before ++ Page.tables k rs' ++ after) ∧
    ∀ t, (Page.rowsOf t rs').Perm (Page.rowsOf t rs)

theorem Shows.reordered {s' : Site Event} {q' : Placed} {k : Kind} {ms : List Placed}
    (h : s.Shows q content) (hconfig : s'.config = s.config) (horigin : s'.origin = s.origin)
    (hf : Page.FramesAgree s.origin s.model.place s'.model.place q q')
    (hk : q.self.kind.kind? = some k) (hlisted : (q'.listed k).Perm ms)
    (hrows : Page.rows s.origin k ms = Page.rows s.origin k (q.listed k)) :
    SameButRowOrder s s' q q' := by
  obtain ⟨before, rs, rs', after, hall, hperm, rfl, hmain⟩ :=
    Page.main_reordered hf hk hlisted hrows h.main
  obtain ⟨t, ht, -⟩ := h.text
  refine ⟨k, before, rs, rs', after, hk, h, shows_of_main ?_ ?_, Page.rowsOf_perm hperm⟩
  · rw [horigin]
    exact hmain
  · rw [hconfig]
    exact Page.renders_reordered hall hperm ⟨t, ht⟩

end Site

end RefSite
