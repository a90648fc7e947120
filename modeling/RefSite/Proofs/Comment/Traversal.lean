import RefSite.Comment.Markup
import RefSite.Proofs.Computations

namespace RefSite

/-- A part of a comment is of a kind that is not shown. -/
def Failure.IsCommentFault (f : Failure) : Prop := ∃ kind, f = .unsupportedComment kind

namespace Comment

namespace Node

mutual

/-- The nodes that are met in a node, in document order. Only a paragraph that can be shown as one
has more than itself: what stands in a node of another kind is not looked at. -/
def reached : Node → List Node
  | paragraph kind ns => paragraph kind ns :: if kind = paragraphKind then reachedIn ns else []
  | n => [n]

def reachedIn : List Node → List Node
  | [] => []
  | n :: ns => reached n ++ reachedIn ns

end

def isBreak (n : Node) : Bool := n.kind == softBreakKind

/-- The report of a link without an address. There is none of any other node. -/
def report? (origin : Log.Origin) : Node → Option Log.Entry
  | link kind _ url declaration =>
    if kind = linkKind ∧ url.truthy = false then
      some (missingLinkEntry origin declaration)
    else none
  | _ => none

/-- One report for each link without an address, in order. -/
def reports (origin : Log.Origin) (ns : List Node) : List Log.Entry :=
  ns.filterMap (report? origin)

theorem reports_append (origin : Log.Origin) (xs ys : List Node) :
    reports origin (xs ++ ys) = reports origin xs ++ reports origin ys :=
  List.filterMap_append

variable {n : Node}

theorem isSupported_of_ownKind (h : n.ownKind? = some n.kind) : n.isSupported = true := by
  rw [isSupported, h, beq_self_eq_true, Bool.or_true]

theorem isSupported_of_unmatched (h : n.ownKind? ≠ some n.kind) :
    n.isSupported = (n.kind == softBreakKind) := by
  rw [isSupported, beq_eq_false_iff_ne.2 h, Bool.or_false]

theorem report_of_unmatched (origin : Log.Origin) (h : n.ownKind? ≠ some n.kind) :
    n.report? origin = none := by
  cases n with
  | link kind label url declaration =>
    have hkind : kind ≠ linkKind := fun he => h (congrArg some he.symm)
    exact if_neg fun hc => hkind hc.1
  | _ => rfl

end Node

open Node

/-- The markup of a node that can be shown and is no line break. The markup of a paragraph has one
part for each of its nodes that is no line break. -/
inductive ShownAs : Node → Markup → Prop where
  | paragraph {ns : List Node} {ms : List Markup}
      (h : List.Forall₂ ShownAs (ns.filter fun n => !n.isBreak) ms) :
      ShownAs (.paragraph paragraphKind ns) (Markup.plain "p" (.block ms))
  | code (content : Value) :
      ShownAs (.code codeKind content) (Markup.plain "code" (Markup.ofValue content))
  | link {label url declaration : Value} (h : url.truthy = true) :
      ShownAs (.link linkKind label url declaration)
        (Markup.anchorOf (Markup.ofValue (firstGiven label url)) url .null)
  | unaddressed {label url declaration : Value} (h : url.truthy = false) :
      ShownAs (.link linkKind label url declaration)
        (Markup.anchorOf (Markup.ofValue (firstGiven label (.text missingLabel)))
          (.text missingHref) .null)
  | plain (text : Value) :
      ShownAs (.plain plainKind text) (Markup.plain "span" (Markup.ofValue text))

/-- The nodes that are no line breaks have one piece of markup each, in order. -/
def AreShownAs (ns : List Node) (ms : List Markup) : Prop :=
  List.Forall₂ ShownAs (ns.filter fun n => !n.isBreak) ms

theorem AreShownAs.append {xs ys : List Node} {as bs : List Markup} (hx : AreShownAs xs as)
    (hy : AreShownAs ys bs) : AreShownAs (xs ++ ys) (as ++ bs) := by
  unfold AreShownAs
  rw [List.filter_append]
  exact List.rel_append hx hy

theorem areShownAs_break {n : Node} (h : n.isBreak = true) : AreShownAs [n] [] := by
  unfold AreShownAs
  rw [List.filter_cons, h]
  exact .nil

/-- What holds of code, links and plain text, and of a paragraph when it holds of all in it, holds of
every node with its markup. -/
theorem ShownAs.induction {P : Node → Markup → Prop} {n : Node} {m : Markup} (h : ShownAs n m)
    (paragraph : ∀ {ns ms}, List.Forall₂ P (ns.filter fun n => !n.isBreak) ms →
      P (.paragraph paragraphKind ns) (Markup.plain "p" (.block ms)))
    (code : ∀ content, P (.code codeKind content) (Markup.plain "code" (Markup.ofValue content)))
    (link : ∀ {label url declaration}, url.truthy = true →
      P (.link linkKind label url declaration)
        (Markup.anchorOf (Markup.ofValue (firstGiven label url)) url .null))
    (unaddressed : ∀ {label url declaration}, url.truthy = false →
      P (.link linkKind label url declaration)
        (Markup.anchorOf (Markup.ofValue (firstGiven label (.text missingLabel)))
          (.text missingHref) .null))
    (plain : ∀ text, P (.plain plainKind text) (Markup.plain "span" (Markup.ofValue text))) :
    P n m :=
  @ShownAs.rec (fun n m _ => P n m) (fun ns ms _ => List.Forall₂ P ns ms) (fun _ ih => paragraph ih)
    code link unaddressed plain .nil (fun _ _ hm hms => .cons hm hms) n m h

theorem ShownAs.alone {n : Node} {m : Markup} (h : ShownAs n m) : AreShownAs [n] [m] := by
  have hbreak : n.isBreak = false := by cases h <;> rfl
  unfold AreShownAs
  rw [List.filter_cons, hbreak]
  exact .cons h .nil

/-- What comes of nodes that are met in the given order. Either all of them can be shown, with the
reports of all; or the first that cannot be is the failure, with the reports of those before it. -/
inductive Ending {α : Type} (origin : Log.Origin) (met : List Node) (wanted : α → Prop) :
    Logged α → Prop where
  | shown {a : α} (hmet : ∀ n ∈ met, n.isSupported = true) (ha : wanted a) :
      Ending origin met wanted ⟨reports origin met, .ok a⟩
  | stopped {before after : List Node} {n : Node} (hmet : met = before ++ n :: after)
      (hbefore : ∀ m ∈ before, m.isSupported = true) (hn : n.isSupported = false) :
      Ending origin met wanted ⟨reports origin before, .error (.unsupportedComment n.kind)⟩

namespace Ending

variable {α β : Type} {origin : Log.Origin} {met met' : List Node} {wanted : α → Prop}
  {wanted' : β → Prop}

theorem nothing {a : α} (ha : wanted a) : Ending origin [] wanted (pure a) :=
  .shown (fun _ h => nomatch h) ha

theorem bind {m : Logged α} {f : α → Logged β} (hm : Ending origin met wanted m)
    (hf : ∀ a, wanted a → Ending origin met' wanted' (f a)) :
    Ending origin (met ++ met') wanted' (m >>= f) := by
  cases hm with
  | stopped hmet hbefore hn =>
    rw [Logged.bind_error, hmet, List.append_assoc, List.cons_append]
    exact .stopped rfl hbefore hn
  | @shown a hmet ha =>
    have hrest := hf a ha
    rw [Logged.bind_ok]
    generalize f a = rest at hrest
    cases hrest with
    | shown hmet' hb =>
      rw [← reports_append]
      exact .shown (List.forall_mem_append.2 ⟨hmet, hmet'⟩) hb
    | @stopped before after n hmet' hbefore hn =>
      have hsplit : met ++ met' = (met ++ before) ++ n :: after := by
        rw [hmet', List.append_assoc]
      rw [← reports_append]
      exact .stopped hsplit (List.forall_mem_append.2 ⟨hmet, hbefore⟩) hn

/-- What is done with the result meets no more nodes. -/
theorem map {m : Logged α} {f : α → β} (hm : Ending origin met wanted m)
    (hf : ∀ a, wanted a → wanted' (f a)) :
    Ending origin met wanted' (m >>= fun a => pure (f a)) := by
  rw [← List.append_nil met]
  exact hm.bind fun a ha => .nothing (hf a ha)

/-- A node that is not reported and can be shown may come before the others. -/
theorem cons {n : Node} {m : Logged α} (hn : n.isSupported = true)
    (hreport : n.report? origin = none) (hm : Ending origin met wanted m) :
    Ending origin (n :: met) wanted m := by
  have hreports (ns : List Node) : reports origin (n :: ns) = reports origin ns := by
    rw [reports, List.filterMap_cons, hreport]
    rfl
  cases hm with
  | shown hmet ha =>
    rw [← hreports]
    exact .shown (List.forall_mem_cons.2 ⟨hn, hmet⟩) ha
  | stopped hmet hbefore hn' =>
    rw [← hreports, hmet]
    exact .stopped rfl (List.forall_mem_cons.2 ⟨hn, hbefore⟩) hn'

theorem meets {m : Logged α} (h : Ending origin met wanted m) :
    Meets Failure.IsCommentFault wanted m.result := by
  cases h with
  | shown _ ha => exact ha
  | @stopped _ _ n _ _ _ => exact ⟨n.kind, rfl⟩

/-- A node whose kind does not go with its content is left out or ends the work. -/
theorem of_unmatched {n : Node} (h : n.ownKind? ≠ some n.kind) :
    Ending origin [n] (fun m? : Option Markup => AreShownAs [n] m?.toList)
      (unmatched n.kind) := by
  have hsupported := isSupported_of_unmatched h
  unfold unmatched
  split
  · next hkind =>
    rw [hkind, beq_self_eq_true] at hsupported
    have hbreak : n.isBreak = true := beq_iff_eq.2 hkind
    exact .cons hsupported (report_of_unmatched origin h) (.nothing (areShownAs_break hbreak))
  · next hkind =>
    rw [beq_eq_false_iff_ne.2 hkind] at hsupported
    have hbefore : ∀ m ∈ ([] : List Node), m.isSupported = true := fun _ hm => nomatch hm
    exact .stopped rfl hbefore hsupported

/-- A node with one piece of markup and without a report. -/
theorem of_shown {n : Node} {m : Markup} (hown : n.ownKind? = some n.kind)
    (hreport : n.report? origin = none) (h : ShownAs n m) :
    Ending origin [n] (fun m? : Option Markup => AreShownAs [n] m?.toList) (pure (some m)) :=
  .cons (isSupported_of_ownKind hown) hreport (.nothing h.alone)

end Ending

variable {origin : Log.Origin}

theorem ending_linkMarkup {label url declaration : Value} :
    Ending origin [link linkKind label url declaration]
      (fun m => ShownAs (link linkKind label url declaration) m)
      (linkMarkup origin label url declaration) := by
  have hsupported : (link linkKind label url declaration).isSupported = true :=
    isSupported_of_ownKind rfl
  unfold linkMarkup
  cases hurl : url.truthy with
  | true =>
    have hreport : (link linkKind label url declaration).report? origin = none :=
      if_neg fun hc => Bool.noConfusion (hurl.symm.trans hc.2)
    exact .cons hsupported hreport (.nothing (.link hurl))
  | false =>
    have hreport : reports origin [link linkKind label url declaration] =
        [missingLinkEntry origin declaration] := by
      simp [reports, report?, hurl]
    have hrun : (Logged.report (missingLinkEntry origin declaration) >>= fun _ =>
        pure (Markup.anchorOf (Markup.ofValue (firstGiven label (.text missingLabel)))
          (.text missingHref) .null)) =
        ⟨reports origin [link linkKind label url declaration], .ok (Markup.anchorOf
          (Markup.ofValue (firstGiven label (.text missingLabel))) (.text missingHref) .null)⟩ := by
      rw [hreport]
      rfl
    simp only [Bool.false_eq_true, if_false]
    rw [hrun]
    exact .shown (List.forall_mem_singleton.2 hsupported) (.unaddressed hurl)

mutual

theorem ending_nodeMarkup (n : Node) :
    Ending origin n.reached (fun m? => AreShownAs [n] m?.toList) (nodeMarkup origin n) := by
  have hne {kind own : String} (hkind : kind ≠ own) : some own ≠ some kind :=
    fun he => hkind (Option.some.inj he).symm
  cases n with
  | bare kind => exact .of_unmatched (n := bare kind) nofun
  | softBreak kind =>
    by_cases hkind : kind = softBreakKind
    · subst hkind
      rw [nodeMarkup_softBreak]
      exact .cons rfl rfl (.nothing (areShownAs_break rfl))
    · exact .of_unmatched (n := softBreak kind) (hne hkind)
  | paragraph kind ns =>
    rw [reached, nodeMarkup]
    split
    · next hkind =>
      subst hkind
      -- the paragraph is met first, and then the nodes in it
      have hns := ending_nodesMarkup ns
      refine .cons (isSupported_of_ownKind rfl) rfl (hns.map fun ms hms => ?_)
      exact (ShownAs.paragraph hms).alone
    · next hkind => exact .of_unmatched (n := paragraph kind ns) (hne hkind)
  | code kind content =>
    rw [nodeMarkup]
    split
    · next hkind =>
      subst hkind
      exact .of_shown (n := code codeKind content) rfl rfl (.code content)
    · next hkind => exact .of_unmatched (n := code kind content) (hne hkind)
  | link kind label url declaration =>
    rw [nodeMarkup]
    split
    · next hkind =>
      subst hkind
      exact ending_linkMarkup.map fun m hm => hm.alone
    · next hkind => exact .of_unmatched (n := link kind label url declaration) (hne hkind)
  | plain kind text =>
    rw [nodeMarkup]
    split
    · next hkind =>
      subst hkind
      exact .of_shown (n := plain plainKind text) rfl rfl (.plain text)
    · next hkind => exact .of_unmatched (n := plain kind text) (hne hkind)

theorem ending_nodesMarkup (ns : List Node) :
    Ending origin (reachedIn ns) (AreShownAs ns) (nodesMarkup origin ns) := by
  cases ns with
  | nil =>
    rw [nodesMarkup_nil, reachedIn]
    exact .nothing .nil
  | cons n ns =>
    rw [reachedIn, nodesMarkup]
    refine (ending_nodeMarkup n).bind fun m? hm => ?_
    exact (ending_nodesMarkup ns).map fun ms hms => hm.append hms

end

/-- Nodes are shown as their markup, unless one of them is of a kind that is not shown. -/
theorem meets_areShownAs (origin : Log.Origin) (ns : List Node) :
    Meets Failure.IsCommentFault (AreShownAs ns) (nodesMarkup origin ns).result :=
  (ending_nodesMarkup ns).meets

/-- Nodes one after the other are shown one after the other, whether or not all of them can be. -/
theorem nodesMarkup_append (origin : Log.Origin) (xs ys : List Node) :
    nodesMarkup origin (xs ++ ys) =
      nodesMarkup origin xs >>= fun before => nodesMarkup origin ys >>= fun after =>
        pure (before ++ after) := by
  induction xs with
  | nil =>
    rw [nodesMarkup_nil, Logged.pure_bind]
    exact (Logged.bind_pure _).symm
  | cons n ns ih =>
    rw [List.cons_append, nodesMarkup, nodesMarkup, ih]
    simp only [Logged.bind_assoc, Logged.pure_bind, List.append_assoc]

/-- Nodes of comments are shown in document order. If all nodes that are met can be shown, each one
that is no line break has its markup, in order and inside paragraphs as well, the two parts of a list
have the two parts of the markup, and there is one report for each link without an address, also
where what it names instead cannot be written. Otherwise the first node that cannot be shown is the
failure, and the reports are those of the links before it. -/
theorem nodes_are_shown_in_document_order (origin : Log.Origin) (ns : List Node) :
    ((∀ n ∈ reachedIn ns, n.isSupported = true) →
      ∃ ms, nodesMarkup origin ns = ⟨reports origin (reachedIn ns), .ok ms⟩ ∧
        List.Forall₂ ShownAs (ns.filter fun n => !n.isBreak) ms ∧
        ∀ xs ys, ns = xs ++ ys → ∃ as bs, (nodesMarkup origin xs).result = .ok as ∧
          (nodesMarkup origin ys).result = .ok bs ∧ ms = as ++ bs) ∧
    ((∃ n ∈ reachedIn ns, n.isSupported = false) →
      ∃ before n after, reachedIn ns = before ++ n :: after ∧
        (∀ m ∈ before, m.isSupported = true) ∧ n.isSupported = false ∧
        nodesMarkup origin ns = ⟨reports origin before, .error (.unsupportedComment n.kind)⟩) := by
  have hending : Ending origin (reachedIn ns) (AreShownAs ns) (nodesMarkup origin ns) :=
    ending_nodesMarkup ns
  generalize hrun : nodesMarkup origin ns = run at hending
  cases hending with
  | @shown ms hmet hms =>
    constructor
    · intro _
      refine ⟨ms, rfl, hms, fun xs ys hsplit => ?_⟩
      have happend := nodesMarkup_append origin xs ys
      rw [← hsplit, hrun] at happend
      have hresult := congrArg Logged.result happend.symm
      obtain ⟨as, has, hrest⟩ := Logged.bind_eq_ok.1 hresult
      obtain ⟨bs, hbs, hmsEq⟩ := Logged.bind_eq_ok.1 hrest
      cases hmsEq
      exact ⟨as, bs, has, hbs, rfl⟩
    · rintro ⟨n, hn, hunsupported⟩
      rw [hmet n hn] at hunsupported
      exact nomatch hunsupported
  | @stopped before after n hmet hbefore hn =>
    constructor
    · intro hall
      have hmem : n ∈ reachedIn ns := hmet ▸ List.mem_append_right _ List.mem_cons_self
      rw [hall n hmem] at hn
      exact nomatch hn
    · intro _
      exact ⟨before, n, after, hmet, hbefore, hn, rfl⟩

/-- Two paragraphs with the same link, which names a declaration. In the second an unknown node
stands before it. -/
def remark : List Node :=
  let link : Node := .link linkKind .null .null (.text "Dial.turn")
  [.paragraph paragraphKind [.plain plainKind (.text "See "), .softBreak softBreakKind, link],
    .paragraph paragraphKind [.bare "Table", link]]

/-- The first paragraph alone is shown. With the second one the unknown node is the failure, and its
kind is told. Both times the link is reported once. -/
theorem unknown_node_after_link :
    let entry := missingLinkEntry .comments (.text "Dial.turn")
    (∃ m, nodesMarkup .comments (remark.take 1) = ⟨[entry], .ok [m]⟩) ∧
      nodesMarkup .comments remark = ⟨[entry], .error (.unsupportedComment "Table")⟩ ∧
      ∃ before n, before ++ [n] <+: reachedIn remark ∧ n.kind = "Table" ∧
        reports .comments before = [entry] := by
  intro entry
  refine ⟨?_, rfl, ?_⟩
  · obtain ⟨ms, hrun, hms, -⟩ :=
      (nodes_are_shown_in_document_order .comments (remark.take 1)).1 (by decide)
    obtain ⟨m, rfl⟩ := List.length_eq_one_iff.1 hms.length_eq.symm
    exact ⟨m, hrun⟩
  · obtain ⟨before, n, after, hmet, -, -, hrun⟩ :=
      (nodes_are_shown_in_document_order .comments remark).2 (by decide)
    have hlog : [entry] = reports .comments before := congrArg Logged.log hrun
    have hkind : .error (.unsupportedComment "Table") =
        (.error (.unsupportedComment n.kind) : Except Failure (List Markup)) :=
      congrArg Logged.result hrun
    refine ⟨before, n, ⟨after, ?_⟩, ?_, hlog.symm⟩
    · rw [hmet, List.append_assoc]
      rfl
    · exact (Failure.unsupportedComment.inj (Except.error.inj hkind)).symm

end Comment

end RefSite
