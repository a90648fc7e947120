import RefSite.Proofs.Comment.Reading
import RefSite.Proofs.Comment.Traversal
import RefSite.Proofs.Markup.Renders

namespace RefSite

namespace Comment

open Markup

/-- The link has a text to be clicked on, and its address can be written if it has one. -/
def ShowsLink (label url : Value) : Prop :=
  if url.truthy then (∃ s, firstGiven label url = .text s) ∧ ∃ s, url.written? = some s
  else ∃ s, firstGiven label (.text missingLabel) = .text s

namespace Node

/-- If the node is a link, it is one that can be shown. -/
def HasShowableLink : Node → Prop
  | link _ label url _ => ShowsLink label url
  | _ => True

/-- The nodes at the ends hold what can be shown. -/
def AreShowable (ns : List Node) : Prop := ∀ l ∈ ns, l.IsTyped ∧ l.HasShowableLink

/-- The ends of a node are among those of the nodes that it is one of. -/
theorem areShowable_of_mem {n : Node} {ns : List Node} (hn : n ∈ ns)
    (h : AreShowable (leavesOf ns)) : AreShowable n.leaves := by
  induction ns with
  | nil => exact nomatch hn
  | cons n' ns ih =>
    rw [leavesOf] at h
    obtain ⟨hfirst, hrest⟩ := List.forall_mem_append.1 h
    obtain rfl | hn := List.mem_cons.1 hn
    · exact hfirst
    · exact ih hn hrest

end Node

/-- What nodes are shown as has a text when the nodes at their ends hold what can be shown. -/
theorem ShownAs.renders {n : Node} {m : Markup} (h : ShownAs n m) :
    Node.AreShowable n.leaves → m.Renders := by
  -- a node without nodes in it is its own and only end
  have self {n : Node} (hleaf : n.leaves = [n]) (hn : Node.AreShowable n.leaves) :
      n.IsTyped ∧ n.HasShowableLink := by
    rw [hleaf] at hn
    exact hn n (List.mem_singleton.2 rfl)
  apply h.induction (P := fun n m => Node.AreShowable n.leaves → m.Renders)
  case paragraph =>
    intro ns ms hms hns
    rw [Node.leaves] at hns
    refine renders_plain_block "p" fun m hm => ?_
    obtain ⟨n, hn, hrenders⟩ := exists_of_mem_right hms hm
    exact hrenders (Node.areShowable_of_mem (List.mem_of_mem_filter hn) hns)
  case code =>
    intro content hn
    obtain ⟨s, rfl⟩ := (self rfl hn).1
    exact renders_plain_text "code" s
  case link =>
    intro label url declaration hurl hn
    have hlink : ShowsLink label url := (self rfl hn).2
    rw [ShowsLink, if_pos hurl] at hlink
    obtain ⟨⟨s, hs⟩, t, ht⟩ := hlink
    rw [hs]
    exact renders_anchorOf ht
  case unaddressed =>
    intro label url declaration hurl hn
    have hlink : ShowsLink label url := (self rfl hn).2
    rw [ShowsLink, hurl, if_neg Bool.false_ne_true] at hlink
    obtain ⟨s, hs⟩ := hlink
    rw [hs]
    exact renders_anchorOf rfl
  case plain =>
    intro content hn
    obtain ⟨s, rfl⟩ := (self rfl hn).1
    exact renders_plain_text "span" s

theorem meets_nodesMarkup (origin : Log.Origin) (ns : List Node)
    (h : Node.AreShowable (Node.leavesOf ns)) :
    Meets Failure.IsCommentFault (fun ms => ∀ m ∈ ms, m.Renders)
      (nodesMarkup origin ns).result := by
  refine (meets_areShownAs origin ns).imp fun ms hms m hm => ?_
  obtain ⟨n, hn, hshown⟩ := exists_of_mem_right hms hm
  exact hshown.renders (Node.areShowable_of_mem (List.mem_of_mem_filter hn) h)

/-- All parts of the comment hold what can be shown. -/
def IsShowable (c : Comment) : Prop :=
  Node.AreShowable (Node.leavesOf c.summary) ∧
    ∀ ns, c.remarks = some ns → Node.AreShowable (Node.leavesOf ns)

/-- All links of the comment can be shown. -/
def HasShowableLinks (c : Comment) : Prop :=
  (∀ l ∈ Node.leavesOf c.summary, l.HasShowableLink) ∧
    ∀ ns, c.remarks = some ns → ∀ l ∈ Node.leavesOf ns, l.HasShowableLink

/-- In a comment that was read only links can be such that they are not shown. -/
theorem IsTyped.isShowable {c : Comment} (h : c.IsTyped) (hlinks : c.HasShowableLinks) :
    c.IsShowable :=
  ⟨fun l hl => ⟨h.1 l hl, hlinks.1 l hl⟩,
    fun ns hns l hl => ⟨h.2 ns hns l hl, hlinks.2 ns hns l hl⟩⟩

end Comment

end RefSite
