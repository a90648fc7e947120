import RefSite.Comment.Decode
import RefSite.Proofs.Value.Parts

namespace RefSite.Comment

namespace Node

mutual

/-- The nodes at the ends of a tree of nodes, from left to right. -/
def leaves : Node → List Node
  | paragraph _ ns => leavesOf ns
  | n => [n]

def leavesOf : List Node → List Node
  | [] => []
  | n :: ns => leaves n ++ leavesOf ns

end

/-- The content of code and of plain text is a text. -/
def IsTyped : Node → Prop
  | code _ content | plain _ content => ∃ s, content = .text s
  | _ => True

def AreTyped (ns : List Node) : Prop := ∀ n ∈ leavesOf ns, n.IsTyped

theorem areTyped_nil : AreTyped [] := fun _ h => nomatch h

theorem areTyped_cons {n : Node} {ns : List Node} (hn : ∀ l ∈ n.leaves, l.IsTyped)
    (hns : AreTyped ns) : AreTyped (n :: ns) := by
  intro l hl
  rw [leavesOf, List.mem_append] at hl
  exact hl.elim (hn l) (hns l)

end Node

open Value

variable {es : Entries}

theorem areTyped_shorthand (s : String) : Node.AreTyped (shorthand s) := by
  intro l hl
  simp only [shorthand, Node.leavesOf, Node.leaves, List.append_nil, List.mem_singleton] at hl
  subst hl
  exact ⟨s, rfl⟩

theorem meets_leafOfEntries (es : Entries) :
    Meets (map es).ReadingFault (fun n => ∀ l ∈ n.leaves, l.IsTyped) (leafOfEntries es) := by
  have written (key : String) :
      Meets (map es).ReadingFault (fun _ => True) (es.field key).writeOrEmpty :=
    meets_field (meets_writeOr _ _)
  have single {n : Node} (hn : n.leaves = [n]) (ht : n.IsTyped) : ∀ l ∈ n.leaves, l.IsTyped := by
    rw [hn]
    exact List.forall_mem_singleton.2 ht
  unfold leafOfEntries
  split
  · exact single rfl trivial
  split
  · exact (written "code").map fun s _ => single rfl ⟨s, rfl⟩
  split
  · exact single rfl trivial
  split
  · exact (written "text").map fun s _ => single rfl ⟨s, rfl⟩
  · exact (meets_field (meets_write (es.field "kind"))).map fun s _ => single rfl trivial

theorem meets_givenNodesOf_field (source : Option Path) (key : String) (hkey : key ∈ elementKeys)
    (h : Meets (es.field key).ElementFault Node.AreTyped (nodesOf source (es.field key))) :
    Meets (map es).ReadingFault Node.AreTyped (givenNodesOf source (es.field key)) := by
  rw [givenNodesOf]
  split
  · next hgiven => exact h.mono fun f hf => hf.of_given hkey hgiven
  · exact Node.areTyped_nil

mutual

theorem meets_nodeOfValue (source : Option Path) (v : Value) :
    Meets v.ReadingFault (fun n => ∀ l ∈ n.leaves, l.IsTyped) (nodeOfValue source v) := by
  rw [nodeOfValue]
  have he := meets_entriesOr v (.commentNodeNotMapping source v)
  split
  · next f h =>
    rw [h] at he
    exact he
  · next es h =>
    rw [h] at he
    -- the nodes are nested less deeply than the mapping
    have hdepth : (es.field "nodes").depth < v.depth :=
      Nat.lt_of_le_of_lt (depth_field_le es "nodes") (depthEntries_of_entriesOr h)
    split
    · have hnodes := meets_givenNodesOf_field source "nodes" (by decide)
        (meets_nodesOf source (es.field "nodes"))
      split
      · next ns hns =>
        rw [hns] at hnodes
        exact hnodes
      · next f hf =>
        rw [hf] at hnodes
        exact he f hnodes
    · exact (meets_leafOfEntries es).mono he
termination_by (v.depth, 0, 0)
decreasing_by
  simp [Prod.lex_def]; omega

theorem meets_nodesOf (source : Option Path) (v : Value) :
    Meets v.ElementFault Node.AreTyped (nodesOf source v) := by
  by_cases htext : ∃ s, v = text s
  · obtain ⟨s, rfl⟩ := htext
    rw [nodesOf]
    exact areTyped_shorthand s
  · rw [nodesOf]
    · have hv := meets_elements v
      split
      · next xs h =>
        rw [h] at hv
        have hdepth : depthAll xs ≤ v.depth := depthAll_of_elements h
        refine (meets_nodesOfValues source xs).mono fun f hf => ?_
        obtain ⟨x, hx, hf⟩ := hf
        exact .inl (hv x hx f hf)
      · next f h =>
        rw [h] at hv
        exact hv
    · exact fun s h => htext ⟨s, h⟩
termination_by (v.depth, 2, 0)
decreasing_by
  simp [Prod.lex_def]; omega

theorem meets_nodesOfValues (source : Option Path) (vs : List Value) :
    Meets (fun f => ∃ v ∈ vs, v.ReadingFault f) Node.AreTyped (nodesOfValues source vs) := by
  cases vs with
  | nil =>
    rw [nodesOfValues]
    exact Node.areTyped_nil
  | cons v vs =>
    rw [nodesOfValues]
    have hv := meets_nodeOfValue source v
    have hvs := meets_nodesOfValues source vs
    cases hn : nodeOfValue source v with
    | error f =>
      rw [hn] at hv
      exact ⟨v, List.mem_cons_self, hv⟩
    | ok n =>
      rw [hn] at hv
      cases hns : nodesOfValues source vs with
      | error f =>
        rw [hns] at hvs
        obtain ⟨w, hw, hf⟩ := hvs
        exact ⟨w, List.mem_cons_of_mem _ hw, hf⟩
      | ok ns =>
        rw [hns] at hvs
        exact Node.areTyped_cons hv hvs
termination_by (depthAll vs, 1, vs.length)
decreasing_by
  all_goals simp [Prod.lex_def, depthAll]; omega

end

/-- Code and plain text are texts wherever they stand in the comment. -/
def IsTyped (c : Comment) : Prop :=
  Node.AreTyped c.summary ∧ ∀ ns, c.remarks = some ns → Node.AreTyped ns

theorem meets_ofEntries (source : Option Path) (es : Entries) :
    Meets (map es).ReadingFault IsTyped (ofEntries source es) := by
  have hsummary := meets_givenNodesOf_field source "summary" (by decide)
    (meets_nodesOf source (es.field "summary"))
  have hremarks := meets_nodesOf source (es.field "remarks")
  unfold ofEntries
  cases hs : givenNodesOf source (es.field "summary") with
  | error f =>
    rw [hs] at hsummary
    exact hsummary
  | ok summary =>
    rw [hs] at hsummary
    dsimp only
    split
    · exact ⟨hsummary, fun ns h => nomatch h⟩
    · next hgiven =>
      refine (hremarks.mono fun f hf => hf.of_remarks hgiven).map fun ns hns => ⟨hsummary, ?_⟩
      intro ms hms
      cases hms
      exact hns

theorem meets_ofValue (source : Option Path) (v : Value) :
    Meets v.ReadingFault (fun c? => ∀ c, c? = some c → c.IsTyped) (ofValue source v) := by
  unfold ofValue
  split
  · exact fun c h => nomatch h
  · next es hes =>
    have hpart : IsPart (map es) v := by
      rw [← hes]
      exact isPart_body v
    refine ((meets_ofEntries source es).mono fun f hf => hf.of_isPart hpart).map fun c hc => ?_
    intro c' h
    cases h
    exact hc
  · exact .model _

end RefSite.Comment
