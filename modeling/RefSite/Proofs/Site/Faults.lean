import RefSite.Proofs.Comment.Traversal
import RefSite.Site.Page

namespace RefSite

/-- The failures of pages that cannot be built. -/
def Failure.IsPageFault : Failure → Prop
  | unsupportedItem _ | unsupportedComment _ | noElements | notElement | longNumber => True
  | _ => False

/-- The failures of what a page says, whatever the kinds of items. -/
def Failure.IsContentFault : Failure → Prop
  | unsupportedComment _ | noElements | notElement | longNumber => True
  | _ => False

open Logged

/-- The computation fails only at what a page says. -/
def BuildsOrFaults {α : Type} (m : Logged α) : Prop := FailsOnlyWith Failure.IsContentFault m

namespace Comment

theorem fails_nodesMarkup (origin : Log.Origin) (ns : List Node) :
    BuildsOrFaults (nodesMarkup origin ns) := by
  intro f hf
  obtain ⟨kind, rfl⟩ := (meets_areShownAs origin ns).of_error hf
  trivial

end Comment

namespace Page

variable {origin : Log.Origin}

theorem fails_expectNameable (ps : List Place) : BuildsOrFaults (expectNameable ps) := by
  unfold expectNameable
  split
  · exact .pure ()
  · exact .fail trivial

theorem fails_summary (d : Declaration) : BuildsOrFaults (summary origin d) := by
  unfold summary
  split
  · exact .pure []
  · exact .bind (Comment.fails_nodesMarkup origin _) fun _ => .pure _

theorem fails_remarks (d : Declaration) : BuildsOrFaults (remarks origin d) := by
  unfold remarks
  split
  · exact .pure []
  · exact .bind (Comment.fails_nodesMarkup origin _) fun _ => .pure _

theorem fails_cell (p : Place) (c : Cell) : BuildsOrFaults (cell origin p c) := by
  cases c with
  | reference => exact .bind (fails_expectNameable _) fun _ => .pure _
  | description =>
    simp only [cell]
    split
    · exact .pure _
    · exact .bind (Comment.fails_nodesMarkup origin _) fun _ => .pure _
  | signature | modifiers | propertyType | initializer => exact .pure _

theorem fails_cells (p : Place) (cs : List Column) : BuildsOrFaults (cells origin p cs) := by
  induction cs with
  | nil => exact .pure []
  | cons c cs ih => exact .bind (fails_cell p c.cell) fun _ => .bind ih fun _ => .pure _

/-- Why the page of an item cannot be built: there is a fault in what it says, the item is of a kind
without a heading, or it lists a member that is of no known kind. -/
inductive Hinders (p : Placed) : Failure → Prop where
  | content {f : Failure} (h : f.IsContentFault) : Hinders p f
  | heading (h : ∀ k, p.self.kind.kind? = some k → headingText? k p.place.scopedName = none) :
      Hinders p (unsupported p.self)
  | member {k : Kind} {m : Placed} (hk : p.self.kind.kind? = some k) (hm : m ∈ p.listed k)
      (h : m.self.kind.isKnown = false) : Hinders p (unsupported m.self)

variable {p : Placed} {f : Failure}

theorem Hinders.isPageFault (h : Hinders p f) : f.IsPageFault := by
  cases h with
  | content h => cases f <;> trivial
  | heading _ => trivial
  | member _ _ _ => trivial

theorem fails_content {α : Type} {m : Logged α} (h : BuildsOrFaults m) :
    FailsOnlyWith (Hinders p) m := h.mono fun _ => .content

theorem fails_heading (p : Placed) : FailsOnlyWith (Hinders p) (heading origin p.place) := by
  unfold heading
  split
  · next hk => exact .fail (.heading fun k h => nomatch hk.symm.trans h)
  · exact .bind (.report _) fun _ => .pure _
  · next k _ hk =>
    split
    · exact .pure _
    · next hnone =>
      refine .fail (.heading fun j hj => ?_)
      cases hk.symm.trans hj
      exact hnone

theorem fails_rows {page : Kind} (hk : p.self.kind.kind? = some page) {ms : List Placed}
    (hms : ∀ m ∈ ms, m ∈ p.listed page) : FailsOnlyWith (Hinders p) (rows origin page ms) := by
  induction ms with
  | nil => exact .pure []
  | cons m ms ih =>
    obtain ⟨hm, hms⟩ := List.forall_mem_cons.1 hms
    rw [rows]
    split
    · next hunknown => exact .fail (.member hk hm (by simpa using hunknown))
    · split
      · exact ih hms
      · exact .bind (fails_content (fails_cells m.place _)) fun _ => .bind (ih hms) fun _ => .pure _

theorem fails_body {k : Kind} (hk : p.self.kind.kind? = some k) :
    FailsOnlyWith (Hinders p) (body origin k p) := by
  unfold body
  dsimp only
  split
  · exact .bind (.pure []) fun _ => .pure _
  · exact .bind (fails_rows hk fun m hm => hm) fun _ => .pure _

theorem fails_main (root : Place) (p : Placed) :
    FailsOnlyWith (Hinders p) (main origin root p) := by
  unfold main
  refine .bind (fails_content (fails_expectNameable _)) fun _ => .bind (fails_heading p) fun _ =>
    .bind (fails_content (fails_summary _)) fun _ => ?_
  have hremarks : FailsOnlyWith (Hinders p) (remarks origin p.self) :=
    fails_content (fails_remarks p.self)
  cases hk : p.self.kind.kind? with
  | none =>
    dsimp only
    rw [Logged.fail_bind]
    exact .fail (.heading fun k h => nomatch hk.symm.trans h)
  | some k =>
    dsimp only
    rw [Logged.pure_bind]
    by_cases hr : hasRemarksFirst k
    · simp only [hr, if_true]
      exact .bind hremarks fun _ => .bind (fails_body hk) fun _ => .bind (.pure []) fun _ => .pure _
    · simp only [hr]
      exact .bind (.pure []) fun _ => .bind (fails_body hk) fun _ => .bind hremarks fun _ => .pure _

/-- A page that cannot be built has a reason for it. -/
theorem fails_text (c : Config) (root : Place) (p : Placed) :
    FailsOnlyWith (Hinders p) (text origin c root p) := by
  refine .bind (fails_main root p) fun content => ?_
  split
  · exact .pure _
  · next f _ => cases f <;> exact .fail (.content trivial)

end Page

end RefSite
