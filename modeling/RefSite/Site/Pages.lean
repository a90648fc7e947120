import RefSite.Site.Section

namespace RefSite.Placed

/-- The members that a page lists: for a package those of its first entry point. -/
def listed (page : Kind) (p : Placed) : List Placed :=
  match page with
  | .package =>
    match p.entryPoints with
    | [] => []
    | e :: _ => e.members
  | _ => p.members

/-- The members that get a page of their own. The members of an enumeration are shown on its page
and get none. -/
def children (p : Placed) : List Placed :=
  match p.self.kind.kind? with
  | none => []
  | some .enum => []
  | some k => (p.listed k).filter fun m => (Section.forMember? k m.self).isSome

theorem sizeOfAll_listed_lt (page : Kind) (p : Placed) : sizeOfAll (p.listed page) < p.size := by
  have hm := p.sizeOfAll_members
  unfold listed
  split
  · split
    · exact p.size_pos
    · next e es he =>
      have hep : e ∈ p.members := by
        have : e ∈ p.entryPoints := by rw [he]; exact List.mem_cons_self
        exact (List.mem_filter.1 this).1
      have h₁ := size_le_sizeOfAll hep
      have h₂ := e.sizeOfAll_members
      omega
  · omega

/-- The trees of an item's pages hold fewer items than its own tree. -/
theorem sizeOfAll_children_lt (p : Placed) : sizeOfAll p.children < p.size := by
  unfold children
  split
  · exact p.size_pos
  · exact p.size_pos
  · next k _ _ =>
    exact Nat.lt_of_le_of_lt (sizeOfAll_filter_le _ _) (p.sizeOfAll_listed_lt k)

mutual

/-- The items that get a page when the page of `p` is written, in the order of writing. -/
def pages (p : Placed) : List Placed := p :: pagesOf p.children
termination_by 2 * p.size
decreasing_by
  have := p.sizeOfAll_children_lt
  omega

def pagesOf (ps : List Placed) : List Placed :=
  match ps with
  | [] => []
  | p :: ps => pages p ++ pagesOf ps
termination_by 2 * sizeOfAll ps + 1
decreasing_by
  all_goals
    have := p.size_pos
    rw [sizeOfAll]
    omega

end

theorem pagesOf_eq_flatMap (ps : List Placed) : pagesOf ps = ps.flatMap pages := by
  induction ps with
  | nil => rw [pagesOf]; rfl
  | cons p ps ih => rw [pagesOf, ih, List.flatMap_cons]

/-- A page comes first, and after it the pages of its children in their order. -/
theorem pages_eq (p : Placed) : p.pages = p :: p.children.flatMap pages := by
  rw [pages, pagesOf_eq_flatMap]

theorem mem_pages_self (p : Placed) : p ∈ p.pages := by
  rw [pages_eq]; exact List.mem_cons_self

/-- The pages of a child are pages of the whole tree. -/
theorem mem_pages_of_mem_children {p q r : Placed} (hq : q ∈ p.children) (hr : r ∈ q.pages) :
    r ∈ p.pages := by
  rw [pages_eq]
  exact List.mem_cons_of_mem _ (List.mem_flatMap.2 ⟨q, hq, hr⟩)

end RefSite.Placed
