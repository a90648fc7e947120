import RefSite.Site.Pages

namespace RefSite.Item

/-- The member is listed on a page of the given kind. -/
def isListedOn (page : Kind) (i : Item) : Bool := (Section.forMember? page i.self).isSome

mutual

/-- The tree without the members that no page lists; a package keeps its first entry point only. -/
def prune : Item → Item
  | mk d ms =>
    match d.kind.kind? with
    | some .package => mk d (pruneFirstEntryPoint ms)
    | some .enum => mk d (bareAll ms)
    | some k => mk d (pruneListed k ms)
    | none => mk d []

/-- The listed members without whatever they do not list in turn. -/
def pruneListed (page : Kind) : List Item → List Item
  | [] => []
  | m :: ms =>
    if m.isListedOn page then prune m :: pruneListed page ms else pruneListed page ms

/-- The first entry point, with its listed members. -/
def pruneFirstEntryPoint : List Item → List Item
  | [] => []
  | mk d ms :: rest =>
    if d.is .entryPoint then [mk d (pruneListed .package ms)] else pruneFirstEntryPoint rest

def bareAll : List Item → List Item
  | [] => []
  | m :: ms => mk m.self [] :: bareAll ms

end

theorem bareAll_eq_map (is : List Item) : bareAll is = is.map fun i => mk i.self [] := by
  induction is with
  | nil => rfl
  | cons i is ih => rw [bareAll, ih, List.map_cons]

theorem self_prune (i : Item) : i.prune.self = i.self := by
  obtain ⟨d, ms⟩ := i
  unfold prune
  split <;> rfl

end RefSite.Item
