import RefSite.Files.Disk
import RefSite.Proofs.Files.Place

/-! What changes of a file system leave alone. Two file systems are the same at a place if the same
thing stands there, whatever it holds when it is a folder: what a folder holds stands at places of
its own. -/
namespace RefSite

/-- The entry without what it holds. -/
def Entry.bare : Entry → Entry
  | .folder _ => .folder []
  | e => e

namespace Disk

open Entry

variable {d d' d'' : Disk} {dir place q : List String}
  {n : String} {es : List (String × Entry)} {e new : Entry}

theorem shape_bare (e : Entry) : e.bare.shape = e.shape := by cases e <;> rfl

/-- The same thing stands at the place in both file systems. -/
def SameAt (d d' : Disk) (q : List String) : Prop :=
  (d'.root.at? q).map bare = (d.root.at? q).map bare

namespace SameAt

theorem of_eq (h : d'.root.at? q = d.root.at? q) : SameAt d d' q := congrArg (Option.map bare) h

theorem refl (d : Disk) (q : List String) : SameAt d d q := rfl

theorem trans (h : SameAt d d' q) (h' : SameAt d' d'' q) : SameAt d d'' q := Eq.trans h' h

theorem symm (h : SameAt d d' q) : SameAt d' d q := Eq.symm h

theorem eq_none (h : SameAt d d' q) (hq : d'.root.at? q = none) : d.root.at? q = none := by
  rw [SameAt, hq] at h
  exact Option.map_eq_none_iff.1 h.symm

theorem file {content : ByteArray} (h : SameAt d d' q)
    (hq : d.root.at? q = some (.file content)) : d'.root.at? q = some (.file content) := by
  rw [SameAt, hq] at h
  obtain ⟨e, he, hbare⟩ := Option.map_eq_some_iff.1 h
  cases e with
  | file _ =>
    cases hbare
    exact he
  | link _ => cases hbare
  | folder _ => cases hbare

theorem shape (h : SameAt d d' q) : (d'.root.at? q).map shape = (d.root.at? q).map shape := by
  have hs := congrArg (Option.map Entry.shape) h
  rw [Option.map_map, Option.map_map] at hs
  have hbare : Entry.shape ∘ bare = Entry.shape := funext shape_bare
  rwa [hbare] at hs

end SameAt

/-- What is put in a folder is put nowhere else. -/
theorem sameAt_put_child (hdir : d.root.at? dir = some (.folder es)) (new : Entry)
    (hq : ¬ dir ++ [n] <+: q) : SameAt d (d.put (dir ++ [n]) new) q := by
  by_cases habove : q <+: dir
  · obtain ⟨rest, rfl⟩ := habove
    obtain ⟨ds, hds⟩ := folder_above hdir
    obtain ⟨fs, hfs⟩ := folder_above (at_put_folder hdir new n)
    rw [SameAt, Disk.put, hfs, hds]
    rfl
  · exact .of_eq (at_put_elsewhere hdir new hq habove)

/-- What is put in the place of something is put nowhere else. -/
theorem sameAt_put (hplace : d.root.at? place = some e) (new : Entry) (hq : ¬ place <+: q) :
    SameAt d (d.put place new) q := by
  have hne : place ≠ [] := by
    rintro rfl
    exact hq List.nil_prefix
  rw [← List.dropLast_concat_getLast hne] at hplace hq ⊢
  obtain ⟨es, hes⟩ := folder_of_at_append hplace
  exact sameAt_put_child hes new hq

/-- Nothing is below a place where nothing is. -/
theorem at_below_none {root : Entry} (h : root.at? place = none) (rest : List String) :
    root.at? (place ++ rest) = none := by
  rw [at_append, h, Option.bind_none]

/-- An entry that holds nothing can be put where nothing is, and nothing else changes. -/
theorem sameAt_put_new (hdir : d.root.at? dir = some (.folder es)) (hn : es.lookup n = none)
    (hnew : ∀ x xs, new.at? (x :: xs) = none) (hq : q ≠ dir ++ [n]) :
    SameAt d (d.put (dir ++ [n]) new) q := by
  by_cases hbelow : dir ++ [n] <+: q
  · obtain ⟨rest, rfl⟩ := hbelow
    have hold : d.root.at? (dir ++ [n]) = none := (at_child hdir n).trans hn
    cases rest with
    | nil => exact absurd (List.append_nil _) hq
    | cons x xs =>
      apply SameAt.of_eq
      rw [Disk.put, at_put_self hdir, hnew, at_below_none hold]
  · exact sameAt_put_child hdir new hbelow

/-- Where one file replaces another, nothing else changes. -/
theorem sameAt_put_file {old : ByteArray} (hplace : d.root.at? place = some (.file old))
    (content : ByteArray) (hq : q ≠ place) : SameAt d (d.put place (.file content)) q := by
  by_cases hbelow : place <+: q
  · obtain ⟨rest, rfl⟩ := hbelow
    have hnew : (d.put place (.file content)).root.at? place = some (.file content) :=
      at_put_of_at hplace _
    cases rest with
    | nil => exact absurd (List.append_nil _) hq
    | cons x xs =>
      apply SameAt.of_eq
      rw [at_append, hnew, at_append, hplace]
      rfl
  · exact sameAt_put hplace _ hbelow

end Disk

end RefSite
