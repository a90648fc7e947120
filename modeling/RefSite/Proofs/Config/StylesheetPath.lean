import RefSite.Proofs.Site.Replacement

namespace RefSite

open Disk

namespace Path

/-- A path text has no parts when there is nothing but single dots between its slashes. -/
theorem parts_ofText_eq_nil_iff (s : String) : (ofText s).parts = [] ↔
    ∀ piece ∈ splitAt '/' s.toList, piece = [] ∨ piece = ['.'] := by
  simp only [ofText, partsOf, List.map_eq_nil_iff, List.filter_eq_nil_iff, Bool.and_eq_true,
    Bool.not_eq_true', List.isEmpty_eq_false_iff, bne_iff_ne, not_and_or, not_not]

end Path

namespace Config

variable {es : Entries} {c : Config}

/-- The style sheet is what the setting says, or the default one if the setting says nothing. -/
theorem writeOr_of_ofEntries (h : ofEntries es = .ok c) :
    (es.field "stylesheet").writeOr defaultStylesheet = .ok c.stylesheet := by
  obtain ⟨lineEnd, -, h⟩ := exists_of_bind_ok h
  obtain ⟨stylesheet, hsheet, h⟩ := exists_of_bind_ok h
  obtain ⟨elements, -, h⟩ := exists_of_bind_ok h
  obtain ⟨plugins, -, h⟩ := exists_of_bind_ok h
  obtain ⟨logoHref, -, h⟩ := exists_of_bind_ok h
  cases h
  obtain ⟨s, hs, hsheet⟩ := exists_of_bind_ok hsheet
  split at hsheet
  · cases hsheet
    exact hs
  · exact nomatch hsheet

/-- The style sheet of accepted settings is in the output folder. Its path has the parts of the output
folder and after them names that lead further down, without double dots. There is at least one such
name, unless the setting has only slashes and single dots: then the path is that of the folder. -/
theorem stylesheet_is_in_output (h : ofEntries es = .ok c) (output : Path) :
    (es.field "stylesheet").writeOr defaultStylesheet = .ok c.stylesheet ∧
    ∃ below : List String,
      (output.join (Path.ofText c.stylesheet)).key = output.key ++ below ∧
      (∀ n ∈ below, n ≠ ".." ∧ n ≠ "." ∧ n ≠ "") ∧
      (below = [] ↔ ∀ piece ∈ splitAt '/' c.stylesheet.toList, piece = [] ∨ piece = ['.']) := by
  have hinside := staysInside_stylesheet h
  rw [staysInside, Bool.and_eq_true, Bool.not_eq_true', Bool.not_eq_true'] at hinside
  obtain ⟨hrelative, hups⟩ := hinside
  refine ⟨writeOr_of_ofEntries h, (Path.ofText c.stylesheet).parts, Path.key_join hrelative, ?_,
    Path.parts_ofText_eq_nil_iff c.stylesheet⟩
  intro n hn
  have hup : n ≠ ".." := by
    rintro rfl
    have hcontains := List.contains_iff_mem.2 hn
    rw [hups] at hcontains
    exact Bool.false_ne_true hcontains
  exact Path.isEntryName_of_mem hn hup

/-- A setting with repeated slashes and a dot leads down from every output folder. -/
theorem nested_stylesheet_is_in_output :
    ∃ c, ofEntries [(.text "stylesheet", .text "css//./site.css")] = .ok c ∧
      ∀ output : Path, ∃ below : List String,
        (output.join (Path.ofText c.stylesheet)).key = output.key ++ below ∧ below ≠ [] ∧
          ∀ n ∈ below, n ≠ ".." := by
  let c : Config := { default with stylesheet := "css//./site.css" }
  have haccepted : ofEntries [(.text "stylesheet", .text "css//./site.css")] = .ok c := rfl
  refine ⟨c, haccepted, fun output => ?_⟩
  obtain ⟨-, below, hkey, hnames, hnil⟩ := stylesheet_is_in_output haccepted output
  have hnamed : ¬ ∀ piece ∈ splitAt '/' c.stylesheet.toList, piece = [] ∨ piece = ['.'] := by
    decide +kernel
  exact ⟨below, hkey, fun h => hnamed (hnil.1 h), fun n hn => (hnames n hn).1⟩

/-- The plain site with a single dot for its style sheet. -/
def dotSite : Site Unit :=
  { Site.plainSite with config? := some { default with stylesheet := "." } }

/-- A single dot is accepted, although it leads to the output folder and to no file in it. The run
empties the folder and then fails to copy the style sheet. -/
theorem dot_is_accepted :
    let run := dotSite.generate Site.plainOutput Site.linkedDisk none
    let old := Site.plainOutput.child "old"
    ofEntries [(.text "stylesheet", .text ".")] = .ok dotSite.config ∧
      (Site.plainOutput.join (Path.ofText dotSite.config.stylesheet)).key =
        Site.plainOutput.key ∧
      run.1.toOption = none ∧ Site.linkedDisk.exists? old = .ok true ∧
      run.2.disk.exists? old = .ok false := by
  intro run old
  exact ⟨rfl, by decide +kernel, by decide +kernel, by decide +kernel, by decide +kernel⟩

end Config

end RefSite
