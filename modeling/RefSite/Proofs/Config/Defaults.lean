import RefSite.Config.Load
import RefSite.Proofs.Config.Overlay
import RefSite.Proofs.Yaml.Mappings

namespace RefSite

theorem Value.writeOr_self (s : String) : (text s).writeOr s = .ok s := by
  rw [writeOr]
  split <;> rfl

namespace Entries

variable {es base : Entries} {v : Value}

/-- What a mapping holds that is laid over another one: what it held itself, combined with what was
there before, and what was there before where it has nothing. -/
theorem get_overlay (hes : IsMapping es) (base : Entries) (key : String) :
    get? (overlay base es) key =
      match get? es key with
      | none => get? base key
      | some v => some (combined (.text key) ((get? base key).map Value.body) v) :=
  find_overlay (List.pairwise_map.2 hes.distinct) base (.text key)

/-- A text is replaced by whatever is laid over it. -/
theorem combined_over_text (key v : Value) (s : String) : combined key (some (.text s)) v = v := by
  cases v <;> simp [combined, joins]

/-- Laid over the empty list, a value has the elements that it has by itself. -/
theorem givenElements_combined (key : Value) (h : v.isSpent = false) :
    (combined key (some (.list [])) v).givenElements = v.givenElements := by
  cases v with
  | list ys => cases hkey : isAdditive key <;> simp [combined, hkey]
  | knot n w =>
    cases w with
    | list ys =>
      have hknot : (Value.knot n (.list ys)).givenElements = .ok ys := by
        rw [Value.givenElements, Value.elements, h]
        rfl
      cases hkey : isAdditive key with
      | true => simp [combined, joins, hkey, hknot, Value.givenElements_list]
      | false => simp [combined, joins, hkey]
    | _ => simp [combined, joins]
  | _ => simp [combined]

end Entries

namespace Config

open Entries

variable {es : Entries}

/-- A setting whose default is a text is read alike from a mapping over the defaults and from the
mapping alone, as long as the reader falls back to that text. -/
theorem writeOr_overlay (hes : IsMapping es) {key s : String}
    (hdefault : get? defaultEntries key = some (.text s)) :
    (Entries.field (overlay defaultEntries es) key).writeOr s = (es.field key).writeOr s := by
  rw [Entries.field, Entries.field, get_overlay hes, hdefault]
  cases get? es key with
  | none => exact Value.writeOr_self s
  | some v => exact congrArg (Value.writeOr · s) (combined_over_text _ v s)

theorem lineEndOfValue_overlay (hes : IsMapping es) :
    lineEndOfValue (get? (overlay defaultEntries es) "newline_kind") =
      lineEndOfValue (get? es "newline_kind") := by
  have hdefault : get? defaultEntries "newline_kind" = some (.text LineEnd.crlf.setting) := rfl
  rw [get_overlay hes, hdefault]
  cases get? es "newline_kind" with
  | none => rfl
  | some v => exact congrArg (lineEndOfValue ∘ some) (combined_over_text _ v _)

theorem plugins_overlay (hes : IsMapping es) :
    (Entries.field (overlay defaultEntries es) "plugins").givenElements =
      (es.field "plugins").givenElements := by
  have hdefault : get? defaultEntries "plugins" = some (.list []) := rfl
  have hlaid := hes.field_laidOut "plugins"
  rw [Entries.field] at hlaid
  rw [Entries.field, Entries.field, get_overlay hes, hdefault]
  cases hv : get? es "plugins" with
  | none => rfl
  | some v =>
    rw [hv] at hlaid
    exact givenElements_combined _ hlaid

theorem ofEntries_overlay (hes : IsMapping es) :
    ofEntries (overlay defaultEntries es) = ofEntries es := by
  have hsheet : get? defaultEntries "stylesheet" = some (.text defaultStylesheet) := rfl
  have hlogo : get? defaultEntries "header_logo_href" = some (.text defaultLogoHref) := rfl
  unfold ofEntries stylesheetOfValue
  rw [lineEndOfValue_overlay hes, writeOr_overlay hes hsheet, plugins_overlay hes,
    writeOr_overlay hes hlogo]

/-- The copies of the defaults agree. Whatever mapping is laid over the default one, the settings
read from it, or the failure, are those of the mapping alone; and where nothing is set, both are the
default settings. -/
theorem defaults_agree (hes : IsMapping es) :
    ofEntries (overlay defaultEntries es) = ofEntries es ∧
      ofEntries (overlay defaultEntries []) = .ok default ∧ ofEntries [] = .ok default :=
  ⟨ofEntries_overlay hes, rfl, rfl⟩

/-- Plugins of which the second is the list that it stands in. -/
def tangledPlugins (inner : Value) : Value :=
  .knot 0 (.list [.map [(.text "module", .text "m")], inner])

/-- Settings of which one is null, one is no setting, and the plugins are tangled. -/
def tangledEntries : Entries :=
  [(.text "stylesheet", .null), (.text "newline_kind", .text "LF"), (.int 5, .bool true),
    (.text "plugins", tangledPlugins (tangledPlugins (.knot 0 (.list []))))]

/-- Plugins that hold their own list are put after the default ones and refused with the message
that they are refused with alone. -/
theorem tangled_plugins_are_refused :
    tangledEntries.IsMapping ∧
      ∃ v, ofEntries (overlay defaultEntries tangledEntries) =
          .error (.config (.pluginWithoutModule v)) ∧
        ofEntries tangledEntries = .error (.config (.pluginWithoutModule v)) ∧
        (ConfigFault.pluginWithoutModule v).message =
          "Plugin entries need a 'module' key: [\x7b'module': 'm'\x7d, [...]]" := by
  have hmapping : tangledEntries.IsMapping := by decide
  have hrefused : ofEntries tangledEntries = .error
      (.config (.pluginWithoutModule (tangledPlugins (.knot 0 (.list []))))) := rfl
  have hsame := (defaults_agree hmapping).1
  exact ⟨hmapping, _, hsame.trans hrefused, hrefused, by decide +kernel⟩

theorem isMapping_of_readMapping {d : Disk} {p : Path} (h : readMapping d p = .ok es) :
    es.IsMapping := by
  unfold readMapping at h
  split at h
  · exact nomatch h
  · exact nomatch h
  · obtain ⟨s, -, h⟩ := exists_of_bind_ok h
    obtain ⟨v, hv, h⟩ := exists_of_bind_ok h
    split at h
    · cases h
      exact isMapping_nil
    · split at h
      · next hes =>
        cases h
        exact Yaml.isMapping_of_load hv hes
      · exact nomatch h

/-- Settings from a file are read as if the defaults were not laid under them. -/
theorem load_of_file (d : Disk) (p : Path) : load d (some p) = readMapping d p >>= ofEntries := by
  rw [load, loadEntries]
  cases h : readMapping d p with
  | error f => rfl
  | ok es => exact ofEntries_overlay (isMapping_of_readMapping h)

end Config

end RefSite
