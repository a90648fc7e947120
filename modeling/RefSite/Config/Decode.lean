import RefSite.Config.Basic
import RefSite.Files.Path
import RefSite.Text.LowerCase
import RefSite.Value.Elements

namespace RefSite.Config

/-- The convention for line ends; its setting is read in any letter case. -/
def lineEndOfValue (v : Option Value) : Except Failure LineEnd := do
  let setting := Text.lower (← (v.getD (.text LineEnd.crlf.setting)).write)
  match LineEnd.ofSetting? setting with
  | some k => return k
  | none => throw (.config (.unknownLineEnd setting))

/-- The path stays below the folder it is seen from. -/
def staysInside (p : Path) : Bool := !p.isAbsolute && !p.parts.contains ".."

/-- The style sheet, which has to be inside the output folder. -/
def stylesheetOfValue (v : Value) : Except Failure String := do
  let s ← v.writeOr defaultStylesheet
  if staysInside (Path.ofText s) then return s
  else throw (.config (.stylesheetOutside s))

/-- A plugin; its module has to be named. -/
def pluginOfValue (v : Value) : Except Failure PluginName := do
  let unnamed : Failure := .config (.pluginWithoutModule v)
  let es ← v.entriesOr unnamed
  let module := Entries.field es "module"
  if module.truthy then
    return ⟨← module.write, ← (Entries.field es "feature").writeOr defaultFeature⟩
  else throw (v.refusal unnamed)

/-- The settings in a mapping. The first fault in this order counts: line ends, style sheet,
plugins, logo. -/
def ofEntries (es : Entries) : Except Failure Config := do
  let lineEnd ← lineEndOfValue (Entries.get? es "newline_kind")
  let stylesheet ← stylesheetOfValue (Entries.field es "stylesheet")
  let entries ← (Entries.field es "plugins").givenElements
  let plugins ← entries.mapM pluginOfValue
  let logoHref ← (Entries.field es "header_logo_href").writeOr defaultLogoHref
  return ⟨lineEnd, stylesheet, logoHref, plugins⟩

end RefSite.Config
