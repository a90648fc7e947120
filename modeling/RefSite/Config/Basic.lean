import RefSite.Text.LineEnd
import RefSite.Value.Basic

namespace RefSite

/-- A plugin: the module it is in and the name of its feature. -/
structure PluginName where
  module : String
  feature : String
  deriving DecidableEq, Repr, Inhabited

structure Config where
  lineEnd : LineEnd
  stylesheet : String
  logoHref : String
  plugins : List PluginName
  deriving DecidableEq, Repr, Inhabited

namespace Config

def defaultStylesheet : String := "styles.css"

def defaultLogoHref : String := "https://developers.symphony.com/"

def defaultFeature : String := "Feature"

/-- The settings that hold when none are given. -/
def default : Config := ⟨.crlf, defaultStylesheet, defaultLogoHref, []⟩

/-- The same settings as untyped data. -/
def defaultEntries : Entries :=
  [(.text "newline_kind", .text LineEnd.crlf.setting),
    (.text "stylesheet", .text defaultStylesheet),
    (.text "header_logo_href", .text defaultLogoHref),
    (.text "plugins", .list [])]

def withLineEnd (c : Config) (k : LineEnd) : Config := { c with lineEnd := k }

end Config

end RefSite
