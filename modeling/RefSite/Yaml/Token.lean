import RefSite.Failure

namespace RefSite.Yaml

/-- A line that starts with a percent sign. -/
inductive Directive where
  | version (major : Nat)
  | tagHandle (handle meaning : String)
  | other
  deriving Repr

/-- A mark or a scalar. Block collections have no marks of their own in the text; their starts and
ends follow from the indentation. -/
inductive Token where
  | directive (d : Directive)
  | documentStart
  | documentEnd
  | streamEnd
  | blockSequenceStart
  | blockMappingStart
  | blockEnd
  | flowSequenceStart
  | flowSequenceEnd
  | flowMappingStart
  | flowMappingEnd
  | blockEntry
  | flowEntry
  | key
  | value
  | alias (name : String)
  | anchor (name : String)
  | tag (handle : Option String) (suffix : String)
  | scalar (text : String) (plain : Bool)
  /-- The text could not be read beyond this place. -/
  | broken (f : Failure)
  deriving Repr

end RefSite.Yaml
