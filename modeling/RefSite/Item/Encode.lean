import RefSite.Comment.Encode
import RefSite.Item.Decode

namespace RefSite

def Parameter.toValue (p : Parameter) : Value :=
  .map [(.text "name", .text p.name), (.text "type", .text p.type)]

namespace Item

def releaseToValue : Option Release → Value
  | none => .null
  | some r => .text r.name

def commentToValue : Option Comment → Value
  | none => .null
  | some c => c.toValue

/-- The field that the members of an item are written to. -/
def membersKey (d : Declaration) : String := if d.is .package then "entryPoints" else "members"

def declarationFields (d : Declaration) : Entries :=
  [(.text "kind", .text d.kind.text), (.text "name", .text d.name),
    (.text "excerpt", .text d.excerpt), (.text "modifiers", .list (d.modifiers.map .text)),
    (.text "releaseTag", releaseToValue d.release),
    (.text "parameters", .list (d.parameters.map Parameter.toValue)),
    (.text "overloadIndex", .int d.overload), (.text "isStatic", .bool d.isStatic),
    (.text "isEventProperty", .bool d.isEvent), (.text "propertyType", .text d.propertyType),
    (.text "initializer", .text d.initializer), (.text "docComment", commentToValue d.comment)]

mutual

def toValue : Item → Value
  | mk d ms => .map (declarationFields d ++ [(.text (membersKey d), .list (toValues ms))])

def toValues : List Item → List Value
  | [] => []
  | m :: ms => toValue m :: toValues ms

end

mutual

/-- Every item of the tree is of a known kind, and its comment is one that a mapping can stand
for. -/
def isReadable : Item → Bool
  | mk d ms => d.kind.isKnown && d.comment.all Comment.isReadable && areReadable ms

def areReadable : List Item → Bool
  | [] => true
  | m :: ms => isReadable m && areReadable ms

end

theorem kindOfValue_name (source : Option Path) (k : Kind) :
    kindOfValue source (.text k.name) = .ok k := by
  simp [kindOfValue, Value.written?, Kind.ofName_name]

theorem releaseOfValue_releaseToValue (source : Option Path) (r : Option Release) :
    releaseOfValue source (releaseToValue r) = .ok r := by
  cases r with
  | none => rfl
  | some r => simp [releaseOfValue, releaseToValue, Value.written?, Release.ofName_name]

theorem parameterOfValue_toValue (source : Option Path) (p : Parameter) :
    parameterOfValue source p.toValue = .ok p := by
  obtain ⟨name, type⟩ := p
  simp [parameterOfValue, Parameter.toValue, Value.entriesOr_map, Entries.field, Entries.get?,
    Entries.find?, Value.sameKey, Value.writeOrEmpty_text, bind, Except.bind, pure, Except.pure]

end Item

end RefSite
