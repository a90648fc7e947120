import RefSite.Item.Basic
import RefSite.Text.Quoted
import RefSite.Text.Digits

namespace RefSite

/-- A package name without its scope: `widgets` for `@scope/widgets`. -/
def unscopedName (name : String) : String :=
  match name.toList with
  | '@' :: cs =>
    match cs.dropWhile (· != '/') with
    | '/' :: rest => String.ofList rest
    | _ => name
  | _ => name

/-- The characters that stay as they are in file names. -/
def isSafeChar (c : Char) : Bool :=
  c.isAlphanum || c = '_' || c = '.' || c = '-'

/-- A name with an underscore for every other character. -/
def safeName (name : String) : String :=
  String.ofList (name.toList.map fun c => if isSafeChar c then c else '_')

namespace Place

/-- The levels after the last container, if the item is not one itself. -/
def scopeLevels (levels : List Declaration) : List Declaration :=
  levels.foldl (fun acc d => if d.isContainer then [] else acc ++ [d]) []

/-- The dotted name below the entry point, such as `Widget.doThing`. -/
def scopedName (p : Place) : String :=
  if p.self.isContainer then p.self.name
  else ".".intercalate ((scopeLevels p.levels).map Declaration.name)

def indexFile : String := "index.html"

def pageEnding : String := ".html"

/-- What distinguishes the second and later overloads. -/
def overloadSuffix (d : Declaration) : String :=
  if d.isFunctionLike && decide (1 < d.overload) then "_" ++ toString (d.overload - 1) else ""

/-- The number of an overload is one that can be written. -/
def hasWritableOverload (d : Declaration) : Bool :=
  !d.isFunctionLike || d.overload ≤ 1 || (Text.ofInt? (d.overload - 1)).isSome

def segment (d : Declaration) : String := safeName d.name ++ overloadSuffix d

/-- A file name with one more level: a package starts it afresh, models and entry points do not
show, and any other level comes after a dot. -/
def extendStem (stem : String) (d : Declaration) : String :=
  if d.is .model || d.is .entryPoint then stem
  else if d.is .package then safeName (unscopedName d.name)
  else stem ++ "." ++ segment d

def stem (levels : List Declaration) : String := levels.foldl extendStem ""

def fileName (p : Place) : String :=
  if p.self.is .model then indexFile else stem p.levels ++ pageEnding

/-- The item has a file name: on the way to it every overload has a number that can be written. -/
def isNameable (p : Place) : Bool := p.self.is .model || p.levels.all hasWritableOverload

/-- The link to the item's page from any other page. -/
def link (p : Place) : String := "./" ++ p.fileName

/-- The item's kind and quoted name, as messages show them. -/
def description (p : Place) : String := p.self.kind.text ++ " " ++ Text.quoted p.scopedName

theorem stem_append (xs ys : List Declaration) :
    stem (xs ++ ys) = ys.foldl extendStem (stem xs) := by
  simp [stem]

theorem extendStem_package {d : Declaration} (h : d.is .package = true) (s : String) :
    extendStem s d = safeName (unscopedName d.name) := by
  have hmodel := Declaration.is_eq_false_of_is (k := .model) h (by decide)
  have hentry := Declaration.is_eq_false_of_is (k := .entryPoint) h (by decide)
  simp [extendStem, h, hmodel, hentry]

theorem extendStem_entryPoint {d : Declaration} (h : d.is .entryPoint = true) (s : String) :
    extendStem s d = s := by
  simp [extendStem, h]

/-- A level that is no container shows after a dot. -/
theorem extendStem_shown {d : Declaration} (h : d.isContainer = false) (s : String) :
    extendStem s d = s ++ "." ++ segment d := by
  rw [Declaration.isContainer_eq] at h
  simp only [Bool.or_eq_false_iff] at h
  simp [extendStem, h]

end Place

theorem safeName_eq_self {s : String} (h : ∀ c ∈ s.toList, isSafeChar c = true) :
    safeName s = s := by
  have : s.toList.map (fun c => if isSafeChar c then c else '_') = s.toList := by
    conv => rhs; rw [← List.map_id s.toList]
    exact List.map_congr_left fun c hc => by simp [h c hc]
  rw [safeName, this, String.ofList_toList]

end RefSite
