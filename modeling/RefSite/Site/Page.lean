import RefSite.Comment.Markup
import RefSite.Config.Basic
import RefSite.Markup.Table
import RefSite.Site.Pages

/-! Pages. From top to bottom: the way from the root, the heading, a notice for items that are not
yet stable, the summary, the signature, and the tables, with the remarks in front of the tables for
some kinds and after them for the others. -/
namespace RefSite.Page

/-- The heading of a page of the given kind for an item of the given name. -/
def headingText? (k : Kind) (name : String) : Option String :=
  match k with
  | .model => some (name ++ " API Reference")
  | .package => some (name ++ " package")
  | .namespaceDecl => some (name ++ " namespace")
  | .classDecl => some (name ++ " class")
  | .interface => some (name ++ " interface")
  | .enum => some (name ++ " enum")
  | .constructor => some name
  | .constructSignature => some name
  | .method => some (name ++ " method")
  | .methodSignature => some (name ++ " method")
  | .function => some (name ++ " function")
  | .property => some (name ++ " property")
  | .propertySignature => some (name ++ " property")
  | .typeAlias => some (name ++ " type")
  | .variableDecl => some (name ++ " variable")
  | .entryPoint => none
  | .enumMember => none

/-- Pages of this kind have their remarks right after the summary and signature. -/
def hasRemarksFirst : Kind → Bool
  | .classDecl | .interface | .namespaceDecl | .package => true
  | _ => false

def unsupported (d : Declaration) : Failure := .unsupportedItem d.kind.text

/-- The levels of a page's trail: those below the last model or entry point. -/
def trailLevels (levels : List Declaration) : List Declaration :=
  levels.foldl (fun acc d => if d.is .model || d.is .entryPoint then [] else acc ++ [d]) []

/-- The number of levels that are not on the trail. -/
def trailStart (levels : List Declaration) : Nat := levels.length - (trailLevels levels).length

def placeOfLevel (levels : List Declaration) (i : Nat) : Place :=
  ⟨levels.take i, levels.getD i default⟩

/-- The places on the trail to an item, from the outermost to the item itself. -/
def trail (p : Place) : List Place :=
  let start := trailStart p.levels
  (List.range (p.levels.length - start)).map fun i => placeOfLevel p.levels (start + i)

/-- The links from the root's page down to the item's. -/
def breadcrumb (root p : Place) : List Markup :=
  Markup.anchor "Home" root.link "breadcrumb" ::
    (trail p).flatMap fun q =>
      [Markup.classed "span" "breadcrumb" (Markup.text " / "),
        Markup.anchor q.self.name q.link "breadcrumb"]

/-- The heading of an item's page. Packages are reported. -/
def heading (origin : Log.Origin) (p : Place) : Logged String :=
  match p.self.kind.kind? with
  | none => Logged.fail (unsupported p.self)
  | some .package => do
    Logged.report ⟨origin, .info, some ("Writing " ++ p.self.name ++ " package")⟩
    return unscopedName p.self.name ++ " package"
  | some k =>
    match headingText? k p.scopedName with
    | some s => return s
    | none => Logged.fail (unsupported p.self)

/-- The notice for items that are not yet stable; its text is still to come. -/
def betaNotice (d : Declaration) : List Markup :=
  if d.release = some .beta then [Markup.classed "div" "beta-warning" (.block [])] else []

def summary (origin : Log.Origin) (d : Declaration) : Logged (List Markup) :=
  match d.comment with
  | none => return []
  | some c => do
    let ms ← Comment.nodesMarkup origin c.summary
    return [Markup.classed "div" "summary" (.block ms)]

def signature (d : Declaration) : List Markup :=
  if Text.strip d.excerpt = "" then []
  else [Markup.classed "div" "signature-heading" (Markup.text "Signature"),
    Markup.classed "pre" "signature" (Markup.text d.signature)]

def remarks (origin : Log.Origin) (d : Declaration) : Logged (List Markup) :=
  match d.comment.bind Comment.remarks with
  | none => return []
  | some ns => do
    let ms ← Comment.nodesMarkup origin ns
    return [Markup.classed "div" "remarks" (Markup.text "Remarks"), Markup.plain "div" (.block ms)]

/-- Every one of the places has a file name. -/
def expectNameable (ps : List Place) : Logged Unit :=
  if ps.all Place.isNameable then return () else Logged.fail .longNumber

/-- A table cell about a member. -/
def cell (origin : Log.Origin) (p : Place) : Cell → Logged Markup
  | .reference => do
    expectNameable [p]
    return Markup.anchor p.self.conciseSignature p.link "ref"
  | .signature => return Markup.text p.self.conciseSignature
  | .modifiers =>
    return if p.self.isStatic then Markup.classed "code" "modifiers" (Markup.text "static")
      else Markup.classed "div" "modifiers" (.block [])
  | .propertyType => return Markup.classed "code" "type" (Markup.text p.self.propertyType)
  | .initializer => return Markup.text p.self.initializer
  | .description =>
    match p.self.comment with
    | none => return Markup.classed "div" "description" (.block [])
    | some c => do
      let ms ← Comment.nodesMarkup origin c.summary
      return Markup.classed "div" "description" (.block ms)

def cells (origin : Log.Origin) (p : Place) : List Column → Logged (List Markup)
  | [] => return []
  | c :: cs => do
    let m ← cell origin p c.cell
    return m :: (← cells origin p cs)

/-- The rows of the listed members in order, each with its table. A member of no known kind ends
the work; members of known kinds that have no table are passed over. -/
def rows (origin : Log.Origin) (page : Kind) : List Placed → Logged (List (Section × Markup))
  | [] => return []
  | m :: ms =>
    if !m.self.kind.isKnown then Logged.fail (unsupported m.self)
    else
      match Section.forMember? page m.self with
      | none => rows origin page ms
      | some s => do
        let cs ← cells origin m.place s.columns
        let rest ← rows origin page ms
        return (s, Markup.row cs) :: rest

/-- A table under its title; a table without rows is left out. -/
def titled (title : String) (headings : List String) (rows : List Markup) : List Markup :=
  if rows.isEmpty then []
  else [Markup.classed "h3" "section-heading" (Markup.text title),
    Markup.Table.toMarkup ⟨headings, rows⟩]

def rowsOf (s : Section) (rs : List (Section × Markup)) : List Markup :=
  (rs.filter fun r => r.1 = s).map Prod.snd

def tables (page : Kind) (rs : List (Section × Markup)) : List Markup :=
  (Section.allOn page).flatMap fun s => titled s.title s.headings (rowsOf s rs)

def parameterTable (d : Declaration) : List Markup :=
  titled "Parameters" ["Parameter", "Type", "Description"]
    (d.parameters.map fun q => Markup.row [Markup.text q.name, Markup.text q.type])

def body (origin : Log.Origin) (k : Kind) (p : Placed) : Logged (List Markup) := do
  let rs ← if (Section.allOn k).isEmpty then pure [] else rows origin k (p.listed k)
  return tables k rs ++ (if k.isFunctionLike then parameterTable p.self else [])

/-- All that an item's page says about it. -/
def main (origin : Log.Origin) (root : Place) (p : Placed) : Logged (List Markup) := do
  expectNameable (root :: trail p.place)
  let title ← heading origin p.place
  let summary ← summary origin p.self
  let k ← match p.self.kind.kind? with
    | some k => pure k
    | none => Logged.fail (unsupported p.self)
  let first ← if hasRemarksFirst k then remarks origin p.self else pure []
  let tables ← body origin k p
  let last ← if hasRemarksFirst k then pure [] else remarks origin p.self
  return breadcrumb root p.place ++
    [Markup.classed "h1" "page-header" (Markup.text title)] ++ betaNotice p.self ++ summary ++
    signature p.self ++ first ++ tables ++ last

/-- The band on top of every page. -/
def banner (c : Config) : Markup :=
  Markup.plain "header" (.block
    [Markup.classed "div" "header-top" (.block [Markup.anchor "" c.logoHref "header-logo"]),
      Markup.classed "div" "header-bottom" (.block [])])

def failureOf : Markup.Fault → Failure
  | .noContent => .noElements
  | .notElement => .notElement
  | .longNumber => .longNumber

def text (origin : Log.Origin) (c : Config) (root : Place) (p : Placed) : Logged String := do
  let content ← main origin root p
  match Markup.renderDocument [c.stylesheet]
      [banner c, Markup.classed "div" "main" (.block content)] with
  | .ok s => return s
  | .error f => Logged.fail (failureOf f)

end RefSite.Page
