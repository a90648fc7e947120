import RefSite.Comment.Basic
import RefSite.Logged
import RefSite.Markup.Basic
import RefSite.Value.Text

namespace RefSite.Comment

def missingHref : String := "missing-link"

def missingLabel : String := "Missing Link"

/-- The report of a link that names a declaration instead of an address. -/
def missingLinkEntry (origin : Log.Origin) (declaration : Value) : Log.Entry where
  origin
  level := .warning
  message? := declaration.written?.map ("DocLinkTag with codeDestination not supported: " ++ ·)

/-- The first value that counts as given, or else the second. -/
def firstGiven (v w : Value) : Value := if v.truthy then v else w

def linkMarkup (origin : Log.Origin) (label url declaration : Value) : Logged Markup :=
  if url.truthy then
    pure (Markup.anchorOf (Markup.ofValue (firstGiven label url)) url .null)
  else do
    Logged.report (missingLinkEntry origin declaration)
    pure (Markup.anchorOf (Markup.ofValue (firstGiven label (.text missingLabel)))
      (.text missingHref) .null)

/-- What becomes of a node whose kind does not go with its content. -/
def unmatched (kind : String) : Logged (Option Markup) :=
  if kind = softBreakKind then pure none else Logged.fail (.unsupportedComment kind)

mutual

/-- The markup of a node; a line break has none. -/
def nodeMarkup (origin : Log.Origin) : Node → Logged (Option Markup)
  | .bare kind => unmatched kind
  | .paragraph kind nodes =>
    if kind = paragraphKind then do
      let ms ← nodesMarkup origin nodes
      pure (some (Markup.plain "p" (.block ms)))
    else unmatched kind
  | .softBreak kind => unmatched kind
  | .code kind code =>
    if kind = codeKind then pure (some (Markup.plain "code" (Markup.ofValue code)))
    else unmatched kind
  | .link kind label url declaration =>
    if kind = linkKind then do
      let m ← linkMarkup origin label url declaration
      pure (some m)
    else unmatched kind
  | .plain kind text =>
    if kind = plainKind then pure (some (Markup.plain "span" (Markup.ofValue text)))
    else unmatched kind

def nodesMarkup (origin : Log.Origin) : List Node → Logged (List Markup)
  | [] => pure []
  | n :: ns => do
    let m ← nodeMarkup origin n
    let ms ← nodesMarkup origin ns
    pure (m.toList ++ ms)

end

theorem nodesMarkup_nil (origin : Log.Origin) : nodesMarkup origin [] = pure [] := by
  simp only [nodesMarkup]

theorem nodeMarkup_softBreak (origin : Log.Origin) :
    nodeMarkup origin (.softBreak softBreakKind) = pure none := by
  simp [nodeMarkup, unmatched]

end RefSite.Comment
