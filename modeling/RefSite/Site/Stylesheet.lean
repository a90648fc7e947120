namespace RefSite.Stylesheet

/-- The style sheet that comes with the program. -/
def lines : List String :=
  ["body \x7b",
    "  margin: 0;",
    "  font-family: -apple-system, \"Segoe UI\", Helvetica, Arial, sans-serif;",
    "  color: #1d232b;",
    "\x7d",
    "",
    "header .header-top \x7b",
    "  height: 56px;",
    "  padding: 0 24px;",
    "  background: #0098ff;",
    "\x7d",
    "",
    "header .header-logo \x7b",
    "  display: inline-block;",
    "  width: 160px;",
    "  height: 56px;",
    "\x7d",
    "",
    "header .header-bottom \x7b",
    "  height: 4px;",
    "  background: #008eff;",
    "\x7d",
    "",
    ".main \x7b",
    "  max-width: 1080px;",
    "  margin: 0 auto;",
    "  padding: 16px 24px 48px;",
    "\x7d",
    "",
    "a.breadcrumb,",
    "span.breadcrumb \x7b",
    "  font-size: 14px;",
    "  color: #525760;",
    "\x7d",
    "",
    ".page-header \x7b",
    "  margin: 24px 0 16px;",
    "  font-size: 28px;",
    "\x7d",
    "",
    ".beta-warning:not(:empty) \x7b",
    "  padding: 8px 12px;",
    "  border-left: 4px solid #f5a623;",
    "  background: #fff8e6;",
    "\x7d",
    "",
    ".summary p,",
    ".description p \x7b",
    "  margin: 0 0 8px;",
    "\x7d",
    "",
    ".signature-heading,",
    ".remarks \x7b",
    "  margin-top: 24px;",
    "  font-weight: 600;",
    "\x7d",
    "",
    "pre.signature \x7b",
    "  padding: 12px;",
    "  overflow-x: auto;",
    "  background: #f4f6f8;",
    "  border-radius: 4px;",
    "\x7d",
    "",
    ".section-heading \x7b",
    "  margin-top: 32px;",
    "\x7d",
    "",
    "table \x7b",
    "  width: 100%;",
    "  border-collapse: collapse;",
    "\x7d",
    "",
    "th,",
    "td \x7b",
    "  padding: 8px;",
    "  border-bottom: 1px solid #e3e6ea;",
    "  text-align: left;",
    "  vertical-align: top;",
    "\x7d",
    "",
    "a.ref \x7b",
    "  font-family: Menlo, Consolas, monospace;",
    "\x7d",
    "",
    "code.modifiers,",
    "code.type \x7b",
    "  font-size: 13px;",
    "\x7d",
    "",
    "a[href=\"missing-link\"] \x7b",
    "  color: #c0392b;",
    "\x7d"]

/-- The style sheet; every line ends with a line feed. -/
def text : String := String.join (lines.map fun l => l ++ "\n")

end RefSite.Stylesheet
