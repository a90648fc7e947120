namespace RefSite.Log

inductive Level where
  | debug
  | info
  | warning
  | error
  deriving DecidableEq, Repr, Inhabited

def Level.text : Level → String
  | .debug => "DEBUG"
  | .info => "INFO"
  | .warning => "WARNING"
  | .error => "ERROR"

/-- The part of the program that reports, or a log the caller chose. -/
inductive Origin where
  | site
  | comments
  | model
  | files
  | commandLine
  | chosen (name : String)
  deriving DecidableEq, Repr, Inhabited

def Origin.name : Origin → String
  | .site => "apidoc_html.html_documenter"
  | .comments => "apidoc_html.render_doc_nodes"
  | .model => "apidoc_html.load_api_model"
  | .files => "apidoc_html.file_system"
  | .commandLine => "apidoc_html.run_documenter"
  | .chosen name => name

structure Entry where
  origin : Origin
  level : Level
  /-- There is none if what is to be said cannot be written. Whoever reports goes on all the same. -/
  message? : Option String
  deriving DecidableEq, Repr, Inhabited

def Entry.line? (e : Entry) : Option String :=
  e.message?.map fun m => e.level.text ++ " " ++ e.origin.name ++ ": " ++ m

end RefSite.Log
