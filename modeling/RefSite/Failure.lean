import RefSite.Files.Path
import RefSite.Item.Kind
import RefSite.Value.Text

namespace RefSite

/-- The text of where a model came from. -/
def sourceText : Option Path → String
  | none => "None"
  | some p => p.text

inductive ModelFault where
  | unparsable (path : Path)
  | notMapping (path : Path)
  | packagesNotList (path : Path)
  | notPackage (path : Path) (kind : Kind)
  | itemNotMapping (source : Option Path) (raw : Value)
  | unknownKind (source : Option Path) (raw : Value)
  | badOverload (source : Option Path) (raw : Value)
  | parameterNotMapping (source : Option Path) (raw : Value)
  | unknownRelease (source : Option Path) (raw : Value)
  | commentNotMapping (source : Option Path)
  | commentNodeNotMapping (source : Option Path) (raw : Value)
  deriving Repr

def ModelFault.message : ModelFault → String
  | unparsable path => "Could not parse " ++ path.text
  | notMapping path => "Expected a mapping at the top of " ++ path.text
  | packagesNotList path => "'packages' must be a list in " ++ path.text
  | notPackage path kind =>
    "Top-level item in " ++ path.text ++ " must be a Package, got " ++ kind.constantName
  | itemNotMapping source raw =>
    "Expected an item mapping in " ++ sourceText source ++ ", got " ++ raw.shown
  | unknownKind source raw =>
    "Unknown API item kind " ++ raw.shown ++ " in " ++ sourceText source
  | badOverload source raw =>
    "overloadIndex must be an integer in " ++ sourceText source ++ ", got " ++ raw.shown
  | parameterNotMapping source raw =>
    "Expected a parameter mapping in " ++ sourceText source ++ ", got " ++ raw.shown
  | unknownRelease source raw =>
    "Unknown release tag " ++ raw.shown ++ " in " ++ sourceText source
  | commentNotMapping source => "docComment must be a mapping in " ++ sourceText source
  | commentNodeNotMapping source raw =>
    "Expected a doc node mapping in " ++ sourceText source ++ ", got " ++ raw.shown

inductive ConfigFault where
  | missingFile (path : Path)
  | notMapping (path : Path)
  | unknownLineEnd (setting : String)
  | stylesheetOutside (stylesheet : String)
  | pluginWithoutModule (raw : Value)
  deriving Repr

def ConfigFault.message : ConfigFault → String
  | missingFile path => "Config file not found: " ++ path.text
  | notMapping path => "Config file must contain a mapping: " ++ path.text
  | unknownLineEnd setting => "Unknown newline_kind: " ++ Text.quoted setting
  | stylesheetOutside stylesheet =>
    "stylesheet must be a path inside the output folder: " ++ Text.quoted stylesheet
  | pluginWithoutModule raw => "Plugin entries need a 'module' key: " ++ raw.shown

inductive ImportFault where
  | missing (name : String)
  /-- The module was sought below one that holds no modules. -/
  | notPackage (name parent : String)
  /-- The module is there and refuses to be imported. -/
  | refused (reason : String)
  deriving DecidableEq, Repr

def ImportFault.message : ImportFault → String
  | missing name => "No module named " ++ Text.quoted name
  | notPackage name parent =>
    "No module named " ++ Text.quoted name ++ "; " ++ Text.quoted parent ++ " is not a package"
  | refused reason => reason

inductive PluginFault where
  | importFailed (module : String) (cause : ImportFault)
  | notFeature (module feature : String)
  deriving Repr

def PluginFault.message : PluginFault → String
  | importFailed module cause =>
    "Error loading plugin module " ++ Text.quoted module ++ ": " ++ cause.message
  | notFeature module feature =>
    module ++ "." ++ feature ++ " is not a DocumenterFeature subclass"

inductive FileFault where
  | notFound
  | alreadyThere
  | notFolder
  | isFolder
  | sameFile
  | nullInPath
  | tooLong
  | tooManyLinks
  /-- Links lead back to themselves where a path is made absolute. -/
  | linkCycle
  deriving DecidableEq, Repr

def FileFault.description : FileFault → String
  | notFound => "there is no such file or folder"
  | alreadyThere => "there is a file already"
  | notFolder => "a file stands where a folder is needed"
  | isFolder => "a folder stands where a file is needed"
  | sameFile => "a file cannot be copied onto itself"
  | nullInPath => "a path holds a null character"
  | tooLong => "a path is too long"
  | tooManyLinks => "there are too many links on the way"
  | linkCycle => "links lead back to themselves"

/-- Everything that can end a run. -/
inductive Failure where
  | unsupportedItem (kind : String)
  | unsupportedComment (kind : String)
  /-- Two items would be written to one file; both are described. -/
  | sharedFile (fileName first second : String)
  | model (fault : ModelFault)
  | config (fault : ConfigFault)
  | plugin (fault : PluginFault)
  | file (fault : FileFault)
  | noElements
  /-- Something else than an element stands among the children of a page element. -/
  | notElement
  /-- A number is infinite where a whole number is needed. -/
  | infiniteNumber
  | undecodable
  | malformed
  /-- A text holds half of a surrogate pair. It can be read, but not be written to a file. -/
  | surrogate
  /-- A scalar has the form of a number, day or character code that does not exist. -/
  | impossibleScalar
  /-- A tag asks for a number, and the scalar is empty. -/
  | emptyNumber
  /-- A tag asks for a truth value, and the scalar is none. -/
  | unknownTruthValue
  | longNumber
  /-- A tag asks for a time, and the scalar is none. -/
  | notTime
  /-- A tag asks for a time, and what it marks is a mapping. -/
  | compoundTime
  /-- Data that holds itself is read without end. -/
  | endless
  /-- The code of a character or the weight of a digit is beyond all bounds. -/
  | numberTooLarge
  | relativeModule
  | noFolder
  /-- An error that only plugins know. -/
  | foreign
  /-- A plugin failed while it was imported, made or called. -/
  | pluginRaised (cause : Failure)
  deriving Repr

namespace Failure

/-- The message of a failure that is reported to the user; the others have none. -/
def message? : Failure → Option String
  | unsupportedItem kind => some ("Unsupported API item kind: " ++ kind)
  | unsupportedComment kind => some ("Unsupported DocNode kind: " ++ kind)
  | sharedFile fileName first second =>
    some (fileName ++ " would hold both " ++ first ++ " and " ++ second)
  | model fault => some fault.message
  | config fault => some fault.message
  | plugin fault => some fault.message
  | pluginRaised cause => cause.message?
  | _ => none

/-- The failure in words, for a program that ends without a report. -/
def description : Failure → String
  | file fault => fault.description
  | noElements => "a value without elements stands where elements are needed"
  | notElement => "something else stands where a page element is needed"
  | infiniteNumber => "a number is infinite"
  | undecodable => "a file is not text"
  | malformed => "a settings file is not well-formed"
  | surrogate => "a text holds half of a surrogate pair"
  | impossibleScalar => "a value has the form of a number or day that does not exist"
  | emptyNumber => "a number is empty"
  | unknownTruthValue => "a truth value is none"
  | longNumber => "a number has too many digits"
  | notTime => "a time is none"
  | compoundTime => "a time is a mapping"
  | endless => "data holds itself where that has no end"
  | numberTooLarge => "a number is too large"
  | relativeModule => "a module name starts with a dot"
  | noFolder => "there is no folder for the pages"
  | foreign => "there is an error that is not known here"
  | pluginRaised cause => "a plugin failed: " ++ cause.description
  | f => f.message?.getD ""

/-- The failure is reported to the user and ends the program in an orderly way. -/
def isReported (f : Failure) : Bool := f.message?.isSome

end Failure

end RefSite
