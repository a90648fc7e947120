import RefSite.CommandLine.Switch
import RefSite.Text.Digits
import RefSite.Text.Quoted
import RefSite.Text.LineEnd

namespace RefSite.CommandLine

/-- How a word of switches ends. -/
inductive Last where
  | flag (f : Flag)
  /-- A flag with a value, which it cannot take. -/
  | refused (f : Flag) (value : String)
  /-- A switch whose value is in the same word or else to be found in the next. -/
  | setting (s : Setting) (value : Option String)
  deriving DecidableEq, Repr

inductive Word where
  | value (text : String)
  /-- Two hyphens: all words after it are values. -/
  | separator
  /-- Switches; the flags in front are joined to the last one. -/
  | switches (lead : List Flag) (last : Last)
  /-- A word with a hyphen in front that is neither a switch nor a value. -/
  | unknown (text : String)
  deriving DecidableEq, Repr

/-- Why a command line was refused. -/
inductive Fault where
  | ambiguous (word : String) (candidates : List String)
  | refusedValue (f : Flag) (value : String)
  | missingValue (s : Setting)
  | unknownLineEnd (value : String)
  | missingInputs
  | unrecognized (words : List String)
  deriving DecidableEq, Repr

def Fault.message : Fault → String
  | ambiguous word candidates =>
    "ambiguous option: " ++ word ++ " could match " ++ ", ".intercalate candidates
  | refusedValue f value =>
    "argument " ++ (Switch.flag f).shown ++ ": ignored explicit argument " ++ Text.quoted value
  | missingValue s => "argument " ++ (Switch.setting s).shown ++ ": expected one argument"
  | unknownLineEnd value =>
    "argument " ++ (Switch.setting .lineEnd).shown ++ ": invalid choice: " ++ Text.quoted value ++
      " (choose from " ++ ", ".intercalate (LineEnd.all.map fun k => Text.quoted k.setting) ++ ")"
  | missingInputs => "the following arguments are required: inputs"
  | unrecognized words => "unrecognized arguments: " ++ " ".intercalate words

namespace Word

/-- The end of a word with a switch that has an equals sign and a value behind it. -/
def withValue (s : Switch) (value : String) : Last :=
  match s with
  | .flag f => .refused f value
  | .setting s => .setting s (some value)

/-- Short switches joined into one word, from the switch `s` and the text behind it. A switch with
a value takes the whole text; a flag leaves it to the switches that the text goes on with, and if
there is none it is a value that the flag cannot take. -/
def joined (s : Switch) : List Char → List Flag × Last
  | [] =>
    match s with
    | .flag f => ([], .flag f)
    | .setting s => ([], .setting s none)
  | c :: cs =>
    match s with
    | .setting s => ([], .setting s (some (String.ofList (c :: cs))))
    | .flag f =>
      match Switch.ofSpelling? (String.ofList ['-', c]) with
      | none => ([], .refused f (String.ofList (c :: cs)))
      | some t =>
        let r := joined t cs
        (f :: r.1, r.2)

def ofJoined (s : Switch) (cs : List Char) : Word :=
  let r := joined s cs
  switches r.1 r.2

def ofSwitch (s : Switch) : Word :=
  match s with
  | .flag f => switches [] (.flag f)
  | .setting s => switches [] (.setting s none)

/-- The text before the first equals sign, and the text after it if there is one. -/
def splitEquals (cs : List Char) : String × Option String :=
  (String.ofList (cs.takeWhile (· != '=')),
    match cs.dropWhile (· != '=') with
    | [] => none
    | _ :: given => some (String.ofList given))

/-- A switch as a word, with its value if there is one. -/
def ofSwitchWith (s : Switch) : Option String → Word
  | none => ofSwitch s
  | some given => switches [] (withValue s given)

/-- The switches with a spelling that begins in the given way. -/
def beginning (start : String) : List (String × Switch) :=
  Switch.table.filter fun x => start.toList.isPrefixOf x.1.toList

/-- A digit of any script. -/
def isDigit (c : Char) : Bool := (Text.digitValue? c).isSome

def isNumber (cs : List Char) : Bool :=
  match cs.dropWhile isDigit with
  | [] => !cs.isEmpty
  | '.' :: ds => !ds.isEmpty && ds.all isDigit
  | _ => false

def dropFinalFeed (cs : List Char) : List Char :=
  if cs.getLast? = some '\n' then cs.dropLast else cs

/-- A word with a hyphen in front that is no switch: negative numbers and words with a space in them
are values. -/
def other (word : String) (cs : List Char) : Word :=
  if isNumber (dropFinalFeed cs) || cs.contains ' ' then value word
  else unknown word

/-- A word that starts with two hyphens and is no spelling of a switch: the beginning of the
spelling of a single one, with or without a value. -/
def ofLong (word : String) (cs : List Char) : Except Fault Word :=
  let (start, given) := splitEquals ('-' :: cs)
  match beginning start with
  | [] => .ok (other word cs)
  | [(_, s)] => .ok (ofSwitchWith s given)
  | found => .error (.ambiguous word (found.map Prod.fst))

/-- A word that starts with a single hyphen and is no spelling of a switch: joined short ones. -/
def ofShort (word : String) (cs : List Char) : Word :=
  match cs with
  | [] => value word
  | c :: rest =>
    match Switch.ofSpelling? (String.ofList ['-', c]) with
    | some s => ofJoined s rest
    | none => other word cs

/-- A switch with an equals sign and a value behind it. Behind a short flag the value is read as
further short switches, unless it is empty. -/
def ofEquals (start : String) (s : Switch) (given : String) : Word :=
  if start.length = 2 && given != "" then ofJoined s given.toList else ofSwitchWith s (some given)

def ofText (word : String) : Except Fault Word :=
  match word.toList with
  | '-' :: cs =>
    let (start, given) := splitEquals ('-' :: cs)
    match Switch.ofSpelling? word, Switch.ofSpelling? start with
    | some s, _ => .ok (ofSwitch s)
    | none, some s => .ok (ofEquals start s (given.getD ""))
    | none, none =>
      if cs.head? = some '-' then ofLong word cs else .ok (ofShort word cs)
  | _ => .ok (value word)

def ofTexts : List String → Except Fault (List Word)
  | [] => .ok []
  | w :: ws =>
    if w = "--" then .ok (separator :: ws.map value)
    else do
      let x ← ofText w
      return x :: (← ofTexts ws)

end Word

end RefSite.CommandLine
