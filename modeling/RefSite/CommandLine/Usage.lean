import RefSite.CommandLine.Program

namespace RefSite.CommandLine

/-- The lines of the help text. -/
def usage : List String :=
  ["usage: " ++ programName ++ " [-h] [-o FOLDER] [--config FILE] [--newline KIND] [-v] inputs ...",
    "",
    "Generates reference pages from the descriptions of an interface.",
    "",
    "  inputs                      model files, or folders with such files",
    "  -o, --output-folder FOLDER  the folder for the pages; whatever is in it is deleted first",
    "  --config FILE               settings: line ends, style sheet, plugins",
    "  --newline KIND              the line ends of the pages: crlf, lf or os",
    "  -v, --verbose               reports every file that is written",
    "  -h, --help                  shows this text"]

end RefSite.CommandLine
