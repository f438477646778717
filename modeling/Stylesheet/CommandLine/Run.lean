import Stylesheet.CommandLine
import Stylesheet.Compiler

/-! What the command does. The compilation comes first, and then the files are written one by one, until one of them
cannot be written. -/

namespace Stylesheet.CommandLine

/-- What is to be done once the stylesheet is compiled. -/
structure Plan where
  /-- What standard error shows first. -/
  notes : String
  /-- Files and their texts, in the order in which they are written. -/
  writes : List (String × String)
  stdout : String
  /-- What standard error shows when all files are written. -/
  afterwards : String
  exit : Nat
  deriving DecidableEq, Repr

/-- The lines of standard error for those events that are shown. -/
def logText (line : CommandLine) (events : List LogEvent) : String :=
  String.join ((events.filter fun event => line.shows event.level).map fun event =>
    "[" ++ event.level.name ++ "] " ++ event.message ++ "\n")

/-- Compiles the input, or the text of standard input under its name. -/
def compile (line : CommandLine) (files : FileSystem) (stdin : String) : Outcome :=
  match line.inputFile with
  | some path =>
    let compiler : Compiler := { options := line.options, files, hook := none }
    let outcome := compiler.compileExisting path
    { outcome with log := .compiling path :: outcome.log }
  | none =>
    let compiler : Compiler := { options := { line.options with inputFile := line.input }, files, hook := none }
    compiler.compileText .created stdin

def withFinalNewline (text : String) : String := if text.endsWith "\n" then text else text ++ "\n"

/-- What is done with the result of a compilation: it goes to the output file with its source map beside it, or to
standard output, where a source map is lost. -/
def plan (line : CommandLine) (outcome : Outcome) : Plan :=
  let notes := line.logText outcome.log
  match outcome.result with
  | .error failure =>
    { notes := notes ++ failure.message ++ "\n", writes := [], stdout := "", afterwards := "", exit := 1 }
  | .ok compiled =>
    let separateMap := if line.has .embedSourceMap then none else compiled.sourceMap
    let included := (compiled.includedFiles.getD []).map LogEvent.included
    match line.output with
    | some path =>
      { notes
        writes := (path, compiled.css) :: separateMap.toList.map fun map => (path ++ ".map", map)
        stdout := ""
        afterwards := line.logText included
        exit := 0 }
    | none =>
      { notes
        writes := []
        stdout := withFinalNewline compiled.css
        afterwards := line.logText (separateMap.toList.map (fun _ => .sourceMapDropped) ++ included)
        exit := 0 }

def versionText : String := "scssc " ++ version ++ " (Sass " ++ languageVersion ++ ")\n"

def helpText : String :=
  "\n".intercalate [
    "Compile SCSS or indented Sass stylesheets to CSS",
    "",
    "Usage: scssc [OPTIONS] [INPUT]",
    "",
    "  -o, --output <OUTPUT>",
    "  -t, --style <STYLE>",
    "      --precision <PRECISION>",
    "  -l, --source-comments",
    "  -m, --source-map",
    "      --embed-source-map",
    "      --source-map-contents",
    "      --omit-map-comment",
    "      --source-map-root <SOURCE_MAP_ROOT>",
    "  -a, --sass",
    "      --indent <INDENT>",
    "      --linefeed <LINEFEED>",
    "  -I, --include-path <INCLUDE_PATHS>",
    "  -s, --stdin",
    "  -v, --verbose",
    "  -q, --quiet",
    "  -V, --version",
    "  -h, --help",
    ""]

/-- What a command shows instead of compiling, if it is asked to. -/
def information? (line : CommandLine) : Option String :=
  if line.has .help then some helpText
  else if line.has .version then some versionText
  else none

structure Report where
  exit : Nat
  stdout : String
  stderr : String
  files : FileSystem

def writeFailure (path : String) (reason : String) : String := "could not write " ++ path ++ ": " ++ reason ++ "\n"

/-- Writes files in order, up to the first that cannot be written. -/
def writeAll (files : FileSystem) : List (String × String) → FileSystem × Option (String × FileFault)
  | [] => (files, none)
  | (path, text) :: rest =>
    match files.write path text with
    | .ok files => writeAll files rest
    | .error fault => (files, some (path, fault))

def Plan.run (plan : Plan) (files : FileSystem) : Report :=
  match writeAll files plan.writes with
  | (files, none) => { exit := plan.exit, stdout := plan.stdout, stderr := plan.notes ++ plan.afterwards, files }
  | (files, some (path, fault)) =>
    { exit := 1, stdout := "", stderr := plan.notes ++ writeFailure path fault.message, files }

def run (line : CommandLine) (files : FileSystem) (stdin : String) : Report :=
  match line.information? with
  | some text => { exit := 0, stdout := text, stderr := "", files }
  | none => (line.plan (line.compile files stdin)).run files

end Stylesheet.CommandLine
