import Stylesheet.Css.Writer
import Stylesheet.Evaluation
import Stylesheet.Options

/-! Compilation of a stylesheet: it is parsed, evaluated and written. The log tells how far it came, and it ends in
success or in failure. -/

namespace Stylesheet

structure Compiler where
  options : Options
  files : FileSystem
  hook : Option ImportHook

structure Compiled where
  css : String
  sourceMap : Option String
  /-- The file that was compiled and the stylesheets that it imports, if there are any. -/
  includedFiles : Option (List String)
  deriving DecidableEq, Repr

structure Outcome where
  result : Except Failure Compiled
  /-- The stage that it ends in. -/
  stage : Stage
  log : List LogEvent
  /-- The references that the import hook was asked about, each with the importing stylesheet. -/
  hookCalls : List (String × String)

/-- A stylesheet before it is parsed. -/
structure Entry where
  path : String
  source : String
  indented : Bool
  directory : Option Path
  /-- Whether it counts as an included file itself. -/
  listed : Bool
  deriving Repr

namespace Compiler

variable (compiler : Compiler)

def current : Path := ⟨true, compiler.files.current⟩

/-- The absolute path in normal form. -/
def rooted (path : String) : Path := (compiler.current.join (Path.ofString path)).normalize

def environment : Evaluation.Environment :=
  { places := compiler.options.precision
    search :=
      { hook := compiler.hook
        includePaths := compiler.options.includePaths
        current := compiler.current
        files := compiler.files } }

def outputPath : Path :=
  match compiler.options.outputFile with
  | some path => compiler.rooted path
  | none => compiler.current.join (Path.ofString "result.css")

def sourceMapPath : Path :=
  match compiler.options.sourceMapFile with
  | some path => compiler.rooted path
  | none => Path.ofString (compiler.outputPath.toString ++ ".map")

def directoryOf (path : Path) : Path := path.parent?.getD compiler.current

/-- The source map of a text, which names all files as they are seen from its own directory. -/
def sourceMap (sources : List Css.Source) (mappings : List Mapping) : SourceMap :=
  let directory := compiler.directoryOf compiler.sourceMapPath
  { file := Path.relativeText directory compiler.outputPath.toString
    sourceRoot := compiler.options.sourceMapRoot.getD ""
    sources := sources.map fun source => Path.relativeText directory source.path
    contents := if compiler.options.sourceMapContents then some (sources.map (·.text)) else none
    mappings }

/-- The address of a source map, as the CSS gives it. -/
def sourceMapUrl (json : String) : String :=
  if compiler.options.embedSourceMap then SourceMap.dataUrl json
  else Path.relativeText (compiler.directoryOf compiler.outputPath) compiler.sourceMapPath.toString

/-- The CSS with a comment that tells where its source map is. -/
def withSourceMapUrl (css json : String) : String :=
  let separator := if css.isEmpty || css.endsWith "\n" then "" else compiler.options.linefeed
  css ++ separator ++ "/*# sourceMappingURL=" ++ compiler.sourceMapUrl json ++ " */"

def finish (written : Css.Written) (sources : List Css.Source) : String × Option String :=
  if compiler.options.sourceMap then
    let json := (compiler.sourceMap sources written.mappings).json
    if compiler.options.omitSourceMapUrl then (written.css, some json)
    else (compiler.withSourceMapUrl written.css json, some json)
  else (written.css, none)

def writeFailure (tree : Css.Tree) (error : Css.WriteError) : Failure :=
  .evaluation (.operation error.error) error.span.pos
    ((tree.sources[error.span.source]?.map (·.path)).getD "stdin")

/-- The references that the hook was asked about, each with the importing stylesheet. -/
def hookCalls (state : Evaluation.State) : List (String × String) :=
  if compiler.hook.isSome then state.lookups.reverse.map fun lookup => (lookup.reference, lookup.importer.path) else []

def failed (stage : Stage) (failure : Failure) (log : List LogEvent) (hookCalls : List (String × String)) :
    Outcome :=
  { result := .error failure
    stage := .failed
    log := log ++ [.failure failure.message, .stage stage .failed]
    hookCalls }

def emit (entry : Entry) (state : Evaluation.State) (log : List LogEvent) : Outcome :=
  let hookCalls := compiler.hookCalls state
  let log := log ++ [.stage .evaluating .emitting]
  match state.tree.write compiler.options.format with
  | .error error => failed .emitting (writeFailure state.tree error) log hookCalls
  | .ok written =>
    let (css, sourceMap) := compiler.finish written state.tree.sources
    let included := (if entry.listed then [entry.path] else []) ++ state.imported.reverse
    { result := .ok { css, sourceMap, includedFiles := if included.isEmpty then none else some included }
      stage := .succeeded
      log := log ++ [.stage .emitting .succeeded]
      hookCalls }

/-- Compiles a stylesheet that is parsed. -/
def compileSheet (entry : Entry) (sheet : Sheet) (log : List LogEvent) : Outcome :=
  let (result, state) := Evaluation.evaluate compiler.environment sheet
  let log := log ++ .stage .parsing .evaluating :: state.log.reverse
  match result with
  | .error failure => failed .evaluating failure log (compiler.hookCalls state)
  | .ok () => compiler.emit entry state log

def compileEntry (before : Stage) (entry : Entry) : Outcome :=
  let log : List LogEvent :=
    [.stage before .parsing, .parsing entry.path entry.source.utf8ByteSize entry.indented]
  match Statement.parse entry.source entry.path entry.indented with
  | .error error => failed .parsing (.malformed error entry.path) log []
  | .ok statements =>
    let sheet : Sheet :=
      { path := entry.path, source := entry.source, directory := entry.directory, chain := [entry.path], statements }
    compiler.compileSheet entry sheet log

def compileText (before : Stage) (source : String) : Outcome :=
  let input := compiler.options.inputFile.map compiler.rooted
  compiler.compileEntry before
    { path := (input.map Path.toString).getD "stdin"
      source
      indented := compiler.options.indented
      directory := input.bind Path.parent?
      listed := false }

/-- A failure before any stage is reached. -/
def refused (before : Stage) (failure : Failure) : Outcome :=
  { result := .error failure, stage := before, log := [], hookCalls := [] }

def compileFile (before : Stage) (path : String) : Outcome :=
  let path := compiler.rooted path
  match compiler.files.read path.toString with
  | .error .missing => refused before (.fileNotFound path.toString)
  | .error fault => refused before (.unreadable fault)
  | .ok source =>
    compiler.compileEntry before
      { path := path.toString
        source
        indented := compiler.options.indented || Import.isIndented path.toString
        directory := path.parent?
        listed := true }

def compileExisting (path : String) : Outcome :=
  if compiler.files.isFile path then compiler.compileFile .created path
  else refused .created (.fileNotFound path)

end Compiler

def version : String := "0.1.0"

def languageVersion : String := "3.5"

end Stylesheet
