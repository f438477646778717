import Stylesheet.CommandLine.Run

/-! The command. Compilation sees files as a value, so those that the stylesheets may import are read before it. -/

namespace Stylesheet.Main

/-- The bytes of a file, if it can be read. -/
def bytes? (path : String) : IO (Option ByteArray) := do
  try return some (← IO.FS.readBinFile path)
  catch _ => return none

/-- A stylesheet, as far as its imports matter. -/
def sheet? (path : String) (directory : Option Path) (source : ByteArray) (indented : Bool) : Option Sheet := do
  let source ← String.fromUTF8? source
  let statements ← (Statement.parse source path indented).toOption
  return { path, source, directory, chain := [], statements }

/-- Adds the files that stylesheets may import, and those that these may import in turn. -/
partial def gather (search : ImportSearch) (files : FileSystem) : List Sheet → IO FileSystem
  | [] => return files
  | sheet :: rest => do
    let mut files := files
    let mut found := []
    for path in (Statement.references sheet.statements).flatMap (Import.paths search sheet) do
      if !files.isFile path then
        if let some bytes ← bytes? path then
          files := files.addFile (Path.ofString path).parts bytes
          found := found ++ (sheet? path (Import.directoryOf? path) bytes (Import.isIndented path)).toList
    gather search files (found ++ rest)

def filesFor (line : CommandLine) (stdin : String) : IO FileSystem := do
  let current := Path.ofString (← IO.currentDir).toString
  let files := FileSystem.start current.parts
  let search : ImportSearch := { hook := none, includePaths := line.includePaths, current, files }
  match line.inputFile with
  | none =>
    let directory := line.input.bind fun path => (current.join (Path.ofString path)).normalize.parent?
    gather search files (sheet? "stdin" directory stdin.toUTF8 (line.has .indented)).toList
  | some input =>
    match ← bytes? input with
    | none => return files
    | some bytes =>
      let given := current.join (Path.ofString input)
      let path := given.normalize
      let onTheWay := (FileSystem.withParents given.parts.dropLast).map fun parts =>
        (Path.mk true parts).normalize.parts
      let files := onTheWay.foldl FileSystem.addDirectory (files.addFile path.parts bytes)
      let indented := line.has .indented || Import.isIndented path.toString
      gather search files (sheet? path.toString path.parent? bytes indented).toList

partial def readAll (input : IO.FS.Stream) (text : String) : IO String := do
  let line ← input.getLine
  if line.isEmpty then return text else readAll input (text ++ line)

/-- Why the system could not write a file. -/
def reason : IO.Error → String
  | .noFileOrDirectory .. => FileFault.missing.message
  | error => error.toString

/-- Writes files in order, up to the first that cannot be written. -/
def writeAll : List (String × String) → IO (Option String)
  | [] => return none
  | (path, text) :: rest => do
    try
      IO.FS.writeFile path text
      writeAll rest
    catch error => return some (CommandLine.writeFailure path (reason error))

/-- Carries a plan out and gives the exit code. -/
def carryOut (plan : CommandLine.Plan) : IO UInt32 := do
  IO.eprint plan.notes
  match ← writeAll plan.writes with
  | some failure =>
    IO.eprint failure
    return 1
  | none =>
    IO.print plan.stdout
    IO.eprint plan.afterwards
    return plan.exit.toUInt32

def run (arguments : List String) : IO UInt32 := do
  match CommandLine.parse arguments with
  | .error _ =>
    IO.eprint CommandLine.helpText
    return 2
  | .ok line =>
    match line.information? with
    | some text =>
      IO.print text
      return 0
    | none =>
      let stdin ← if line.inputFile.isNone then readAll (← IO.getStdin) "" else pure ""
      carryOut (line.plan (line.compile (← filesFor line stdin) stdin))

end Stylesheet.Main

def main (arguments : List String) : IO UInt32 := Stylesheet.Main.run arguments
