import Stylesheet.FileSystem
import Stylesheet.Statement.Parser

/-! Imports of other stylesheets. A reference is offered to the import hook first. If the hook does not take it, a
reference to CSS is left to the browser, and any other is looked for in the directory of the importing stylesheet
and then in each include path, under several names. -/

namespace Stylesheet

/-- What an import hook says to a reference. -/
inductive HookAnswer where
  /-- The stylesheet and the name that it is known by. -/
  | accepted (path source : String) (sourceMap : Option String)
  | declined
  /-- No stylesheet may be imported. The place is left out by giving line zero. -/
  | failed (line column : Nat) (message : String)
  deriving DecidableEq, Repr

/-- A hook is asked with a reference and the name of the stylesheet that imports it. -/
abbrev ImportHook := String → String → HookAnswer

structure ImportSearch where
  hook : Option ImportHook
  includePaths : List String
  current : Path
  files : FileSystem

/-- A stylesheet that takes part in a compilation. -/
structure Sheet where
  path : String
  source : String
  /-- The directory that its imports are relative to. -/
  directory : Option Path
  /-- The names of this stylesheet, of the one that imports it, and so on to the first. -/
  chain : List String
  statements : List Statement
  deriving Repr, Inhabited

inductive ImportError where
  | hookFailed (message : String)
  | notFound (reference : String)
  | unreadable (path : String) (fault : FileFault)
  /-- A stylesheet imports itself, along these names. -/
  | loop (names : List String)
  deriving DecidableEq, Repr

namespace Import

def links : List String → List (String × String)
  | a :: b :: rest => (a, b) :: links (b :: rest)
  | _ => []

end Import

def ImportError.message : ImportError → String
  | hookFailed message => message
  | notFound reference => "Unable to find include file for @import \"" ++ reference ++ "\""
  | unreadable path fault =>
    "File to import not found or unreadable: " ++ path ++ " (" ++ fault.message ++ ")"
  | loop names =>
    let lines := (Import.links names).map fun (importer, imported) => "    " ++ importer ++ " imports " ++ imported
    "An @import loop has been found:\n" ++ "\n".intercalate lines

namespace Import

/-- Whether a reference is one for the browser. -/
def isCssReference (reference : String) : Bool :=
  reference.endsWith ".css" || reference.startsWith "http://" || reference.startsWith "https://"
    || reference.startsWith "//"

def hasExtension (path : Path) (extensions : List String) : Bool := path.extension?.any extensions.contains

/-- Whether a stylesheet is indented, as the end of its name says. -/
def isIndented (path : String) : Bool := (Path.ofString path).extension?.any fun e => e.toLower == "sass"

def directoryOf? (path : String) : Option Path := (Path.ofString path).parent?.filter (!·.isEmpty)

/-- The files that a reference may mean inside one directory, in the order in which they are tried. -/
def candidates (reference : String) : List Path :=
  let path := Path.ofString reference
  let directory := path.parent?.getD ⟨false, []⟩
  match path.fileName? with
  | none => []
  | some name =>
    let named (name : String) : Path := directory.join ⟨false, [name]⟩
    if hasExtension path ["scss", "sass", "css"] then [named name, named ("_" ++ name)]
    else
      (["scss", "sass", "css"].flatMap fun e => [named (name ++ "." ++ e), named ("_" ++ name ++ "." ++ e)])
        ++ (["scss", "sass"].flatMap fun e =>
          [path.join ⟨false, ["index." ++ e]⟩, path.join ⟨false, ["_index." ++ e]⟩])

/-- The directories that references of a stylesheet are looked for in. -/
def roots (search : ImportSearch) (sheet : Sheet) : List Path :=
  sheet.directory.getD search.current :: search.includePaths.map fun dir => search.current.join (Path.ofString dir)

/-- The files that a reference may mean, in the order in which they are tried. -/
def paths (search : ImportSearch) (sheet : Sheet) (reference : String) : List String :=
  (roots search sheet).flatMap fun root =>
    (candidates reference).map fun candidate => (root.join candidate).normalize.toString

def locate? (search : ImportSearch) (sheet : Sheet) (reference : String) : Option String :=
  (paths search sheet reference).find? search.files.isFile

/-- The names along a loop, if a stylesheet of this name would import itself. -/
def loop? (sheet : Sheet) (path : String) : Option (List String) :=
  if sheet.chain.contains path then
    some ((sheet.chain.takeWhile (· != path) ++ [path]).reverse ++ [path])
  else none

end Import

end Stylesheet
