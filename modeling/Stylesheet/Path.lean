import Stylesheet.Text.Blank

/-! Paths of files. A path is a sequence of names with slashes between them; repeated slashes and names of one
point mean nothing, except for a point at the beginning of a relative path. -/

namespace Stylesheet

structure Path where
  absolute : Bool
  parts : List String
  deriving DecidableEq, Repr, Inhabited

namespace Path

def ofString (s : String) : Path :=
  let segments := (Text.pieces (· == '/') s.toList).map String.ofList
  let named := segments.filter fun segment => !segment.isEmpty && segment != "."
  match segments with
  | "" :: _ :: _ => ⟨true, named⟩
  | "." :: _ => ⟨false, "." :: named⟩
  | _ => ⟨false, named⟩

def toString (path : Path) : String := (if path.absolute then "/" else "") ++ "/".intercalate path.parts

def isEmpty (path : Path) : Bool := !path.absolute && path.parts.isEmpty

def parent? (path : Path) : Option Path :=
  if path.parts.isEmpty then none else some { path with parts := path.parts.dropLast }

/-- Whether a part is the name of a file or a directory. -/
def isName (part : String) : Bool := part != "." && part != ".."

def fileName? (path : Path) : Option String := path.parts.getLast?.filter isName

/-- What stands behind the last point of the file name, if anything stands before it. -/
def extension? (path : Path) : Option String :=
  path.fileName?.bind fun name =>
    let backwards := name.toList.reverse
    match backwards.dropWhile (· != '.') with
    | _ :: _ :: _ => some (String.ofList (backwards.takeWhile (· != '.')).reverse)
    | _ => none

/-- A path seen from a directory. An absolute path stays as it is. -/
def join (base path : Path) : Path :=
  if path.absolute then path
  else if base.isEmpty then path
  else { base with parts := base.parts ++ path.parts.filter (· != ".") }

/-- Adds one part to a path that is in normal form. -/
def stepNormal (absolute : Bool) (parts : List String) (part : String) : List String :=
  if part = "." then parts
  else if part = ".." then
    match parts.getLast? with
    | some last => if last = ".." then parts ++ [".."] else parts.dropLast
    | none => if absolute then [] else [".."]
  else parts ++ [part]

/-- The path without points, where two points take back the name before them. -/
def normalize (path : Path) : Path :=
  { path with parts := path.parts.foldl (stepNormal path.absolute) [] }

/-- How many names two lists share at their beginnings. -/
def commonLength : List String → List String → Nat
  | a :: as, b :: bs => if a = b then commonLength as bs + 1 else 0
  | _, _ => 0

/-- The way to an absolute target from an absolute directory. -/
def relativeParts (base target : List String) : List String :=
  let common := commonLength base target
  List.replicate (base.length - common) ".." ++ target.drop common

/-- A target as it is named from the directory `base`. A target that is not absolute keeps its text, with slashes
for backslashes. -/
def relativeText (base : Path) (target : String) : String :=
  let path := ofString target
  if path.absolute && base.absolute then "/".intercalate (relativeParts base.parts path.parts)
  else target.map fun c => if c = '\\' then '/' else c

end Path

end Stylesheet
