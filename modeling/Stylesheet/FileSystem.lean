import Stylesheet.Path

/-! The files that a compilation can see, as a value. A path is walked name by name, so each name before the last
must be that of a directory. -/

namespace Stylesheet

inductive FileFault where
  | missing
  | notDirectory
  | isDirectory
  | nameTooLong
  | nulInName
  | notText
  deriving DecidableEq, Repr

def FileFault.message : FileFault → String
  | .missing => "No such file or directory (os error 2)"
  | .notDirectory => "Not a directory (os error 20)"
  | .isDirectory => "Is a directory (os error 21)"
  | .nameTooLong => "File name too long (os error 36)"
  | .nulInName => "file name contained an unexpected NUL byte"
  | .notText => "stream did not contain valid UTF-8"

/-- Files and directories by the names on the way to them from the root. -/
structure FileSystem where
  files : List (List String × ByteArray)
  directories : List (List String)
  /-- The directory that relative paths start from. -/
  current : List String

namespace FileSystem

/-- A directory with all those around it. -/
def withParents (directory : List String) : List (List String) :=
  (List.range (directory.length + 1)).map directory.take

def start (current : List String) : FileSystem := { files := [], directories := withParents current, current }

def addDirectory (fs : FileSystem) (parts : List String) : FileSystem :=
  { fs with directories := fs.directories ++ withParents parts }

def addFile (fs : FileSystem) (parts : List String) (bytes : ByteArray) : FileSystem :=
  { fs.addDirectory parts.dropLast with files := (parts, bytes) :: fs.files }

inductive Place where
  | directory (parts : List String)
  | file (parts : List String) (bytes : ByteArray)
  /-- There is nothing here, but there could be: the directory exists. -/
  | vacant (parts : List String)

/-- Goes from a place to the next name on a path. -/
def step (fs : FileSystem) (place : Place) (segment : String) : Except FileFault Place :=
  match place with
  | .file _ _ => .error .notDirectory
  | .vacant _ => .error .missing
  | .directory parts =>
    if segment = "." then .ok place
    else if segment = ".." then .ok (.directory parts.dropLast)
    else if segment.utf8ByteSize > 255 then .error .nameTooLong
    else
      let parts := parts ++ [segment]
      match fs.files.lookup parts with
      | some bytes => .ok (.file parts bytes)
      | none => .ok (if fs.directories.contains parts then .directory parts else .vacant parts)

/-- Walks a path. A slash at its end asks for a directory. -/
def locate (fs : FileSystem) (path : String) : Except FileFault Place :=
  if path.contains '\x00' then .error .nulInName
  else if path.isEmpty then .error .missing
  else
    let segments := ((Text.pieces (· == '/') path.toList).map String.ofList).filter (!·.isEmpty)
    let segments := if path.endsWith "/" then segments ++ ["."] else segments
    let start := if path.startsWith "/" then [] else fs.current
    segments.foldlM fs.step (.directory start)

def isFile (fs : FileSystem) (path : String) : Bool :=
  match fs.locate path with
  | .ok (.file _ _) => true
  | _ => false

def read (fs : FileSystem) (path : String) : Except FileFault String :=
  match fs.locate path with
  | .ok (.file _ bytes) => match String.fromUTF8? bytes with
    | some text => .ok text
    | none => .error .notText
  | .ok (.directory _) => .error .isDirectory
  | .ok (.vacant _) => .error .missing
  | .error fault => .error fault

/-- Whether a path without the slashes at its end names nothing in a directory that exists. -/
def isVacantDirectory (fs : FileSystem) (path : String) : Bool :=
  let trimmed := String.ofList (path.toList.reverse.dropWhile (· == '/')).reverse
  path.endsWith "/" && match fs.locate trimmed with
    | .ok (.vacant _) => true
    | _ => false

/-- Writes a file, in the place of one that exists. -/
def write (fs : FileSystem) (path text : String) : Except FileFault FileSystem :=
  match fs.locate path with
  | .ok (.file parts _) | .ok (.vacant parts) =>
    .ok { fs with files := (parts, text.toUTF8) :: fs.files.filter (·.1 != parts) }
  | .ok (.directory _) => .error .isDirectory
  | .error fault => .error (if fs.isVacantDirectory path then .isDirectory else fault)

end FileSystem

end Stylesheet
