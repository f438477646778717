import Stylesheet.Text.Blank

/-! Indented stylesheets. Indentation is turned into braces line by line: a line opens a block when the next line
with text is indented more, and other lines end with a semicolon. The braces that close a block go to the end of
the last line with text, so no line is added or removed and every line keeps its number. -/

namespace Stylesheet.Indented

def indentation (line : List Char) : Nat :=
  (line.takeWhile fun c => c == ' ' || c == '\t').length

/-- The line up to a comment that runs to its end. Two slashes count as no comment in a string, and behind a
colon, where they belong to an address. `before` holds the characters already passed, the last one first. -/
def stripComment : (quote : Option Char) → (before : List Char) → List Char → List Char
  | _, before, [] => Text.trimEnd before.reverse
  | some q, before, c :: rest =>
    stripComment (if c = q ∧ before.head? ≠ some '\\' then none else some q) (c :: before) rest
  | none, before, c :: rest =>
    if c = '"' ∨ c = '\'' then stripComment (some c) (c :: before) rest
    else if c = '/' then
      match before with
      | '/' :: ':' :: _ => stripComment none (c :: before) rest
      | '/' :: earlier => Text.trimEnd earlier.reverse
      | _ => stripComment none (c :: before) rest
    else stripComment none (c :: before) rest

/-- References of an import get quotes where they have none. -/
def quoteReferences (references : List Char) : List Char :=
  let quoteOne (reference : List Char) : List Char :=
    match reference with
    | '"' :: _ | '\'' :: _ => reference
    | _ => if "url(".toList.isPrefixOf reference then reference else '"' :: reference ++ ['"']
  List.intercalate [',', ' '] ((Text.pieces (· == ',') references).map (quoteOne ∘ Text.trim))

/-- The shorthands that only indented stylesheets have, written out. -/
def expandShorthand (line : List Char) : List Char :=
  let blank := line.takeWhile Text.isBlank
  let content := stripComment none [] (line.dropWhile Text.isBlank)
  let expanded :=
    match content with
    | '=' :: rest => "@mixin ".toList ++ Text.trimStart rest
    | '+' :: rest => "@include ".toList ++ Text.trimStart rest
    | ':' :: rest =>
      let name := rest.takeWhile (!Text.isBlank ·)
      match rest.dropWhile (!Text.isBlank ·) with
      | _ :: value => if name.isEmpty then content else name ++ [':', ' '] ++ Text.trim value
      | [] => content
    | _ =>
      if "@import".toList.isPrefixOf content then
        "@import ".toList ++ quoteReferences (Text.trim (content.drop "@import".length))
      else content
  blank ++ expanded

/-- A comment that goes on while lines are indented more than `indent`. A loud comment is part of the result. -/
structure OpenComment where
  indent : Nat
  loud : Bool

/-- What has been written so far. The latest line with text, `last`, is kept apart from the lines before it, since
closing braces may still be added to it; `blanks` lines without text have followed it. -/
structure Progress where
  finished : List (List Char)
  last : Option (List Char)
  blanks : Nat
  /-- The indentations of the lines whose blocks are open, the innermost first. -/
  blocks : List Nat
  comment : Option OpenComment

namespace Progress

def start : Progress := ⟨[], none, 0, [], none⟩

def lines (p : Progress) : List (List Char) :=
  p.finished.reverse ++ p.last.toList ++ List.replicate p.blanks []

def addBlank (p : Progress) : Progress := { p with blanks := p.blanks + 1 }

def addLine (p : Progress) (line : List Char) : Progress :=
  { p with
    finished := List.replicate p.blanks [] ++ p.last.toList ++ p.finished
    last := some line
    blanks := 0 }

/-- Adds to the latest line with text, if there is one. -/
def append (p : Progress) (more : List Char) : Progress := { p with last := p.last.map (· ++ more) }

/-- Closes the blocks of lines that are indented at least `indent`. -/
def closeBlocks (p : Progress) (indent : Nat) : Progress :=
  let closed := p.blocks.takeWhile (indent ≤ ·)
  { p.append (closed.flatMap fun _ => [' ', '}']) with blocks := p.blocks.drop closed.length }

def closeComment (p : Progress) : Progress :=
  let ended := match p.comment, p.last with
    | some ⟨_, true⟩, some last =>
      if "*/".toList.isSuffixOf (Text.trimEnd last) then p else p.append " */".toList
    | _, _ => p
  { ended with comment := none }

end Progress

/-- One line, of which `rest` follow. -/
def step (p : Progress) (line : List Char) (rest : List (List Char)) : Progress :=
  let text := Text.trimEnd line
  let indent := indentation line
  if text.isEmpty then p.addBlank
  else
    match p.comment.filter (fun comment => comment.indent < indent) with
    | some comment => if comment.loud then p.addLine text else p.addBlank
    | none =>
      let p := p.closeComment.closeBlocks indent
      match Text.trimStart text with
      | '/' :: '/' :: _ => { p.addBlank with comment := some ⟨indent, false⟩ }
      | '/' :: '*' :: _ => { p.addLine text with comment := some ⟨indent, true⟩ }
      | _ =>
        let opens := (rest.find? fun next => !(Text.trim next).isEmpty).any (indent < indentation ·)
        let expanded := expandShorthand text
        if opens then { p.addLine (expanded ++ [' ', '{']) with blocks := indent :: p.blocks }
        else if (Text.trimEnd expanded).getLast? = some ',' then p.addLine expanded
        else p.addLine (expanded ++ [';'])

def run (p : Progress) : List (List Char) → Progress
  | [] => p
  | line :: rest => run (step p line rest) rest

/-- The lines with braces and semicolons in place of indentation. -/
def braceLines (lines : List (List Char)) : List (List Char) :=
  let p := (run Progress.start lines).closeComment
  (p.append (p.blocks.flatMap fun _ => [' ', '}'])).lines

/-- An indented stylesheet as one with braces and semicolons. -/
def toBraces (source : String) : String :=
  let cs := source.toList
  let text := List.intercalate ['\n'] (braceLines (Text.lines cs))
  String.ofList (if cs.getLast? = some '\n' then text ++ ['\n'] else text)

end Stylesheet.Indented
