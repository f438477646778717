import Stylesheet.Css.Style
import Stylesheet.Css.Tree
import Stylesheet.SourceMap
import Stylesheet.Value.Text

/-! Writing a tree as CSS. With the text goes a list of mappings, one for each selector, declaration and directive
and for each comment that is a node, taken at the place that the text has reached. -/

namespace Stylesheet.Css

/-- The text written so far, its last character first, with the place behind it and the mappings, last first. The
place is kept up to date while characters are written and taken back; it is always the one that the text leads to. -/
structure Output where
  reversed : List Char
  line : Nat
  column : Nat
  marks : List Mapping
  line_eq : line = reversed.count '\n'
  column_eq : column = (reversed.takeWhile (· != '\n')).length
  deriving Repr

/-- A declaration whose value has no place in CSS. -/
structure WriteError where
  error : OperationError
  span : Span
  deriving Repr

namespace Output

def empty : Output := ⟨[], 0, 0, [], rfl, rfl⟩

def writeChar (output : Output) (c : Char) : Output :=
  if newline : c = '\n' then
    { output with
      reversed := c :: output.reversed, line := output.line + 1, column := 0
      line_eq := by simp [newline, output.line_eq]
      column_eq := by simp [newline] }
  else
    { output with
      reversed := c :: output.reversed, column := output.column + 1
      line_eq := by simp [newline, output.line_eq]
      column_eq := by simp [newline, output.column_eq] }

def write (output : Output) (text : String) : Output := text.toList.foldl writeChar output

/-- Notes that what is written next comes from `span`. -/
def mark (output : Output) (span : Span) : Output :=
  { output with marks :=
      ⟨output.line, output.column, span.source, span.pos.line - 1, span.pos.column - 1⟩ :: output.marks }

/-- Takes back a line separator at the end of the text, so that a brace can follow in the same line. -/
def dropLinefeed (output : Output) (linefeed : String) : Output :=
  let separator := linefeed.toList.reverse
  if ends : !separator.isEmpty && separator.isPrefixOf output.reversed then
    let reversed := output.reversed.drop separator.length
    { output with
      reversed
      line := output.line - separator.count '\n'
      column := (reversed.takeWhile (· != '\n')).length
      line_eq := by
        obtain ⟨rest, split⟩ := List.isPrefixOf_iff_prefix.1 (Bool.and_eq_true_iff.1 ends).2
        simp [reversed, output.line_eq, ← split]
      column_eq := rfl }
  else output

def dropSemicolon (output : Output) : Output :=
  match last : output.reversed with
  | ';' :: rest =>
    { output with
      reversed := rest, column := output.column - 1
      line_eq := by simp [output.line_eq, last]
      column_eq := by simp [output.column_eq, last] }
  | _ => output

end Output

namespace Format

variable (format : Format)

def isCompressed : Bool := format.layout == .compressed

def newline (output : Output) : Output :=
  if format.isCompressed then output else output.write format.linefeed

def indentTo (level : Nat) (output : Output) : Output :=
  if format.isCompressed then output else (List.replicate level format.indent).foldl Output.write output

/-- Whether a comment is written. A compressed text keeps those that are marked for it. -/
def showsComment (text : String) : Bool := !format.isCompressed || text.startsWith "/*!"

def showsItem : Item → Bool
  | .declaration _ => true
  | .comment comment => format.showsComment comment

mutual

/-- Whether a node is written. Rules and blocks need something to show, and a rule needs a selector. -/
def shows : Node → Bool
  | .node entry children =>
    match entry.content with
    | .rule selectors => !selectors.withoutPlaceholders.isEmpty && entry.items.any format.showsItem
    | .block _ _ => entry.items.any format.showsItem || showsAny children
    | .directive _ _ => true
    | .comment comment => format.showsComment comment

def showsAny : List Node → Bool
  | [] => false
  | node :: rest => shows node || showsAny rest

end

def openBrace (output : Output) : Output :=
  match format.layout with
  | .compressed => output.write "\x7b"
  | .compact => output.write " \x7b"
  | .nested | .expanded => format.newline (output.write " \x7b")

def closeBrace (level : Nat) (output : Output) : Output :=
  match format.layout with
  | .compressed => output.dropSemicolon.write "\x7d"
  | .nested | .compact => format.newline ((output.dropLinefeed format.linefeed).write " \x7d")
  | .expanded => format.newline ((format.indentTo level output).write "\x7d")

/-- What stands before a declaration or a comment in a block. -/
def beginItem (level : Nat) (output : Output) : Output :=
  match format.layout with
  | .nested | .expanded => format.indentTo (level + 1) output
  | .compact => output.write " "
  | .compressed => output

def endItem (output : Output) : Output :=
  match format.layout with
  | .nested | .expanded => format.newline output
  | .compact | .compressed => output

def declarationText (declaration : Declaration) (value : String) : String :=
  declaration.property ++ (if format.isCompressed then ":" else ": ") ++ value
    ++ (if declaration.important then " !important" else "") ++ ";"

def writeItem (level : Nat) (item : Item) (output : Output) : Except WriteError Output :=
  match item with
  | .declaration declaration =>
    match declaration.value.css format.places format.isCompressed with
    | .ok value =>
      let begun := (format.beginItem level output).mark declaration.span
      .ok (format.endItem (begun.write (format.declarationText declaration value)))
    | .error error => .error ⟨error, declaration.span⟩
  | .comment comment =>
    if format.showsComment comment then .ok (format.endItem ((format.beginItem level output).write comment))
    else .ok output

def writeItems (level : Nat) (items : List Item) (output : Output) : Except WriteError Output :=
  items.foldlM (fun output item => format.writeItem level item output) output

/-- A comment that tells where a rule comes from. -/
def writePlace (sources : List Source) (level : Nat) (span : Span) (output : Output) : Output :=
  if format.sourceComments && !format.isCompressed then
    let path := (sources[span.source]?.map Source.path).getD ""
    let text := "/* line " ++ toString span.pos.line ++ ", " ++ path ++ " */"
    format.newline ((format.indentTo level output).write text)
  else output

def directiveText (name parameters : String) : String :=
  "@" ++ name ++ (if parameters.isEmpty then "" else " " ++ parameters)

/-- What stands between the items of a block and the nodes that it holds. -/
def beforeNodes (hasItems : Bool) (output : Output) : Output :=
  match format.layout with
  | .compressed => output
  | .compact => if hasItems then output.write " " else format.newline output
  | .nested | .expanded => if hasItems then format.newline output else output

/-- Whether a node makes a group of its own, with a blank line behind it. -/
def isGroup (entry : Entry) : Bool := entry.takesItems

/-- Whether a blank line may stand before a node. -/
def startsGroup (level : Nat) (entry : Entry) : Bool :=
  match format.layout with
  | .compressed => false
  | .expanded => level == 0
  | .nested | .compact => level == 0 && entry.depth == 0

variable (sources : List Source)

mutual

def writeNode (level : Nat) : Node → Output → Except WriteError Output
  | .node entry children, output =>
    let indent := if format.layout == .nested then entry.depth else level
    match entry.content with
    | .rule selectors => do
      let begun := (format.indentTo indent (format.writePlace sources indent entry.span output)).mark entry.span
      let opened := format.openBrace (begun.write (selectors.withoutPlaceholders.css format.isCompressed))
      return format.closeBrace indent (← format.writeItems indent entry.items opened)
    | .block name parameters => do
      let begun := (format.indentTo indent output).mark entry.span
      let opened := format.openBrace (begun.write (directiveText name parameters))
      let hasItems := entry.items.any format.showsItem
      let filled ← if hasItems then format.writeItems indent entry.items opened else .ok opened
      let closing ← if format.showsAny children
        then writeNodes (level + 1) false children (format.beforeNodes hasItems filled)
        else .ok filled
      return format.closeBrace indent closing
    | .directive name parameters =>
      let begun := (format.indentTo indent output).mark entry.span
      .ok (format.newline (begun.write (directiveText name parameters ++ ";")))
    | .comment comment =>
      let begun := (format.indentTo indent output).mark entry.span
      .ok (format.newline (begun.write comment))

/-- The nodes of one block that are to be seen. `afterGroup` says that a group stands before them. -/
def writeNodes (level : Nat) (afterGroup : Bool) : List Node → Output → Except WriteError Output
  | [], output => .ok output
  | node :: rest, output =>
    if format.shows node then do
      let separated := if afterGroup && format.startsGroup level node.entry then format.newline output else output
      let written ← writeNode level node separated
      writeNodes level (isGroup node.entry) rest written
    else writeNodes level afterGroup rest output

end

end Format

structure Written where
  css : String
  mappings : List Mapping

/-- Marks a text that is not ASCII as UTF-8: with a directive, or with one character if it is compressed. -/
def Format.declareEncoding (format : Format) (output : Output) : Written :=
  let css := String.ofList output.reversed.reverse
  let mappings := output.marks.reverse
  if output.reversed.all (·.toNat < 128) then ⟨css, mappings⟩
  else if format.isCompressed then
    ⟨"\uFEFF" ++ css, mappings.map fun m => if m.line = 0 then { m with column := m.column + 1 } else m⟩
  else
    ⟨"@charset \"UTF-8\";" ++ format.linefeed ++ css, mappings.map fun m => { m with line := m.line + 1 }⟩

def Tree.write (format : Format) (tree : Tree) : Except WriteError Written :=
  (format.writeNodes tree.sources 0 false tree.forest Output.empty).map format.declareEncoding

end Stylesheet.Css
