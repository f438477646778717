import Stylesheet.Css.Style

/-! The choices that a compilation leaves open. Relative paths start from the current directory. -/

namespace Stylesheet

structure Options where
  style : OutputStyle := .nested
  /-- Digits kept behind the point of a number. -/
  precision : Nat := 5
  /-- Whether the place of each rule is given in a comment. -/
  sourceComments : Bool := false
  sourceMap : Bool := false
  /-- Whether the address of the source map holds the map itself. -/
  embedSourceMap : Bool := false
  /-- Whether the source map holds the texts of the sources. -/
  sourceMapContents : Bool := false
  /-- Whether the CSS keeps silent about its source map. -/
  omitSourceMapUrl : Bool := false
  /-- Whether the source is indented, whatever its name says. -/
  indented : Bool := false
  indent : String := "  "
  linefeed : String := "\n"
  /-- The name of a source that is not read from a file. -/
  inputFile : Option String := none
  outputFile : Option String := none
  includePaths : List String := []
  sourceMapFile : Option String := none
  sourceMapRoot : Option String := none
  deriving Repr

def Options.format (options : Options) : Css.Format :=
  { layout := Css.Layout.ofStyle options.style
    places := options.precision
    indent := options.indent
    linefeed := options.linefeed
    sourceComments := options.sourceComments }

end Stylesheet
