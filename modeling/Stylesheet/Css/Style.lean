/-! The styles in which CSS is written. They differ in their blanks and in the comments they keep. -/

namespace Stylesheet

inductive OutputStyle where
  | nested
  | expanded
  | compact
  | compressed
  | inspect
  | sass
  deriving DecidableEq, Repr

namespace OutputStyle

def all : List OutputStyle := [nested, expanded, compact, compressed, inspect, sass]

def name : OutputStyle → String
  | nested => "nested"
  | expanded => "expanded"
  | compact => "compact"
  | compressed => "compressed"
  | inspect => "inspect"
  | sass => "sass"

/-- The style with a name; letters of either case will do. -/
def ofName? (name : String) : Option OutputStyle := all.find? (·.name == name.toLower)

end OutputStyle

structure UnknownStyle where
  name : String
  deriving DecidableEq, Repr

def UnknownStyle.message (unknown : UnknownStyle) : String :=
  "unknown output style `" ++ unknown.name
    ++ "` (expected nested, expanded, compact, compressed, inspect or sass)"

namespace Css

inductive Layout where
  /-- Indentation follows the source, and a closing brace stands behind the last declaration. -/
  | nested
  /-- Every declaration and every closing brace has a line. -/
  | expanded
  /-- Every rule has a line. -/
  | compact
  /-- There are no blanks that can be left out. -/
  | compressed
  deriving DecidableEq, Repr

def Layout.ofStyle : OutputStyle → Layout
  | .nested => nested
  | .compact => compact
  | .compressed => compressed
  | .expanded | .inspect | .sass => expanded

/-- All that decides how a tree is written. -/
structure Format where
  layout : Layout
  /-- Digits kept behind the point of a number. -/
  places : Nat
  indent : String
  linefeed : String
  /-- Whether the place of each rule is given in a comment. -/
  sourceComments : Bool
  deriving Repr

end Css

end Stylesheet
