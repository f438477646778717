import Stylesheet.Text.Blank

/-! Texts with interpolations. A template alternates texts and expressions; no two texts stand side by side and
none is empty, as long as templates are built with the operations below. -/

namespace Stylesheet

inductive Piece (α : Type) where
  | text (s : String)
  | code (e : α)
  deriving Repr

abbrev Template (α : Type) := List (Piece α)

namespace Template

variable {α : Type}

def consText (s : String) (template : Template α) : Template α :=
  if s.isEmpty then template
  else
    match template with
    | .text t :: rest => .text (s ++ t) :: rest
    | _ => .text s :: template

def consPiece : Piece α → Template α → Template α
  | .text s, template => consText s template
  | .code e, template => .code e :: template

def append (first second : Template α) : Template α := first.foldr consPiece second

def ofText (s : String) : Template α := consText s []

def plain? : Template α → Option String
  | [] => some ""
  | [.text s] => some s
  | _ => none

/-- Drops the blank characters at the end of the last text. -/
def trimEnd : Template α → Template α
  | [] => []
  | [.text s] => consText (Text.trimmedEnd s) []
  | piece :: rest => piece :: trimEnd rest

/-- Turns each run of blank characters in a text into one space. -/
def squeeze (template : Template α) : Template α :=
  template.foldr (fun piece rest =>
    match piece with
    | .text s => consText (String.ofList (Text.squeeze false s.toList)) rest
    | .code e => .code e :: rest) []

/-- Whether a template begins with the two hyphens of a custom property. -/
def isCustomProperty : Template α → Bool
  | .text s :: _ => s.startsWith "--"
  | _ => false

end Template

end Stylesheet
