import Stylesheet.Operator
import Stylesheet.Position
import Stylesheet.Template

/-! Expressions as they are written, before anything in them has a value. -/

namespace Stylesheet

/-- The arguments of a call. `rest` is a list whose items follow the arguments that go by position. -/
structure Arguments (α : Type) where
  positional : List α
  keyword : List (String × α)
  rest : Option α
  deriving Repr

def Arguments.none {α : Type} : Arguments α := ⟨[], [], Option.none⟩

inductive Expr where
  | literal (value : Value)
  /-- A quoted string or a bare word. -/
  | string (text : List (Piece Expr)) (quoted : Bool)
  | variable (name : String) (pos : Position)
  | binary (op : BinaryOp) (left right : Expr) (pos : Position)
  | unary (op : UnaryOp) (operand : Expr) (pos : Position)
  | list (items : List Expr) (separator : Separator) (bracketed : Bool)
  | map (entries : List (Expr × Expr)) (pos : Position)
  | call (name : String) (arguments : Arguments Expr) (pos : Position)
  /-- An expression in parentheses, where a slash always divides. -/
  | paren (inner : Expr)
  deriving Repr, Inhabited

end Stylesheet
