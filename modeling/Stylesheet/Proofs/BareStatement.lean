import Stylesheet.Statement

/-! Statements without the places that they begin at and without the names of their files. -/

namespace Stylesheet

mutual

def Expr.bare : Expr → Expr
  | .literal value => .literal value
  | .string text quoted => .string (Expr.barePieces text) quoted
  | .variable name _ => .variable name .start
  | .binary op left right _ => .binary op left.bare right.bare .start
  | .unary op operand _ => .unary op operand.bare .start
  | .list items separator bracketed => .list (Expr.bareAll items) separator bracketed
  | .map entries _ => .map (Expr.bareEntries entries) .start
  | .call name arguments _ => .call name arguments.bare .start
  | .paren inner => .paren inner.bare

def Expr.barePieces : List (Piece Expr) → List (Piece Expr)
  | [] => []
  | .text s :: rest => .text s :: Expr.barePieces rest
  | .code e :: rest => .code e.bare :: Expr.barePieces rest

def Expr.bareAll : List Expr → List Expr
  | [] => []
  | e :: rest => e.bare :: Expr.bareAll rest

def Expr.bareEntries : List (Expr × Expr) → List (Expr × Expr)
  | [] => []
  | (key, value) :: rest => (key.bare, value.bare) :: Expr.bareEntries rest

def Arguments.bare : Arguments Expr → Arguments Expr
  | ⟨positional, keyword, rest⟩ => ⟨Expr.bareAll positional, Arguments.bareKeyword keyword, Expr.bareRest rest⟩

def Arguments.bareKeyword : List (String × Expr) → List (String × Expr)
  | [] => []
  | (name, value) :: rest => (name, value.bare) :: Arguments.bareKeyword rest

def Expr.bareRest : Option Expr → Option Expr
  | none => none
  | some e => some e.bare

end

def Template.bare (template : Template Expr) : Template Expr := Expr.barePieces template

def Parameter.bare (parameter : Parameter) : Parameter := { parameter with default := parameter.default.map Expr.bare }

def ImportTarget.bare : ImportTarget → ImportTarget
  | .sheet reference _ => .sheet reference .start
  | .css text => .css text.bare

mutual

def Statement.bare : Statement → Statement
  | .rule _ selector body => .rule .start selector.bare (bareAll body)
  | .declaration _ property value important nested =>
    .declaration .start property.bare (value.map Expr.bare) important (bareAll nested)
  | .directive _ name parameters body => .directive .start name parameters.bare (bareBlock body)
  | .media _ query body => .media .start query.bare (bareAll body)
  | .assignment _ name value isDefault isGlobal => .assignment .start name value.bare isDefault isGlobal
  | .mixin _ callable => .mixin .start (bareCallable callable)
  | .function _ callable => .function .start (bareCallable callable)
  | .inclusion _ name arguments block => .inclusion .start name arguments.bare (bareBlock block)
  | .content _ => .content .start
  | .result _ value => .result .start value.bare
  | .branch _ clauses otherwise => .branch .start (bareClauses clauses) (bareBlock otherwise)
  | .forEach _ names items body => .forEach .start names items.bare (bareAll body)
  | .forRange _ name first last inclusive body => .forRange .start name first.bare last.bare inclusive (bareAll body)
  | .whileTrue _ condition body => .whileTrue .start condition.bare (bareAll body)
  | .imports _ targets => .imports .start (targets.map ImportTarget.bare)
  | .message _ kind value => .message .start kind value.bare
  | .unsupported _ name => .unsupported .start name
  | .comment _ text => .comment .start text

def Statement.bareAll : List Statement → List Statement
  | [] => []
  | s :: rest => s.bare :: bareAll rest

def Statement.bareBlock : Option (List Statement) → Option (List Statement)
  | none => none
  | some body => some (bareAll body)

def Statement.bareClauses : List (Expr × List Statement) → List (Expr × List Statement)
  | [] => []
  | (condition, body) :: rest => (condition.bare, bareAll body) :: bareClauses rest

def Statement.bareCallable : Callable Statement → Callable Statement
  | ⟨name, parameters, rest, body, _⟩ => ⟨name, parameters.map Parameter.bare, rest, bareAll body, ""⟩

end

@[simp] theorem Template.bare_ofText (text : String) : (Template.ofText text).bare = .ofText text := by
  unfold Template.ofText Template.consText
  split
  · rfl
  · dsimp only
    rfl

end Stylesheet
