import Stylesheet.Evaluation.Statement

/-! Evaluation of a stylesheet: its statements become the flat tree that is written as CSS. -/

namespace Stylesheet.Evaluation

mutual

/-- The value of an expression, as long as evaluation goes no deeper than the bound. -/
def evalAt : Nat → Expr → Eval Value
  | 0, _ => throw .endless
  | n + 1, expr => Evaluator.evalStep ⟨n, evalAt n, execAt n⟩ expr

def execAt : Nat → Statement → Eval (Option Value)
  | 0, _ => throw .endless
  | n + 1, statement => Evaluator.execStep ⟨n, evalAt n, execAt n⟩ statement

end

/-- The evaluator that goes down to a depth. -/
def evaluator (depth : Nat) : Evaluator := ⟨depth, evalAt depth, execAt depth⟩

/-- Far beyond any depth that a stylesheet which ends is known to need. -/
def depthLimit : Nat := 1000000000

/-- Where a stylesheet begins: at the top level, in the global scope. -/
def Place.top : Place :=
  { container := none, rule := none, selectors := none, media := none, inKeyframes := false, depth := 0,
    scope := Scopes.globalId }

def State.start (sheet : Sheet) : State :=
  let (source, tree) := Css.Tree.empty.addSource sheet.path sheet.source
  { tree, scopes := Scopes.start, imported := [], log := [], lookups := [], sheet, file := sheet.path, source,
    place := Place.top, content := [], functionDepth := 0, propertyName := none, statementPos := Position.start }

/-- Runs a stylesheet; gives the failure, if there is one, and the state that was reached. -/
def evaluate (environment : Environment) (sheet : Sheet) : Except Failure Unit × State :=
  (evaluator depthLimit).run sheet.statements environment (State.start sheet)

end Stylesheet.Evaluation
