import Stylesheet.Evaluation.Control
import Stylesheet.Evaluation.Inclusion

/-! The effect of a statement, once the evaluator can run the statements inside it. -/

namespace Stylesheet.Evaluation.Evaluator

variable (self : Evaluator)

/-- Tells a message, or fails with it. -/
def tell (kind : MessageKind) (text : String) (pos : Position) : Eval Unit := do
  let file := (← get).file
  match kind with
  | .warn => report (.warning text pos.line file)
  | .debug => report (.note text pos.line file)
  | .error => fail pos (.raised text)

def message (kind : MessageKind) (value : Expr) (pos : Position) : Eval Unit := do
  let text ← do
    match ← self.eval value with
    | .string text _ => pure text
    | other => pure (other.inspect (← read).places)
  tell kind text pos

def assignment (name : String) (value : Expr) (isDefault isGlobal : Bool) : Eval Unit := do
  let value ← self.eval value
  modify fun state =>
    { state with scopes := state.scopes.assign state.place.scope name value isDefault isGlobal }

def result (value : Expr) (pos : Position) : Eval (Option Value) := do
  if (← get).functionDepth = 0 then fail pos .resultOutsideFunction
  return some (← self.eval value)

/-- A statement that gives no value. -/
def effect (action : Eval Unit) : Eval (Option Value) := do
  action
  return none

/-- A statement that writes. -/
def written (pos : Position) (action : Eval Unit) : Eval (Option Value) :=
  effect do
    refuseInFunction pos
    action

def runStatement : Statement → Eval (Option Value)
  | .rule pos selector body => written pos (self.rule selector body pos)
  | .declaration pos property value important nested =>
    written pos (self.declaration property value important nested pos)
  | .directive pos name parameters body => written pos (self.directive name parameters body pos)
  | .media pos query body => written pos (self.media query body pos)
  | .assignment _ name value isDefault isGlobal => effect (self.assignment name value isDefault isGlobal)
  | .mixin _ callable => effect (modify fun state =>
      { state with scopes := state.scopes.defineMixin state.place.scope ⟨callable, state.place.scope⟩ })
  | .function _ callable => effect (modify fun state =>
      { state with scopes := state.scopes.defineFunction state.place.scope ⟨callable, state.place.scope⟩ })
  | .inclusion pos name arguments content => written pos (self.inclusion name arguments content pos)
  | .content _ => effect self.content
  | .result pos value => self.result value pos
  | .branch _ clauses otherwise => self.branch otherwise clauses
  | .forEach _ names items body => do self.forEach names body (← self.eval items).items
  | .forRange _ name first last inclusive body => self.forRange name first last inclusive body
  | .whileTrue _ condition body => self.whileTrue condition body self.budget
  | .imports pos targets => effect (self.imports pos targets)
  | .message pos kind value => effect (self.message kind value pos)
  | .unsupported pos name => fail pos (.unsupported name)
  | .comment pos text => effect (comment text pos)

/-- One step of execution. The place of the statement is known while it runs. -/
def execStep (statement : Statement) : Eval (Option Value) :=
  during ({ · with statementPos := statement.pos })
    (fun before after => { after with statementPos := before.statementPos }) (self.runStatement statement)

end Stylesheet.Evaluation.Evaluator
