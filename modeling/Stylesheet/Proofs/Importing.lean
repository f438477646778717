import Stylesheet.Proofs.Congruence

/-! Evaluators that import stylesheets in other ways. All other statements are run as always, so whatever relation the
two ways of importing keep to, the two evaluators keep to it in all that they do. -/

namespace Stylesheet.Evaluation
open Evaluator

/-- A way to import the stylesheet that a reference means. The first place is that of the statement, and the second one
that of the reference. -/
abbrev Importing := Evaluator → Position → String → Position → Eval Unit

namespace Importing

/-- The way of the evaluator itself. -/
def own : Importing := fun self pos reference place => self.importTarget pos (.sheet reference place)

variable (importing : Importing) (self : Evaluator)

def imports (pos : Position) : List ImportTarget → Eval Unit
  | [] => return ()
  | .css text :: rest => do
    self.importTarget pos (.css text)
    imports pos rest
  | .sheet reference place :: rest => do
    importing self pos reference place
    imports pos rest

def runStatement : Statement → Eval (Option Value)
  | .imports pos targets => effect (importing.imports self pos targets)
  | statement => self.runStatement statement

def execStep (statement : Statement) : Eval (Option Value) :=
  during ({ · with statementPos := statement.pos })
    (fun before after => { after with statementPos := before.statementPos }) (importing.runStatement self statement)

mutual

def evalAt : Nat → Expr → Eval Value
  | 0, _ => throw .endless
  | n + 1, expr => Evaluator.evalStep ⟨n, evalAt n, execAt n⟩ expr

def execAt : Nat → Statement → Eval (Option Value)
  | 0, _ => throw .endless
  | n + 1, statement => importing.execStep ⟨n, evalAt n, execAt n⟩ statement

end

/-- The evaluator that goes down to a depth. -/
def evaluator (depth : Nat) : Evaluator := ⟨depth, importing.evalAt depth, importing.execAt depth⟩

/-- Runs a stylesheet. -/
def evaluate (environment : Environment) (sheet : Sheet) : Except Failure Unit × State :=
  (importing.evaluator depthLimit).run sheet.statements environment (State.start sheet)

theorem imports_own (pos : Position) (targets : List ImportTarget) :
    own.imports self pos targets = self.imports pos targets := by
  induction targets with
  | nil => rfl
  | cons target rest tail =>
    cases target <;> rw [imports, Evaluator.imports, tail]
    rfl

theorem runStatement_own (statement : Statement) : own.runStatement self statement = self.runStatement statement := by
  cases statement with
  | imports pos targets => exact congrArg effect (imports_own self pos targets)
  | _ => rfl

theorem evaluator_own (depth : Nat) : own.evaluator depth = Evaluation.evaluator depth := by
  induction depth with
  | zero => rfl
  | succ depth shallower =>
    have step : own.execStep (own.evaluator depth) = (Evaluation.evaluator depth).execStep := by
      funext statement
      rw [execStep, runStatement_own, shallower]
      rfl
    have eval : (own.evaluator depth).evalStep = (Evaluation.evaluator depth).evalStep := by rw [shallower]
    change Evaluator.mk _ _ (own.execStep (own.evaluator depth)) = Evaluator.mk _ _ _
    rw [step]
    exact congrArg (Evaluator.mk _ · _) eval

end Importing

variable {α β : Type}

/-- Two states in which the same has been imported from the same stylesheet. -/
structure SameRecord (first second : State) : Prop where
  sheet : second.sheet = first.sheet
  lookups : second.lookups = first.lookups
  imported : second.imported = first.imported

/-- A relation of actions that whatever is put together from related actions keeps to. What leaves the record of imports
alone is related to itself, and another way of importing is related to the evaluator's own if the statements of a
stylesheet are. -/
structure Accord (R : {α : Type} → Eval α → Eval α → Prop) (importing : Importing) : Prop where
  pure : ∀ {α : Type} {value : α}, R (Pure.pure value) (Pure.pure value)
  bind : ∀ {α β : Type} {first second : Eval α} {next next' : α → Eval β}, R first second →
    (∀ value, R (next value) (next' value)) → R (first >>= next) (second >>= next')
  get : R (MonadState.get : Eval State) MonadState.get
  read : R (MonadReader.read : Eval Environment) MonadReader.read
  endless : ∀ {α : Type}, R (throw .endless : Eval α) (throw .endless)
  fail : ∀ {α : Type} {pos : Position} {error : EvalError}, R (Evaluation.fail pos error : Eval α)
    (Evaluation.fail pos error)
  modifyGet : ∀ {α : Type} {change : State → α × State}, (∀ state, SameRecord state (change state).2) →
    R (MonadState.modifyGet change : Eval α) (MonadState.modifyGet change)
  during : ∀ {α : Type} {enter : State → State} {restore : State → State → State} {first second : Eval α},
    (∀ state, SameRecord state (enter state)) → (∀ state inner, SameRecord inner (restore state inner)) →
    R first second → R (Evaluation.during enter restore first) (Evaluation.during enter restore second)
  andThen : ∀ {α : Type} {first second : Eval α} {change : State → State}, R first second →
    (∀ state, SameRecord state (change state)) → R (Evaluation.andThen first change) (Evaluation.andThen second change)
  importSheet : ∀ {first second : Evaluator} {pos place : Position} {reference : String},
    (∀ statements, R (first.run statements) (second.run statements)) →
    (∀ parameters, R (writeImport parameters pos) (writeImport parameters pos)) →
    R (first.importTarget pos (.sheet reference place)) (importing second pos reference place)

/-- All that two evaluators do is related. -/
structure InAccord (R : {α : Type} → Eval α → Eval α → Prop) (first second : Evaluator) : Prop where
  eval : ∀ expr, R (first.eval expr) (second.eval expr)
  exec : ∀ statement, R (first.exec statement) (second.exec statement)
  budget : first.budget = second.budget

variable {R : {α : Type} → Eval α → Eval α → Prop} {importing : Importing} {first second : Evaluator}

namespace Accord

variable (accord : Accord R importing)

include accord

theorem modify {change : State → State} (same : ∀ state, SameRecord state (change state)) :
    R (modify change : Eval PUnit) (modify change) := accord.modifyGet same

theorem report {event : LogEvent} : R (Evaluation.report event) (Evaluation.report event) :=
  accord.modify fun _ => ⟨rfl, rfl, rfl⟩

section Inside

variable {action action' : Eval α} (inside : R action action')

include inside

theorem inScope {scope : Nat} : R (Evaluation.inScope scope action) (Evaluation.inScope scope action') :=
  accord.during (fun _ => ⟨rfl, rfl, rfl⟩) (fun _ _ => ⟨rfl, rfl, rfl⟩) inside

theorem inFile {file : String} : R (Evaluation.inFile file action) (Evaluation.inFile file action') :=
  accord.during (fun _ => ⟨rfl, rfl, rfl⟩) (fun _ _ => ⟨rfl, rfl, rfl⟩) inside

theorem atPlace {place : Place} : R (Evaluation.atPlace place action) (Evaluation.atPlace place action') :=
  accord.during (fun _ => ⟨rfl, rfl, rfl⟩) (fun _ _ => ⟨rfl, rfl, rfl⟩) inside

theorem inFunction : R (Evaluator.inFunction action) (Evaluator.inFunction action') :=
  accord.during (fun _ => ⟨rfl, rfl, rfl⟩) (fun _ _ => ⟨rfl, rfl, rfl⟩) inside

theorem inProperty {name : String} : R (Evaluator.inProperty name action) (Evaluator.inProperty name action') :=
  accord.during (fun _ => ⟨rfl, rfl, rfl⟩) (fun _ _ => ⟨rfl, rfl, rfl⟩) inside

end Inside

theorem newScope {parent : Nat} {semiGlobal : Bool} :
    R (Evaluation.newScope parent semiGlobal) (Evaluation.newScope parent semiGlobal) :=
  accord.modifyGet fun _ => ⟨rfl, rfl, rfl⟩

theorem declare {scope : Nat} {name : String} {value : Value} :
    R (Evaluation.declare scope name value) (Evaluation.declare scope name value) :=
  accord.modify fun _ => ⟨rfl, rfl, rfl⟩

theorem span {pos : Position} : R (Evaluation.span pos) (Evaluation.span pos) :=
  accord.bind accord.get fun _ => accord.pure

theorem push {container : Option Nat} {content : Css.Content} {pos : Position} :
    R (Evaluation.push container content pos) (Evaluation.push container content pos) :=
  accord.bind accord.span fun _ => accord.modifyGet fun _ => ⟨rfl, rfl, rfl⟩

theorem pushItem {id : Nat} {item : Css.Item} : R (Evaluation.pushItem id item) (Evaluation.pushItem id item) :=
  accord.modify fun _ => ⟨rfl, rfl, rfl⟩

theorem congruence : ScopedCongruence R where
  pure := accord.pure
  bind := accord.bind
  read := accord.read
  endless := accord.endless
  fail := accord.fail
  failHere := accord.bind accord.get fun _ => accord.bind accord.read fun _ => accord.fail
  told inside := accord.bind accord.get fun _ => accord.bind accord.report fun _ => inside
  newScope := accord.newScope
  declare := accord.declare
  inScope inside := accord.inScope inside

/-! Statements that write -/

theorem refuseInFunction (pos : Position) : R (refuseInFunction pos) (refuseInFunction pos) := by
  refine accord.bind accord.get fun state => ?_
  split
  · exact accord.fail
  · exact accord.pure

section Effects

variable {action action' : Eval Unit} (inside : R action action')

include inside

theorem effect : R (effect action) (effect action') := accord.bind inside fun _ => accord.pure

theorem written {pos : Position} : R (written pos action) (written pos action') :=
  accord.effect (accord.bind (accord.refuseInFunction pos) fun _ => inside)

end Effects

theorem resolved (text : String) (pos : Position) : R (resolved text pos) (resolved text pos) := by
  refine accord.bind accord.get fun state => ?_
  dsimp only
  split
  · exact accord.pure
  · split
    · exact accord.pure
    · exact accord.fail

theorem declarationTarget (pos : Position) : R (declarationTarget pos) (declarationTarget pos) := by
  refine accord.bind accord.get fun state => ?_
  dsimp only
  split
  · exact accord.pure
  · exact accord.bind accord.push fun _ => accord.bind (accord.modify fun _ => ⟨rfl, rfl, rfl⟩) fun _ => accord.pure
  · exact accord.pure
  · exact accord.fail

theorem declared (property : String) (value : Value) (important : Bool) (pos : Position) :
    R (declared property value important pos) (declared property value important pos) := by
  refine accord.bind accord.read fun _ => accord.bind accord.congruence.ofOperation fun css => ?_
  split
  · exact accord.bind (accord.declarationTarget pos) fun _ => accord.bind accord.span fun _ => accord.pushItem
  · exact accord.pure

theorem comment (text : Comment) (pos : Position) : R (comment text pos) (comment text pos) := by
  refine accord.bind accord.get fun state => ?_
  split
  · split
    · exact accord.pushItem
    · exact accord.bind accord.push fun _ => accord.pure
  · exact accord.pure

theorem tell (kind : MessageKind) (text : String) (pos : Position) : R (tell kind text pos) (tell kind text pos) := by
  refine accord.bind accord.get fun state => ?_
  cases kind with
  | warn => exact accord.report
  | debug => exact accord.report
  | error => exact accord.fail

theorem writeImport (parameters : String) (pos : Position) :
    R (writeImport parameters pos) (writeImport parameters pos) :=
  accord.bind accord.get fun _ => accord.bind accord.push fun _ => accord.pure

section Evaluators

variable (together : InAccord R first second)

include together

theorem block (statements : List Statement) : R (first.block statements) (second.block statements) := by
  induction statements with
  | nil => exact accord.pure
  | cons statement rest tail =>
    refine accord.bind (together.exec statement) fun value => ?_
    cases value with
    | some value => exact accord.pure
    | none => exact tail

theorem run (statements : List Statement) : R (first.run statements) (second.run statements) :=
  accord.bind (accord.block together statements) fun _ => accord.pure

theorem innerBlock (body : List Statement) (bound : List (String × Value)) :
    R (first.innerBlock bound body) (second.innerBlock bound body) := by
  refine accord.bind accord.get fun state => accord.bind accord.newScope fun scope => ?_
  refine accord.bind (accord.congruence.forIn (fun _ _ => ?_) bound _) fun _ => ?_
  · exact accord.bind accord.declare fun _ => accord.pure
  · exact accord.inScope (accord.block together body)

theorem text (template : Template Expr) : R (first.text template) (second.text template) :=
  accord.congruence.text together.eval template

theorem bindArguments (closure : Closure) (arguments : Arguments Expr) (pos : Position) :
    R (first.bindArguments closure arguments pos) (second.bindArguments closure arguments pos) :=
  accord.congruence.bindArguments together.eval closure.callable closure.callable.body closure.scope arguments pos

/-! Expressions -/

theorem callFunction (function : Closure) (arguments : Arguments Expr) (pos : Position) :
    R (first.callFunction function arguments pos) (second.callFunction function arguments pos) := by
  have body := accord.inFunction (accord.block together function.callable.body)
  refine accord.bind accord.report fun _ => ?_
  refine accord.bind (accord.bindArguments together function arguments pos) fun scope => ?_
  refine accord.bind (accord.inScope (accord.inFile body)) fun result => ?_
  cases result with
  | some value => exact accord.congruence.checkResult value pos
  | none => exact accord.fail

theorem callNameQuery (function : String) (query : State → String → Bool) (arguments : Arguments Expr)
    (pos : Position) : R (first.callNameQuery function query arguments pos)
      (second.callNameQuery function query arguments pos) := by
  refine accord.bind (accord.congruence.positional together.eval arguments) fun values => ?_
  split
  · exact accord.bind accord.get fun _ => accord.pure
  · exact accord.fail

theorem call (name : String) (arguments : Arguments Expr) (pos : Position) :
    R (first.call name arguments pos) (second.call name arguments pos) := by
  have congruence := accord.congruence
  refine accord.bind accord.get fun state => ?_
  dsimp only
  split
  · exact accord.callFunction together _ arguments pos
  · split
    · exact congruence.callIf together.eval arguments pos
    · split
      · exact accord.callNameQuery together _ _ arguments pos
      · exact congruence.callBuiltin together.eval _ arguments pos
      · exact congruence.callPlain together.eval name arguments

theorem evalStep (expr : Expr) : R (first.evalStep expr) (second.evalStep expr) := by
  have congruence := accord.congruence
  cases expr with
  | literal value => exact accord.pure
  | string text quoted => exact accord.bind (accord.text together text) fun _ => accord.pure
  | «variable» name pos =>
    refine accord.bind accord.get fun state => ?_
    split
    · exact accord.pure
    · exact accord.fail
  | binary op left right pos => exact congruence.binary together.eval op left right pos
  | unary op operand pos =>
    exact accord.bind (together.eval operand) fun _ => accord.bind accord.read fun _ => accord.pure
  | list items separator bracketed =>
    exact accord.bind (congruence.mapM together.eval items) fun _ => accord.pure
  | map entries pos => exact accord.bind (congruence.entries together.eval entries []) fun _ => accord.pure
  | call name arguments pos => exact accord.call together name arguments pos
  | paren inner => exact together.eval inner

/-! Statements -/

theorem rule (selector : Template Expr) (body : List Statement) (pos : Position) :
    R (first.rule selector body pos) (second.rule selector body pos) := by
  refine accord.bind (accord.text together selector) fun text => ?_
  refine accord.bind (accord.resolved text pos) fun selectors => accord.bind accord.get fun state => ?_
  refine accord.bind accord.push fun _ => accord.bind accord.newScope fun _ => ?_
  exact accord.atPlace (accord.run together body)

theorem declaration (property : Template Expr) (value : Option Expr) (important : Bool) (nested : List Statement)
    (pos : Position) : R (first.declaration property value important nested pos)
      (second.declaration property value important nested pos) := by
  have inner (name : String) :
      R (if !nested.isEmpty then Evaluator.inProperty name (first.run nested) else Pure.pure ())
        (if !nested.isEmpty then Evaluator.inProperty name (second.run nested) else Pure.pure ()) := by
    split
    · exact accord.inProperty (accord.run together nested)
    · exact accord.pure
  refine accord.bind (accord.text together property) fun text => accord.bind accord.get fun state => ?_
  cases value with
  | some expr =>
    refine accord.bind (accord.congruence.cssValue together.eval expr) fun value => ?_
    exact accord.bind (accord.declared _ value important pos) fun _ => inner _
  | none =>
    dsimp only
    split
    · exact accord.bind (accord.declarationTarget pos) fun _ => inner _
    · exact inner _

theorem directive (name : String) (parameters : Template Expr) (body : Option (List Statement)) (pos : Position) :
    R (first.directive name parameters body pos) (second.directive name parameters body pos) := by
  unfold Evaluator.directive
  split
  · exact accord.pure
  · refine accord.bind (accord.text together parameters) fun text => accord.bind accord.get fun state => ?_
    cases body with
    | none => exact accord.bind accord.push fun _ => accord.pure
    | some body =>
      refine accord.bind accord.push fun _ => accord.bind accord.newScope fun _ => ?_
      exact accord.atPlace (accord.run together body)

theorem media (query : Template Expr) (body : List Statement) (pos : Position) :
    R (first.media query body pos) (second.media query body pos) := by
  refine accord.bind (accord.text together query) fun text => accord.bind accord.get fun state => ?_
  refine accord.bind accord.report fun _ => accord.bind accord.push fun _ => accord.bind accord.newScope fun _ => ?_
  exact accord.atPlace (accord.run together body)

theorem message (kind : MessageKind) (value : Expr) (pos : Position) :
    R (first.message kind value pos) (second.message kind value pos) := by
  refine accord.bind (together.eval value) fun value => ?_
  split
  · exact accord.bind accord.pure fun text => accord.tell kind text pos
  · exact accord.bind accord.read fun _ => accord.bind accord.pure fun text => accord.tell kind text pos

theorem result (value : Expr) (pos : Position) : R (first.result value pos) (second.result value pos) := by
  have given : R (some <$> first.eval value) (some <$> second.eval value) := by
    rw [map_eq_pure_bind, map_eq_pure_bind]
    exact accord.bind (together.eval value) fun _ => accord.pure
  refine accord.bind accord.get fun state => ?_
  split
  · exact accord.bind accord.fail fun _ => given
  · exact given

theorem branch (otherwise : Option (List Statement)) (clauses : List (Expr × List Statement)) :
    R (first.branch otherwise clauses) (second.branch otherwise clauses) := by
  have last : R (first.branch otherwise []) (second.branch otherwise []) := by
    cases otherwise with
    | none => exact accord.pure
    | some body => exact accord.innerBlock together body []
  exact accord.congruence.branch together.eval last
    (List.forall₂_same.2 fun clause _ => ⟨rfl, accord.innerBlock together clause.2 []⟩)

/-! What is written elsewhere -/

theorem inclusion (name : String) (arguments : Arguments Expr) (content : Option (List Statement)) (pos : Position) :
    R (first.inclusion name arguments content pos) (second.inclusion name arguments content pos) := by
  refine accord.bind accord.get fun state => ?_
  dsimp only
  split
  · exact accord.fail
  · next mixin _ =>
    have body := accord.run together mixin.callable.body
    refine accord.bind accord.report fun _ => ?_
    refine accord.bind (accord.bindArguments together mixin arguments pos) fun scope => ?_
    refine accord.bind (accord.modify fun _ => ⟨rfl, rfl, rfl⟩) fun _ => ?_
    exact accord.andThen (accord.inScope (accord.inFile body)) fun _ => ⟨rfl, rfl, rfl⟩

theorem content : R first.content second.content := by
  refine accord.bind accord.get fun state => ?_
  split
  · next block outer _ =>
    refine accord.bind (accord.modify fun _ => ⟨rfl, rfl, rfl⟩) fun _ => accord.bind accord.newScope fun scope => ?_
    exact accord.andThen (accord.inScope (accord.inFile (accord.run together block.body))) fun _ => ⟨rfl, rfl, rfl⟩
  · exact accord.pure

theorem imports (pos : Position) (targets : List ImportTarget) :
    R (first.imports pos targets) (importing.imports second pos targets) := by
  induction targets with
  | nil => exact accord.pure
  | cons target rest tail =>
    cases target with
    | css text =>
      refine accord.bind (accord.bind (accord.text together text) fun text => ?_) fun _ => tail
      exact accord.writeImport text pos
    | sheet reference place =>
      exact accord.bind (accord.importSheet (accord.run together) (accord.writeImport · pos)) fun _ => tail

theorem runStatement (statement : Statement) :
    R (first.runStatement statement) (importing.runStatement second statement) := by
  have congruence := accord.congruence.toCongruence
  have inner := accord.innerBlock together
  cases statement with
  | rule pos selector body => exact accord.written (accord.rule together selector body pos)
  | declaration pos property value important nested =>
    exact accord.written (accord.declaration together property value important nested pos)
  | directive pos name parameters body => exact accord.written (accord.directive together name parameters body pos)
  | media pos query body => exact accord.written (accord.media together query body pos)
  | assignment pos name value isDefault isGlobal =>
    exact accord.effect (accord.bind (together.eval value) fun _ => accord.modify fun _ => ⟨rfl, rfl, rfl⟩)
  | mixin pos callable => exact accord.effect (accord.modify fun _ => ⟨rfl, rfl, rfl⟩)
  | function pos callable => exact accord.effect (accord.modify fun _ => ⟨rfl, rfl, rfl⟩)
  | inclusion pos name arguments content =>
    exact accord.written (accord.inclusion together name arguments content pos)
  | content pos => exact accord.effect (accord.content together)
  | result pos value => exact accord.result together value pos
  | branch pos clauses otherwise => exact accord.branch together otherwise clauses
  | forEach pos names items body =>
    exact accord.bind (together.eval items) fun _ => congruence.forEach (inner body) names _
  | forRange pos name low high inclusive body =>
    exact congruence.forRange (inner body) together.eval name low high inclusive
  | whileTrue pos condition body =>
    change R (first.whileTrue condition body first.budget) (second.whileTrue condition body second.budget)
    rw [together.budget]
    exact congruence.whileTrue (inner body) together.eval condition _
  | imports pos targets => exact accord.effect (accord.imports together pos targets)
  | message pos kind value => exact accord.effect (accord.message together kind value pos)
  | unsupported pos name => exact accord.fail
  | comment pos text => exact accord.effect (accord.comment text pos)

end Evaluators

/-- By induction on the depth. -/
theorem evaluator (depth : Nat) : InAccord R (evaluator depth) (importing.evaluator depth) := by
  induction depth with
  | zero => exact ⟨fun _ => accord.endless, fun _ => accord.endless, rfl⟩
  | succ depth shallower =>
    refine ⟨accord.evalStep shallower, fun statement => ?_, rfl⟩
    have step : R ((Evaluation.evaluator depth).execStep statement)
        (importing.execStep (importing.evaluator depth) statement) :=
      accord.during (fun _ => ⟨rfl, rfl, rfl⟩) (fun _ _ => ⟨rfl, rfl, rfl⟩) (accord.runStatement shallower statement)
    exact step

end Accord

end Stylesheet.Evaluation
