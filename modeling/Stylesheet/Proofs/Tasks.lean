import Stylesheet.Proofs.Courses
import Stylesheet.Proofs.ImportSearch

/-! What an evaluation is doing at each point of its course. A task tells which statement is running, and in which
function, mixin or block, so it is known what made each change: nodes and declarations come from statements, bodies from
definitions that were found in the scopes, and imported stylesheets from the search for them. -/

namespace Stylesheet

/-- The blocks that a statement chooses or repeats, each time in a scope of its own. -/
def Statement.choices : Statement → List (List Statement)
  | branch _ clauses otherwise => clauses.map (·.2) ++ otherwise.toList
  | forEach _ _ _ body | forRange _ _ _ _ _ body | whileTrue _ _ body => [body]
  | _ => []

theorem Statement.choices_subset (statement : Statement) : statement.choices ⊆ statement.blocks := by
  cases statement <;> simp [choices, blocks]

namespace Evaluation
open Evaluator

inductive Task where
  /-- Giving the value of an expression. -/
  | expression
  /-- Calling a function of the stylesheet. -/
  | call (function : Closure)
  /-- Running the body of a mixin, to which a block was handed, or none. -/
  | inclusion (mixin : Closure) (block : Option ContentBlock)
  /-- Running statements in order. -/
  | block (statements : List Statement)
  | statement (statement : Statement)

def Task.part : Task → Part
  | expression | call _ => .expression
  | inclusion _ _ | block _ | statement _ => .statement

/-- A reference in a stylesheet means another one. -/
def Means (environment : Environment) (importer : Sheet) (reference : String) (pos : Position) (sheet : Sheet) : Prop :=
  ∃ before after, before.sheet = importer ∧ Yields (findImport reference pos) environment before (some sheet) after

theorem Means.loaded {environment : Environment} {importer sheet : Sheet} {reference : String} {pos : Position}
    (means : Means environment importer reference pos sheet) : ∃ path source before after, before.sheet = importer ∧
      Yields (load path source pos) environment before sheet after := by
  obtain ⟨before, after, rfl, yields⟩ := means
  have asked : Yields (askHook reference pos) environment (before.asking reference pos) (some sheet) after := yields
  obtain ⟨path, source, between, same, read⟩ := loaded_askHook asked
  exact ⟨path, source, between, after, same, read⟩

namespace State

/-- The state in which something begins that was written in another file. -/
def within (state : State) (file : String) (scope : Nat) : State :=
  { state with
    file
    source := (state.tree.sourceIndex? file).getD state.source
    place := { state.place with scope } }

/-- The state in which the block handed to the current mixin begins. -/
def inContent (state : State) (block : ContentBlock) (outer : List (Option ContentBlock)) : State :=
  { state with content := outer, scopes := (state.scopes.child block.scope false).2 }.within block.file
    state.scopes.size

end State

/-- A task makes another one, which begins in the state `entered`; behind it `leave` puts back what was changed. -/
inductive Opens (environment : Environment) :
    (inner outer : Task) → (state entered : State) → (leave : State → State) → Prop
  | expression (outer : Task) (state : State) : Opens environment .expression outer state state id
  | default (outer : Task) (state : State) (scope : Nat) :
    Opens environment .expression outer state { state with place.scope := scope }
      fun after => { after with place.scope := state.place.scope }
  | call {state : State} {name : String} {function : Closure}
    (known : state.scopes.function? state.place.scope name = some function) :
    Opens environment (.call function) .expression state state id
  | function (state : State) (function : Closure) (scope : Nat) :
    Opens environment (.block function.callable.body) (.call function) state
      { state.within function.callable.file scope with functionDepth := state.functionDepth + 1 }
      fun after => { after with
        place.scope := state.place.scope, file := state.file, source := state.source
        functionDepth := state.functionDepth }
  | statement {statements : List Statement} {statement : Statement} (state : State) (member : statement ∈ statements) :
    Opens environment (.statement statement) (.block statements) state { state with statementPos := statement.pos }
      fun after => { after with statementPos := state.statementPos }
  | choice {statement : Statement} {body : List Statement} (state : State) (scope : Nat)
    (member : body ∈ statement.choices) :
    Opens environment (.block body) (.statement statement) state { state with place.scope := scope }
      fun after => { after with place.scope := state.place.scope }
  | rule {state : State} {pos : Position} {selector : Template Expr} {body : List Statement} (selectors : Selectors)
    (outside : state.functionDepth = 0) :
    Opens environment (.block body) (.statement (.rule pos selector body)) state (state.inRule selectors pos)
      fun after => { after with place := state.place }
  | property {state : State} {pos : Position} {property : Template Expr} {value : Option Expr} {important : Bool}
    {nested : List Statement} (name : String) (outside : state.functionDepth = 0) :
    Opens environment (.block nested) (.statement (.declaration pos property value important nested)) state
      { state with propertyName := some name } fun after => { after with propertyName := state.propertyName }
  | directive {state : State} {pos : Position} {name : String} {template : Template Expr} {body : List Statement}
    (parameters : String) (outside : state.functionDepth = 0) :
    Opens environment (.block body) (.statement (.directive pos name template (some body))) state
      (state.inDirective name parameters pos) fun after => { after with place := state.place }
  | media {state : State} {pos : Position} {query : Template Expr} {body : List Statement} (words : String)
    (outside : state.functionDepth = 0) :
    Opens environment (.block body) (.statement (.media pos query body)) state (state.inMedia words pos)
      fun after => { after with place := state.place }
  | inclusion {state : State} {pos : Position} {name : String} {arguments : Arguments Expr}
    {content : Option (List Statement)} {mixin : Closure}
    (known : state.scopes.mixin? state.place.scope name = some mixin) (outside : state.functionDepth = 0) :
    Opens environment (.inclusion mixin (content.map fun body => ⟨body, state.place.scope, state.file⟩))
      (.statement (.inclusion pos name arguments content)) state state id
  | mixin (state : State) (mixin : Closure) (block : Option ContentBlock) (scope : Nat) :
    Opens environment (.block mixin.callable.body) (.inclusion mixin block) state
      { state.within mixin.callable.file scope with content := block :: state.content }
      fun after => { after with
        place.scope := state.place.scope, file := state.file, source := state.source
        content := after.content.tail }
  | content {state : State} {pos : Position} {block : ContentBlock} {outer : List (Option ContentBlock)}
    (handed : state.content = some block :: outer) :
    Opens environment (.block block.body) (.statement (.content pos)) state (state.inContent block outer)
      fun after => { after with
        place.scope := state.place.scope, file := state.file, source := state.source
        content := some block :: after.content }
  | sheet {state : State} {pos place : Position} {targets : List ImportTarget} {reference : String} {sheet : Sheet}
    (target : .sheet reference place ∈ targets)
    (asked : ⟨reference, place, state.file, state.sheet, state.functionDepth⟩ ∈ state.lookups)
    (means : Means environment state.sheet reference place sheet) :
    Opens environment (.block sheet.statements) (.statement (.imports pos targets)) state (state.inSheet sheet)
      fun after => { after with sheet := state.sheet, file := state.file, source := state.source }

/-- A task may lead from one state to another. -/
inductive Performs (environment : Environment) : Task → State → State → Prop
  | refl (task : Task) (state : State) : Performs environment task state state
  | trans {task : Task} {before between after : State} (first : Performs environment task before between)
    (second : Performs environment task between after) : Performs environment task before after
  | inside {inner outer : Task} {state entered after : State} {leave : State → State}
    (opens : Opens environment inner outer state entered leave) (performs : Performs environment inner entered after) :
    Performs environment outer state (leave after)
  | report (task : Task) (state : State) (event : LogEvent) :
    Performs environment task state { state with log := event :: state.log }
  | newScope (task : Task) (state : State) (parent : Nat) (semiGlobal : Bool) :
    Performs environment task state { state with scopes := (state.scopes.child parent semiGlobal).2 }
  | declare (task : Task) (state : State) (scope : Nat) (name : String) (value : Value) :
    Performs environment task state { state with scopes := state.scopes.declare scope name value }
  | assign {pos : Position} {name : String} {expr : Expr} {isDefault isGlobal : Bool} (state : State) (value : Value) :
    Performs environment (.statement (.assignment pos name expr isDefault isGlobal)) state
      { state with scopes := state.scopes.assign state.place.scope name value isDefault isGlobal }
  | defineMixin {pos : Position} {callable : Callable Statement} (state : State) :
    Performs environment (.statement (.mixin pos callable)) state
      { state with scopes := state.scopes.defineMixin state.place.scope ⟨callable, state.place.scope⟩ }
  | defineFunction {pos : Position} {callable : Callable Statement} (state : State) :
    Performs environment (.statement (.function pos callable)) state
      { state with scopes := state.scopes.defineFunction state.place.scope ⟨callable, state.place.scope⟩ }
  | lookup {pos place : Position} {targets : List ImportTarget} {reference : String} (state : State)
    (target : .sheet reference place ∈ targets) :
    Performs environment (.statement (.imports pos targets)) state (state.asking reference place)
  /-- An import that is left to the browser is written even by a function. -/
  | browser {pos : Position} {targets : List ImportTarget} (state : State) (parameters : String) :
    Performs environment (.statement (.imports pos targets)) state
      { state with tree := state.pushed state.place.container (.directive "import" parameters) pos }
  | directive {state : State} {pos : Position} {name : String} {template : Template Expr} (parameters : String)
    (outside : state.functionDepth = 0) :
    Performs environment (.statement (.directive pos name template none)) state
      { state with tree := state.pushed state.place.container (.directive name parameters) pos }
  | comment {state : State} {pos : Position} {text : Comment} (outside : state.functionDepth = 0)
    (missing : state.place.rule = none) :
    Performs environment (.statement (.comment pos text)) state
      { state with tree := state.pushed state.place.container (.comment text) pos }
  | commentItem {state : State} {pos : Position} {text : Comment} {id : Nat} (outside : state.functionDepth = 0)
    (current : state.place.rule = some id) :
    Performs environment (.statement (.comment pos text)) state
      { state with tree := state.tree.pushItem id (.comment text) }
  /-- Outside of any rule a declaration makes one, if there are selectors for it. -/
  | target {state : State} {pos : Position} {property : Template Expr} {value : Option Expr} {important : Bool}
    {nested : List Statement} {selectors : Selectors} (outside : state.functionDepth = 0)
    (missing : state.place.rule = none) (known : state.place.selectors = some selectors) :
    Performs environment (.statement (.declaration pos property value important nested)) state { state with
      tree := state.pushed state.place.container (.rule selectors) pos
      place.rule := some state.tree.entries.size }
  | declaration {state : State} {pos : Position} {property : Template Expr} {expr : Option Expr} {important : Bool}
    {nested : List Statement} {id : Nat} {value : Value} {css : String} (name : String)
    (outside : state.functionDepth = 0) (receives : state.Receives id)
    (shown : value.css environment.places false = .ok css) :
    Performs environment (.statement (.declaration pos property expr important nested)) state { state with
      tree := state.tree.pushItem id (.declaration ⟨name, value, important, ⟨state.source, pos⟩⟩) }

/-- The states that the evaluation of a stylesheet may come through, with what it is doing there. -/
inductive Reached (environment : Environment) (root : Sheet) : Task → State → Prop
  | start : Reached environment root (.block root.statements) (State.start root)
  | performs {task : Task} {before after : State} (reached : Reached environment root task before)
    (performs : Performs environment task before after) : Reached environment root task after
  | opens {inner outer : Task} {state entered : State} {leave : State → State}
    (reached : Reached environment root outer state) (opens : Opens environment inner outer state entered leave) :
    Reached environment root inner entered

variable {α β : Type} {environment : Environment} {before between after state entered : State} {inner outer task : Task}
  {leave : State → State}

/-! Which course an evaluation runs does not depend on what it is doing. -/

theorem Leads.ofExpression {part : Part} (leads : Leads .expression before after) : Leads part before after := by
  cases part with
  | expression => exact leads
  | statement => exact .expression leads

theorem Opens.leave_tree (opens : Opens environment inner outer state entered leave) (after : State) :
    (leave after).tree = after.tree := by
  cases opens <;> rfl

theorem Opens.enter_lookups (opens : Opens environment inner outer state entered leave) :
    entered.lookups = state.lookups := by
  cases opens <;> rfl

theorem Opens.leave_lookups (opens : Opens environment inner outer state entered leave) (after : State) :
    (leave after).lookups = after.lookups := by
  cases opens <;> rfl

theorem Opens.leads (opens : Opens environment inner outer state entered leave)
    (leads : Leads inner.part entered after) : Leads outer.part state (leave after) := by
  cases opens with
  | expression => exact .ofExpression leads
  | default outer state scope => exact .inside (.inScope _ state scope) (.ofExpression leads)
  | call => exact leads
  | function state function scope =>
    exact .inside (.inScope _ state scope)
      (.inside (.inFile _ _ function.callable.file) (.inside (.inFunction _) leads))
  | statement state => exact .inside (.atStatement state _) leads
  | choice state scope => exact .inside (.inScope _ state scope) leads
  | rule selectors outside => exact .inside (.inRule selectors _ outside) leads
  | property name outside => exact .inside (.inProperty name outside) leads
  | directive parameters outside => exact .inside (.inDirective _ parameters _ outside) leads
  | media words outside => exact .inside (.inMedia words _ outside) leads
  | inclusion => exact leads
  | mixin state mixin block scope =>
    exact .inside (.withContent state block)
      (.inside (.inScope _ _ scope) (.inside (.inFile _ _ mixin.callable.file) leads))
  | content handed =>
    exact .inside (.content handed) (.trans (.newScope _ _ _ false)
      (.inside (.inScope _ _ state.scopes.size) (.inside (.inFile _ _ _) leads)))
  | sheet => exact .inside (.inSheet state _) leads

theorem Performs.leads (performs : Performs environment task before after) : Leads task.part before after := by
  induction performs with
  | refl => exact .refl _ _
  | trans _ _ first second => exact first.trans second
  | inside opens _ leads => exact opens.leads leads
  | report => exact .report _ _ _
  | newScope => exact .newScope _ _ _ _
  | declare => exact .declare _ _ _ _ _
  | assign => exact .assign _ _ _ _ _
  | defineMixin => exact .defineMixin _ _
  | defineFunction => exact .defineFunction _ _
  | lookup => exact .lookup _ _ _
  | browser => exact .directive _ _ _ _ (.inr rfl)
  | directive _ outside => exact .directive _ _ _ _ (.inl outside)
  | comment outside => exact .comment _ _ outside
  | commentItem outside current => exact .item _ outside (.inl current)
  | target outside missing known => exact .rule _ outside missing known
  | declaration _ outside receives => exact .item _ outside receives

theorem Opens.reachable (opens : Opens environment inner outer state entered leave) (reached : Reachable state) :
    Reachable entered := by
  cases opens with
  | expression | call | inclusion => exact reached
  | default outer state scope => exact .enters reached (.inScope .statement state scope)
  | function state function scope =>
    exact .enters (.enters (.enters reached (.inScope .expression state scope)) (.inFile .expression _ _))
      (.inFunction _)
  | statement state => exact .enters reached (.atStatement state _)
  | choice state scope => exact .enters reached (.inScope .statement state scope)
  | rule selectors outside => exact .enters reached (.inRule selectors _ outside)
  | property name outside => exact .enters reached (.inProperty name outside)
  | directive parameters outside => exact .enters reached (.inDirective _ parameters _ outside)
  | media words outside => exact .enters reached (.inMedia words _ outside)
  | mixin state mixin block scope =>
    exact .enters (.enters (.enters reached (.withContent state block)) (.inScope .statement _ scope))
      (.inFile .statement _ _)
  | @content _ _ block outer handed =>
    have opened := Leads.newScope .statement { state with content := outer } block.scope false
    exact .enters (.enters (.leads (.enters reached (.content handed)) opened)
      (.inScope .statement _ state.scopes.size)) (.inFile .statement _ block.file)
  | sheet => exact .enters reached (.inSheet state _)

theorem Reached.reachable {root : Sheet} (reached : Reached environment root task state) : Reachable state := by
  induction reached with
  | start => exact .start root
  | performs _ performs reachable => exact .leads reachable performs.leads
  | opens _ opens reachable => exact opens.reachable reachable

namespace Performs

theorem flows (environment : Environment) (task : Task) : Flows (Performs environment task) :=
  ⟨.refl task, .trans, .report task⟩

theorem functionDepth (performs : Performs environment task before after) :
    after.functionDepth = before.functionDepth := performs.leads.functionDepth

theorem expression (performs : Performs environment .expression before after) :
    Performs environment task before after :=
  .inside (.expression task before) performs

end Performs

/-- An evaluator does what its tasks ask for. -/
structure Working (environment : Environment) (evaluator : Evaluator) : Prop where
  eval : ∀ expr, AlongIn environment (Performs environment .expression) (evaluator.eval expr)
  exec : ∀ statements, ∀ statement ∈ statements,
    AlongIn environment (Performs environment (.block statements)) (evaluator.exec statement)

theorem Working.evalFor {evaluator : Evaluator} (working : Working environment evaluator) (task : Task) (expr : Expr) :
    AlongIn environment (Performs environment task) (evaluator.eval expr) :=
  fun before => (working.eval expr before).expression

/-- Where no function is running, an action is a part of a task. -/
def OutsideIn (environment : Environment) (task : Task) (action : Eval α) : Prop :=
  ∀ before, before.functionDepth = 0 → Performs environment task before (action.outcome environment before).2

namespace OutsideIn

theorem of {action : Eval α} (along : AlongIn environment (Performs environment task) action) :
    OutsideIn environment task action := fun before _ => along before

theorem bind {action : Eval α} {next : α → Eval β} (first : OutsideIn environment task action)
    (rest : ∀ value, OutsideIn environment task (next value)) : OutsideIn environment task (action >>= next) := by
  intro before outside
  have step := first before outside
  rw [outcome_bind]
  rcases outcome : action.outcome environment before with ⟨result, between⟩
  rw [outcome] at step
  cases result with
  | error failure => exact step
  | ok value => exact step.trans (rest value between (step.functionDepth.trans outside))

end OutsideIn

namespace Evaluator

variable {self : Evaluator}

theorem newScope_performs {parent : Nat} {semiGlobal : Bool} :
    AlongIn environment (Performs environment task) (Evaluation.newScope parent semiGlobal) :=
  AlongIn.modifyGet fun state => .newScope task state parent semiGlobal

theorem declare_performs {scope : Nat} {name : String} {value : Value} :
    AlongIn environment (Performs environment task) (Evaluation.declare scope name value) :=
  AlongIn.modify fun state => .declare task state scope name value

variable (working : Working environment self)

include working

theorem block_performs (statements : List Statement) :
    AlongIn environment (Performs environment (.block statements)) (self.block statements) :=
  block_along (Performs.flows environment _) (working.exec statements)

theorem run_performs (statements : List Statement) :
    AlongIn environment (Performs environment (.block statements)) (self.run statements) :=
  run_along (Performs.flows environment _) (working.exec statements)

theorem text_performs (template : Template Expr) :
    AlongIn environment (Performs environment task) (self.text template) :=
  text_along (Performs.flows environment task) (working.evalFor task) template

/-! Calls -/

theorem bindParameters_performs (scope : Nat) (pos : Position) (parameters : List Parameter) (values : List Value)
    (named : List (String × Value)) :
    AlongIn environment (Performs environment task) (self.bindParameters scope pos parameters values named) := by
  have flows := Performs.flows environment task
  induction parameters generalizing values named with
  | nil => exact flows.pure
  | cons parameter rest tail =>
    cases values with
    | cons value values => exact flows.bind declare_performs fun _ => tail values named
    | nil =>
      simp only [bindParameters]
      split
      · exact flows.bind declare_performs fun _ => tail _ _
      · refine flows.bind ?_ fun _ => flows.bind declare_performs fun _ => tail _ _
        exact (working.eval _).during fun state _ => .inside (.default task state scope)
      · exact flows.fail

omit working in
theorem bindRest_performs (rest : Option String) (scope : Nat) (pos : Position) (values : List Value)
    (named : List (String × Value)) :
    AlongIn environment (Performs environment task) (bindRest rest scope pos values named) := by
  unfold bindRest
  split
  · exact declare_performs
  · exact (Performs.flows environment _).fail
  · exact (Performs.flows environment _).pure

theorem parameterScope_performs (closure : Closure) (pos : Position) (values : List Value)
    (named : List (String × Value)) :
    AlongIn environment (Performs environment task) (self.parameterScope closure pos values named) := by
  have flows := Performs.flows environment task
  refine flows.bind newScope_performs fun scope => ?_
  refine flows.bind (bindParameters_performs working _ _ _ _ _) fun (values, named) => ?_
  exact flows.bind (bindRest_performs _ _ _ _ _) fun _ => flows.pure

theorem bindArguments_performs (closure : Closure) (arguments : Arguments Expr) (pos : Position) :
    AlongIn environment (Performs environment task) (self.bindArguments closure arguments pos) := by
  have flows := Performs.flows environment task
  refine flows.bind (allArguments_along flows (working.evalFor task) arguments) fun (values, named) => ?_
  have bound : AlongIn environment (Performs environment task) (self.parameterScope closure pos values named) :=
    parameterScope_performs working closure pos values named
  dsimp only
  split
  · exact flows.bind flows.fail fun _ => bound
  · exact bound

theorem callFunction_performs (function : Closure) (arguments : Arguments Expr) (pos : Position) :
    AlongIn environment (Performs environment (.call function)) (self.callFunction function arguments pos) := by
  have flows := Performs.flows environment (.call function)
  refine flows.bind flows.reported fun _ => ?_
  refine flows.bind (bindArguments_performs working function arguments pos) fun scope => ?_
  refine flows.bind (fun before => ?_) fun value => ?_
  · have body := Performs.inside (.function before function scope) (block_performs working function.callable.body _)
    exact body
  · split
    · exact checkResult_along flows _ pos
    · exact flows.fail

theorem call_performs (name : String) (arguments : Arguments Expr) (pos : Position) :
    AlongIn environment (Performs environment .expression) (self.call name arguments pos) := by
  have flows := Performs.flows environment .expression
  refine .get_bind fun before => ?_
  split
  · next function known => exact .inside (.call known) (callFunction_performs working function arguments pos before)
  · dsimp only
    split
    · exact callIf_along flows working.eval arguments pos before
    · split
      · exact callNameQuery_along flows working.eval _ _ arguments pos before
      · exact callBuiltin_along flows working.eval _ arguments pos before
      · exact callPlain_along flows working.eval name arguments before

theorem evalStep_performs (expr : Expr) :
    AlongIn environment (Performs environment .expression) (self.evalStep expr) :=
  evalStep_along (Performs.flows environment .expression) working.eval (call_performs working) expr

/-! Control -/

theorem innerBlock_performs {statement : Statement} {body : List Statement} (bound : List (String × Value))
    (member : body ∈ statement.choices) :
    AlongIn environment (Performs environment (.statement statement)) (self.innerBlock bound body) := by
  have flows := Performs.flows environment (.statement statement)
  refine flows.bind flows.get fun state => flows.bind newScope_performs fun scope => ?_
  refine flows.bind (flows.forIn (fun _ _ => flows.bind declare_performs fun _ => flows.pure) bound _) fun _ => ?_
  exact (block_performs working body).during fun state _ => .inside (.choice state scope member)

/-! Output -/

theorem rule_performs (selector : Template Expr) (body : List Statement) (pos : Position) :
    OutsideIn environment (.statement (.rule pos selector body)) (self.rule selector body pos) := by
  refine OutsideIn.bind (.of (text_performs working selector)) fun text => ?_
  refine OutsideIn.bind (.of (resolved_along (Performs.flows environment _) text pos)) fun selectors => ?_
  intro before outside
  exact .inside (.rule selectors outside) (run_performs working body _)

section Declarations

variable {pos : Position} {template : Template Expr} {expr : Option Expr} {important : Bool} {nested : List Statement}

omit working in
/-- The only place where the current rule changes for what follows. -/
theorem declarationTarget_performs :
    OutsideIn environment (.statement (.declaration pos template expr important nested)) (declarationTarget pos) := by
  intro before outside
  rw [declarationTarget, outcome_get_bind]
  dsimp only
  split
  · exact .refl _ before
  · next missing known => exact .target outside missing known
  · exact .refl _ before
  · exact .refl _ before

omit working in
theorem receives_declarationTarget {id : Nat} (yields : Yields (declarationTarget pos) environment before id after) :
    after.Receives id := by
  cases targetFound yields with
  | rule current => exact .inl current
  | made => exact .inl rfl
  | block missing unknown held => exact .inr ⟨missing, unknown, held⟩

omit working in
/-- The rule or the block that a declaration finds or makes takes it, once its value has been found to have a place in
CSS. -/
theorem declared_performs (property : String) (value : Value) :
    OutsideIn environment (.statement (.declaration pos template expr important nested))
      (declared property value important pos) := by
  intro before outside
  rw [declared, outcome_read_bind]
  cases shown : value.css environment.places false with
  | error error =>
    have failed : (ofOperation pos (.error error : Except OperationError String)).outcome environment before =
        (.error (.evaluation (.operation error) pos before.file), before) := rfl
    rw [outcome_bind, failed]
    exact .refl _ before
  | ok css =>
    have found : (ofOperation pos (.ok css)).outcome environment before = (.ok css, before) := rfl
    rw [outcome_bind, found]
    dsimp only
    split
    · have step : Performs environment (.statement (.declaration pos template expr important nested)) before
          ((declarationTarget pos).outcome environment before).2 := declarationTarget_performs before outside
      rw [outcome_bind]
      rcases outcome : (declarationTarget pos).outcome environment before with ⟨result, between⟩
      rw [outcome] at step
      cases result with
      | error failure => exact step
      | ok id =>
        have receives : between.Receives id := receives_declarationTarget outcome
        exact step.trans (.declaration property (step.functionDepth.trans outside) receives shown)
    · exact .refl _ before

theorem declaration_performs (property : Template Expr) (value : Option Expr) (important : Bool)
    (nested : List Statement) (pos : Position) :
    OutsideIn environment (.statement (.declaration pos property value important nested))
      (self.declaration property value important nested pos) := by
  have flows := Performs.flows environment
    (.statement (.declaration pos property value important nested))
  refine OutsideIn.bind (.of (text_performs working property)) fun text => ?_
  refine OutsideIn.bind (.of flows.get) fun state => ?_
  have inner {name : String} : OutsideIn environment (.statement (.declaration pos property value important nested))
      (if !nested.isEmpty then inProperty name (self.run nested) else pure ()) := by
    split
    · intro before outside
      exact .inside (.property name outside) (run_performs working nested _)
    · exact .of flows.pure
  cases value with
  | some expr =>
    refine OutsideIn.bind (.of (cssValue_along flows (working.evalFor _) expr)) fun found => ?_
    exact OutsideIn.bind (declared_performs _ _) fun _ => inner
  | none =>
    dsimp only
    split
    · exact OutsideIn.bind declarationTarget_performs fun _ => inner
    · exact inner

end Declarations

theorem directive_performs (name : String) (parameters : Template Expr) (body : Option (List Statement))
    (pos : Position) :
    OutsideIn environment (.statement (.directive pos name parameters body))
      (self.directive name parameters body pos) := by
  unfold directive
  split
  · exact .of (Performs.flows environment _).pure
  · refine OutsideIn.bind (.of (text_performs working parameters)) fun text => ?_
    intro before outside
    cases body with
    | none => exact .directive _ outside
    | some body => exact .inside (.directive _ outside) (run_performs working body _)

theorem media_performs (query : Template Expr) (body : List Statement) (pos : Position) :
    OutsideIn environment (.statement (.media pos query body)) (self.media query body pos) := by
  refine OutsideIn.bind (.of (text_performs working query)) fun text => ?_
  intro before outside
  dsimp only
  generalize " ".intercalate ((Text.words text.toList).map String.ofList) = words
  let told : State := { before with log := .media (joinedMedia before.place words).1 :: before.log }
  have opens : Opens environment (.block body) (.statement (.media pos query body)) told (told.inMedia words pos)
      fun after => { after with place := told.place } := .media words outside
  exact (Performs.report _ before _).trans (.inside opens (run_performs working body _))

omit working in
theorem comment_performs (text : Comment) (pos : Position) :
    AlongIn environment (Performs environment (.statement (.comment pos text))) (comment text pos) := by
  refine .get_bind fun before => ?_
  split
  · next outside =>
    split
    · next current => exact .commentItem outside current
    · next missing => exact .comment outside missing
  · exact .refl _ before

omit working in
/-- Statements that write are refused in functions. -/
theorem written_performs {pos : Position} {action : Eval Unit} (inside : OutsideIn environment task action) :
    AlongIn environment (Performs environment task) (written pos action) := by
  refine effect_along (Performs.flows environment task) fun before => ?_
  by_cases outside : before.functionDepth = 0
  · have refuses : AlongIn environment (Performs environment task) (refuseInFunction pos) :=
      refuseInFunction_along (Performs.flows environment task) pos
    exact OutsideIn.bind (.of refuses) (fun _ => inside) before outside
  · have refused : (refuseInFunction pos).outcome environment before =
        (.error (.evaluation .outputInFunction pos before.file), before) := by
      rw [refuseInFunction, outcome_get_bind, if_pos (Nat.pos_of_ne_zero outside)]
      rfl
    rw [outcome_bind, refused]
    exact .refl _ before

/-! What is written elsewhere -/

theorem inclusion_performs (name : String) (arguments : Arguments Expr) (content : Option (List Statement))
    (pos : Position) :
    OutsideIn environment (.statement (.inclusion pos name arguments content))
      (self.inclusion name arguments content pos) := by
  intro before outside
  rw [Evaluator.inclusion, outcome_get_bind]
  dsimp only
  split
  · exact (Performs.flows environment _).fail before
  · next mixin known =>
    generalize handed : content.map (fun body => (⟨body, before.place.scope, before.file⟩ : ContentBlock)) = block
    have flows := Performs.flows environment (.inclusion mixin block)
    have ran (scope : Nat) : AlongIn environment (Performs environment (.inclusion mixin block))
        (withContent block (inScope scope (inFile mixin.callable.file (self.run mixin.callable.body)))) := by
      intro between
      have body := Performs.inside (.mixin between mixin block scope) (run_performs working mixin.callable.body _)
      exact body
    have told : AlongIn environment (Performs environment (.inclusion mixin block)) (report (.inclusion name)) :=
      flows.reported
    have body := flows.bind told fun _ => flows.bind (bindArguments_performs working mixin arguments pos) ran
    have opens : Opens environment (.inclusion mixin block) (.statement (.inclusion pos name arguments content)) before
        before id := handed ▸ .inclusion known outside
    exact .inside opens (body before)

theorem content_performs (pos : Position) :
    AlongIn environment (Performs environment (.statement (.content pos))) self.content := by
  refine .get_bind fun before => ?_
  split
  · next block outer handed =>
    have opens : Opens environment (.block block.body) (.statement (.content pos)) before
        (before.inContent block outer) _ := .content handed
    have body := Performs.inside opens (run_performs working block.body _)
    exact body
  · exact .refl _ before

section Imports

variable {pos place : Position} {targets : List ImportTarget} {reference : String}

omit working in
/-- What is found for an import was looked up, and the evaluation is still in the same place. -/
theorem findImport_performs (environment : Environment) (pos : Position) (target : .sheet reference place ∈ targets)
    (before : State) :
    ∃ result events, (findImport reference place).outcome environment before =
        (result, { before.asking reference place with log := events ++ before.log }) ∧
      Performs environment (.statement (.imports pos targets)) before
        { before.asking reference place with log := events ++ before.log } := by
  obtain ⟨result, events, found, -⟩ :=
    askHook_searches reference place environment (before.asking reference place) _ (.refl _)
  refine ⟨result, events, found, (Performs.lookup before target).trans ?_⟩
  have searched : AlongIn environment (Performs environment (.statement (.imports pos targets)))
      (askHook reference place) := askHook_along (Performs.flows environment _) reference place
  have step := searched (before.asking reference place)
  rwa [found] at step

omit working in
theorem writeImport_performs (parameters : String) :
    AlongIn environment (Performs environment (.statement (.imports pos targets))) (writeImport parameters pos) :=
  fun before => .browser before parameters

theorem importTarget_performs {target : ImportTarget} (member : target ∈ targets) :
    AlongIn environment (Performs environment (.statement (.imports pos targets))) (self.importTarget pos target) := by
  have flows := Performs.flows environment (.statement (.imports pos targets))
  cases target with
  | css text => exact flows.bind (text_performs working text) fun _ => writeImport_performs _
  | sheet reference place =>
    intro before
    obtain ⟨result, events, found, looked⟩ := findImport_performs environment pos member before
    rw [importTarget, outcome_bind, found]
    cases result with
    | error failure => exact looked
    | ok answer =>
      refine looked.trans ?_
      cases answer with
      | none => exact writeImport_performs _ _
      | some sheet =>
        have means : Means environment before.sheet reference place sheet := ⟨before, _, rfl, found⟩
        let told : State :=
          { before.asking reference place with log := .importing sheet.path :: (events ++ before.log) }
        have opens : Opens environment (.block sheet.statements) (.statement (.imports pos targets)) told
            (told.inSheet sheet)
            fun after => { after with sheet := told.sheet, file := told.file, source := told.source } :=
          .sheet member (.head _) means
        have body := Performs.inside opens (run_performs working sheet.statements _)
        exact (Performs.report _ _ (.importing sheet.path)).trans body

theorem imports_performs (rest : List ImportTarget) (members : ∀ target ∈ rest, target ∈ targets) :
    AlongIn environment (Performs environment (.statement (.imports pos targets))) (self.imports pos rest) := by
  have flows := Performs.flows environment (.statement (.imports pos targets))
  induction rest with
  | nil => exact flows.pure
  | cons target rest tail =>
    obtain ⟨here, later⟩ := List.forall_mem_cons.1 members
    exact flows.bind (importTarget_performs working here) fun _ => tail later

end Imports

/-! Statements -/

theorem runStatement_performs (statement : Statement) :
    AlongIn environment (Performs environment (.statement statement)) (self.runStatement statement) := by
  have flows := Performs.flows environment (.statement statement)
  have eval := working.evalFor (.statement statement)
  cases statement with
  | rule pos selector body => exact written_performs (rule_performs working selector body pos)
  | declaration pos property value important nested =>
    exact written_performs (declaration_performs working property value important nested pos)
  | directive pos name parameters body => exact written_performs (directive_performs working name parameters body pos)
  | media pos query body => exact written_performs (media_performs working query body pos)
  | assignment pos name value isDefault isGlobal =>
    exact effect_along flows (flows.bind (eval value) fun _ => AlongIn.modify fun state => .assign state _)
  | mixin pos callable => exact effect_along flows (AlongIn.modify fun state => .defineMixin state)
  | function pos callable => exact effect_along flows (AlongIn.modify fun state => .defineFunction state)
  | inclusion pos name arguments content =>
    exact written_performs (inclusion_performs working name arguments content pos)
  | content pos => exact effect_along flows (content_performs working pos)
  | result pos value => exact result_along flows eval value pos
  | branch pos clauses otherwise =>
    exact branch_along flows eval otherwise clauses fun _ member => innerBlock_performs working [] member
  | forEach pos names items body =>
    exact flows.bind (eval items) fun _ => forEach_along flows (innerBlock_performs working · (.head _)) names _
  | forRange pos name first last inclusive body =>
    exact forRange_along flows eval (innerBlock_performs working · (.head _)) name first last inclusive
  | whileTrue pos condition body => exact whileTrue_along flows eval (innerBlock_performs working · (.head _)) condition _
  | imports pos targets => exact effect_along flows (imports_performs working targets fun _ member => member)
  | message pos kind value => exact effect_along flows (message_along flows eval kind value pos)
  | unsupported pos name => exact flows.fail
  | comment pos text => exact effect_along flows (comment_performs text pos)

end Evaluator

/-- By induction on the depth: every evaluation does what its tasks ask for. -/
theorem working_evaluator (environment : Environment) (depth : Nat) : Working environment (evaluator depth) := by
  induction depth with
  | zero => exact ⟨fun _ => (Performs.flows environment _).throw, fun _ _ _ => (Performs.flows environment _).throw⟩
  | succ depth shallower =>
    refine ⟨fun expr => Evaluator.evalStep_performs shallower expr, fun statements statement member before => ?_⟩
    exact .inside (.statement before member) (Evaluator.runStatement_performs shallower statement _)

/-- Every evaluation runs a course. -/
theorem guided_evaluator (depth : Nat) : Guided (evaluator depth) where
  eval expr environment before := ((working_evaluator environment depth).eval expr before).leads
  exec statement environment before :=
    ((working_evaluator environment depth).exec [statement] statement (.head _) before).leads

theorem performs_evaluate (environment : Environment) (sheet : Sheet) :
    Performs environment (.block sheet.statements) (State.start sheet) (evaluate environment sheet).2 :=
  Evaluator.run_performs (working_evaluator environment depthLimit) sheet.statements _

theorem reached_evaluate (environment : Environment) (sheet : Sheet) :
    Reached environment sheet (.block sheet.statements) (evaluate environment sheet).2 :=
  .performs .start (performs_evaluate environment sheet)

end Evaluation

end Stylesheet
