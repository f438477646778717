import Stylesheet.Proofs.Congruence

/-! Blocks that are handed to mixins belong to the place where they are written. Beside the evaluator, which keeps the
blocks of the mixins that are running on a stack, stands one that keeps no stack: each evaluation has a content context,
each use of a mixin makes a new one, which captures the context that is in force there, and the block of a context runs in
the captured one. Both do the same. -/

namespace Stylesheet.Evaluation

/-- What `@content` means: nothing outside of all mixins, and in the body of a mixin the block that was handed to it, or
none. A context captures the one that was in force where the mixin was used. -/
inductive ContentContext where
  | outside
  | inclusion (block : Option ContentBlock) (captured : ContentContext)

/-- The blocks of a context and of those that it captures, the innermost first. -/
def ContentContext.blocks : ContentContext → List (Option ContentBlock)
  | outside => []
  | inclusion block captured => block :: captured.blocks

/-! The evaluator without a stack -/

namespace Lexical
open Evaluator

variable (evaluators : ContentContext → Evaluator)

/-- The body of a mixin runs in a new context. -/
def inclusion (context : ContentContext) (name : String) (arguments : Arguments Expr)
    (content : Option (List Statement)) (pos : Position) : Eval Unit := do
  let state ← get
  match state.scopes.mixin? state.place.scope name with
  | none => fail pos (.undefinedMixin name)
  | some mixin =>
    report (.inclusion name)
    let scope ← (evaluators context).bindArguments mixin arguments pos
    let block := content.map fun body => { body, scope := state.place.scope, file := state.file }
    inScope scope (inFile mixin.callable.file ((evaluators (.inclusion block context)).run mixin.callable.body))

/-- The block of a context runs in the captured context. -/
def content : ContentContext → Eval Unit
  | .inclusion (some block) captured => do
    let scope ← newScope block.scope false
    inScope scope (inFile block.file ((evaluators captured).run block.body))
  | _ => return ()

/-- All other statements pass the context on. -/
def runStatement (context : ContentContext) : Statement → Eval (Option Value)
  | .inclusion pos name arguments content => written pos (inclusion evaluators context name arguments content pos)
  | .content _ => effect (content evaluators context)
  | statement => (evaluators context).runStatement statement

def execStep (context : ContentContext) (statement : Statement) : Eval (Option Value) :=
  during ({ · with statementPos := statement.pos })
    (fun before after => { after with statementPos := before.statementPos }) (runStatement evaluators context statement)

mutual

def evalAt : Nat → ContentContext → Expr → Eval Value
  | 0, _, _ => throw .endless
  | n + 1, context, expr => Evaluator.evalStep ⟨n, evalAt n context, execAt n context⟩ expr

def execAt : Nat → ContentContext → Statement → Eval (Option Value)
  | 0, _, _ => throw .endless
  | n + 1, context, statement => execStep (fun context => ⟨n, evalAt n context, execAt n context⟩) context statement

end

/-- The evaluator that goes down to a depth, in a context. -/
def evaluator (depth : Nat) (context : ContentContext) : Evaluator := ⟨depth, evalAt depth context, execAt depth context⟩

/-- Runs a stylesheet, which begins outside of all mixins. -/
def evaluate (environment : Environment) (sheet : Sheet) : Except Failure Unit × State :=
  (evaluator depthLimit .outside).run sheet.statements environment (State.start sheet)

end Lexical

/-- The state with other blocks handed to the mixins that are running. -/
def State.under (state : State) (stack : List (Option ContentBlock)) : State := { state with content := stack }

variable {α β : Type} {stack : List (Option ContentBlock)}

/-- On a stack, the first action does what the second one does on any. The second one leaves its stack as it is. -/
structure Mirrors (stack : List (Option ContentBlock)) (first second : Eval α) : Prop where
  same : ∀ environment state, first.outcome environment (state.under stack) =
    ((second.outcome environment state).1, (second.outcome environment state).2.under stack)
  kept : ∀ environment state, (second.outcome environment state).2.content = state.content

namespace Mirrors

theorem pure {value : α} : Mirrors stack (Pure.pure value) (Pure.pure value) := ⟨fun _ _ => rfl, fun _ _ => rfl⟩

theorem throw {failure : Failure} :
    Mirrors stack (MonadExcept.throw failure : Eval α) (MonadExcept.throw failure) := ⟨fun _ _ => rfl, fun _ _ => rfl⟩

theorem read : Mirrors stack (MonadReader.read : Eval Environment) MonadReader.read :=
  ⟨fun _ _ => rfl, fun _ _ => rfl⟩

theorem bind {first second : Eval α} {next next' : α → Eval β} (mirrors : Mirrors stack first second)
    (rest : ∀ value, Mirrors stack (next value) (next' value)) :
    Mirrors stack (first >>= next) (second >>= next') := by
  constructor
  · intro environment state
    rw [outcome_bind, outcome_bind, mirrors.same]
    rcases second.outcome environment state with ⟨result, between⟩
    cases result with
    | error failure => rfl
    | ok value => exact (rest value).same environment between
  · intro environment state
    have kept := mirrors.kept environment state
    rw [outcome_bind]
    rcases outcome : second.outcome environment state with ⟨result, between⟩
    rw [outcome] at kept
    cases result with
    | error failure => exact kept
    | ok value => exact ((rest value).kept environment between).trans kept

theorem get_bind {next next' : State → Eval β}
    (rest : ∀ state : State, Mirrors stack (next (state.under stack)) (next' state)) :
    Mirrors stack (MonadState.get >>= next) (MonadState.get >>= next') :=
  ⟨fun environment state => (rest state).same environment state,
    fun environment state => (rest state).kept environment state⟩

theorem modifyGet {change : State → α × State}
    (same : ∀ state : State, change (state.under stack) = ((change state).1, (change state).2.under stack))
    (kept : ∀ state, (change state).2.content = state.content) :
    Mirrors stack (MonadState.modifyGet change : Eval α) (MonadState.modifyGet change) := by
  refine ⟨fun environment state => ?_, fun environment state => kept state⟩
  exact congrArg (fun pair : α × State => ((.ok pair.1 : Except Failure α), pair.2)) (same state)

theorem modified {change : State → State} (same : ∀ state : State, change (state.under stack) = (change state).under stack)
    (kept : ∀ state, (change state).content = state.content) :
    Mirrors stack (modify change : Eval PUnit) (modify change) :=
  modifyGet (fun state => congrArg (PUnit.unit, ·) (same state)) kept

theorem during {enter : State → State} {restore : State → State → State} {first second : Eval α}
    (inside : Mirrors stack first second)
    (entered : ∀ state : State, enter (state.under stack) = (enter state).under stack)
    (restored : ∀ state inner : State, restore (state.under stack) (inner.under stack) = (restore state inner).under stack)
    (kept : ∀ state, (enter state).content = state.content)
    (left : ∀ state inner, (restore state inner).content = inner.content) :
    Mirrors stack (Evaluation.during enter restore first) (Evaluation.during enter restore second) := by
  constructor
  · intro environment state
    have same := inside.same environment (enter state)
    change ((first.outcome environment (enter (state.under stack))).1,
      restore (state.under stack) (first.outcome environment (enter (state.under stack))).2) = _
    rw [entered, same]
    exact congrArg (Prod.mk _) (restored _ _)
  · intro environment state
    exact (left _ _).trans ((inside.kept environment (enter state)).trans (kept state))

theorem report {event : LogEvent} : Mirrors stack (Evaluation.report event) (Evaluation.report event) :=
  modified (fun _ => rfl) fun _ => rfl

theorem fail {pos : Position} {error : EvalError} :
    Mirrors stack (Evaluation.fail pos error : Eval α) (Evaluation.fail pos error) := get_bind fun _ => throw

theorem push {container : Option Nat} {content : Css.Content} {pos : Position} :
    Mirrors stack (Evaluation.push container content pos) (Evaluation.push container content pos) :=
  ⟨fun _ _ => rfl, fun _ _ => rfl⟩

theorem pushItem {id : Nat} {item : Css.Item} :
    Mirrors stack (Evaluation.pushItem id item) (Evaluation.pushItem id item) := modified (fun _ => rfl) fun _ => rfl

theorem newScope {parent : Nat} {semiGlobal : Bool} :
    Mirrors stack (Evaluation.newScope parent semiGlobal) (Evaluation.newScope parent semiGlobal) :=
  modifyGet (fun _ => rfl) fun _ => rfl

theorem declare {scope : Nat} {name : String} {value : Value} :
    Mirrors stack (Evaluation.declare scope name value) (Evaluation.declare scope name value) :=
  modified (fun _ => rfl) fun _ => rfl

section Inside

variable {first second : Eval α} (inside : Mirrors stack first second)

include inside

theorem atPlace {place : Place} : Mirrors stack (Evaluation.atPlace place first) (Evaluation.atPlace place second) :=
  inside.during (fun _ => rfl) (fun _ _ => rfl) (fun _ => rfl) fun _ _ => rfl

theorem inScope {scope : Nat} : Mirrors stack (Evaluation.inScope scope first) (Evaluation.inScope scope second) :=
  inside.during (fun _ => rfl) (fun _ _ => rfl) (fun _ => rfl) fun _ _ => rfl

theorem inFile {file : String} : Mirrors stack (Evaluation.inFile file first) (Evaluation.inFile file second) :=
  inside.during (fun _ => rfl) (fun _ _ => rfl) (fun _ => rfl) fun _ _ => rfl

theorem inFunction : Mirrors stack (Evaluator.inFunction first) (Evaluator.inFunction second) :=
  inside.during (fun _ => rfl) (fun _ _ => rfl) (fun _ => rfl) fun _ _ => rfl

theorem inProperty {name : String} :
    Mirrors stack (Evaluator.inProperty name first) (Evaluator.inProperty name second) :=
  inside.during (fun _ => rfl) (fun _ _ => rfl) (fun _ => rfl) fun _ _ => rfl

end Inside

theorem congruence (stack : List (Option ContentBlock)) : ScopedCongruence fun {α} (first second : Eval α) =>
    Mirrors stack first second where
  pure := pure
  bind := bind
  read := read
  endless := throw
  fail := fail
  failHere := get_bind fun _ => read.bind fun _ => fail
  told mirrors := get_bind fun _ => report.bind fun _ => mirrors
  newScope := newScope
  declare := declare
  inScope inside := inside.inScope

end Mirrors

open Evaluator

/-! What looks at no block -/

namespace Mirrors

theorem resolved {text : String} {pos : Position} : Mirrors stack (resolved text pos) (resolved text pos) := by
  refine get_bind fun state => ?_
  dsimp only [State.under]
  split
  · exact pure
  · split
    · exact pure
    · exact fail

theorem declarationTarget {pos : Position} : Mirrors stack (declarationTarget pos) (declarationTarget pos) := by
  refine get_bind fun state => ?_
  dsimp only [State.under]
  split
  · exact pure
  · refine push.bind fun id => bind (modified ?_ ?_) fun _ => pure <;> exact fun _ => rfl
  · exact pure
  · exact fail

theorem declared {property : String} {value : Value} {important : Bool} {pos : Position} :
    Mirrors stack (declared property value important pos) (declared property value important pos) := by
  refine read.bind fun _ => (congruence stack).ofOperation.bind fun css => ?_
  split
  · exact declarationTarget.bind fun target => (get_bind fun _ => pure).bind fun span => pushItem
  · exact pure

theorem comment {text : Comment} {pos : Position} : Mirrors stack (comment text pos) (comment text pos) := by
  refine get_bind fun state => ?_
  dsimp only [State.under]
  split
  · split
    · exact pushItem
    · exact push.bind fun _ => pure
  · exact pure

theorem refuseInFunction {pos : Position} : Mirrors stack (refuseInFunction pos) (refuseInFunction pos) := by
  refine get_bind fun state => ?_
  dsimp only [State.under]
  split
  · exact fail
  · exact pure

theorem tell {kind : MessageKind} {text : String} {pos : Position} :
    Mirrors stack (tell kind text pos) (tell kind text pos) := by
  refine get_bind fun state => ?_
  cases kind with
  | warn | debug => exact report
  | error => exact fail

theorem writeImport {parameters : String} {pos : Position} :
    Mirrors stack (writeImport parameters pos) (writeImport parameters pos) :=
  get_bind fun _ => push.bind fun _ => pure

theorem failImport {pos : Position} {error : ImportError} :
    Mirrors stack (failImport pos error : Eval α) (failImport pos error) := get_bind fun _ => throw

theorem load {path source : String} {pos : Position} : Mirrors stack (load path source pos) (load path source pos) := by
  refine get_bind fun state => ?_
  dsimp only [State.under]
  split
  · exact failImport
  · refine report.bind fun _ => ?_
    split
    · exact pure
    · exact throw

theorem findSheet {reference : String} {pos : Position} :
    Mirrors stack (findSheet reference pos) (findSheet reference pos) := by
  unfold Evaluation.findSheet
  split
  · exact pure
  · refine read.bind fun _ => get_bind fun state => ?_
    dsimp only [State.under]
    split
    · exact failImport
    · refine report.bind fun _ => ?_
      split
      · exact load.bind fun _ => pure
      · exact failImport

theorem askHook {reference : String} {pos : Position} :
    Mirrors stack (askHook reference pos) (askHook reference pos) := by
  refine read.bind fun _ => ?_
  split
  · exact findSheet
  · refine get_bind fun state => ?_
    dsimp only [State.under]
    split
    · exact report.bind fun _ => load.bind fun _ => pure
    · exact failImport
    · exact report.bind fun _ => findSheet

theorem findImport {reference : String} {pos : Position} :
    Mirrors stack (findImport reference pos) (findImport reference pos) := by
  refine bind (modified ?_ ?_) fun _ => askHook <;> exact fun _ => rfl

section Actions

variable {first second : Eval Unit} (mirrors : Mirrors stack first second)

include mirrors

theorem effect : Mirrors stack (effect first) (effect second) := mirrors.bind fun _ => pure

theorem written {pos : Position} : Mirrors stack (written pos first) (written pos second) :=
  (refuseInFunction.bind fun _ => mirrors).effect

end Actions

/-- While a mixin runs, the block that was handed to it is on the stack. -/
theorem withContent {block : Option ContentBlock} {first second : Eval α}
    (inside : Mirrors (block :: stack) first second) : Mirrors stack (withContent block first) second := by
  refine ⟨fun environment state => ?_, inside.kept⟩
  have same := inside.same environment state
  change ((first.outcome environment (state.under (block :: stack))).1,
    { (first.outcome environment (state.under (block :: stack))).2 with
      content := (first.outcome environment (state.under (block :: stack))).2.content.tail }) = _
  rw [same]
  rfl

/-- While the block of the innermost mixin runs, it is not on the stack. -/
theorem withoutContent {block : Option ContentBlock} {first second : Eval α} (inside : Mirrors stack first second) :
    Mirrors (block :: stack)
      (Evaluation.during (State.under · stack) (fun _ after => { after with content := block :: after.content }) first) second := by
  refine ⟨fun environment state => ?_, inside.kept⟩
  have same := inside.same environment state
  change ((first.outcome environment (state.under stack)).1,
    { (first.outcome environment (state.under stack)).2 with
      content := block :: (first.outcome environment (state.under stack)).2.content }) = _
  rw [same]
  rfl

end Mirrors

/-- On a stack, the first evaluator does what the second one does on any. -/
structure Mirroring (stack : List (Option ContentBlock)) (first second : Evaluator) : Prop where
  eval : ∀ expr, Mirrors stack (first.eval expr) (second.eval expr)
  exec : ∀ statement, Mirrors stack (first.exec statement) (second.exec statement)
  budget : first.budget = second.budget

namespace Mirroring
open Mirrors

variable {first second : Evaluator} (mirroring : Mirroring stack first second)

include mirroring

theorem block (statements : List Statement) : Mirrors stack (first.block statements) (second.block statements) := by
  induction statements with
  | nil => exact pure
  | cons statement rest tail =>
    refine (mirroring.exec statement).bind fun value => ?_
    split
    · exact pure
    · exact tail

theorem run (statements : List Statement) : Mirrors stack (first.run statements) (second.run statements) :=
  (mirroring.block statements).bind fun _ => pure

theorem text (template : Template Expr) : Mirrors stack (first.text template) (second.text template) :=
  (congruence stack).text mirroring.eval template

/-! Calls -/

theorem callFunction (function : Closure) (arguments : Arguments Expr) (pos : Position) :
    Mirrors stack (first.callFunction function arguments pos) (second.callFunction function arguments pos) := by
  refine Mirrors.report.bind fun _ => ((congruence stack).bindArguments mirroring.eval _ _ _ arguments pos).bind fun scope => ?_
  refine ((mirroring.block _).inFunction.inFile.inScope).bind fun value => ?_
  split
  · exact (congruence stack).checkResult _ pos
  · exact Mirrors.fail

theorem callNameQuery {function : String} {query : State → String → Bool} (known : nameQuery? function = some query)
    (arguments : Arguments Expr) (pos : Position) :
    Mirrors stack (first.callNameQuery function query arguments pos)
      (second.callNameQuery function query arguments pos) := by
  -- No question for a name looks at the blocks.
  have same (state : State) (name : String) : query (state.under stack) name = query state name := by
    unfold nameQuery? at known
    split at known <;> cases known <;> rfl
  refine ((congruence stack).positional mirroring.eval arguments).bind fun values => ?_
  split
  · refine get_bind fun state => ?_
    rw [same]
    exact pure
  · exact Mirrors.fail

theorem call (name : String) (arguments : Arguments Expr) (pos : Position) :
    Mirrors stack (first.call name arguments pos) (second.call name arguments pos) := by
  refine get_bind fun state => ?_
  dsimp only [State.under]
  split
  · exact mirroring.callFunction _ arguments pos
  · split
    · exact (congruence stack).callIf mirroring.eval arguments pos
    · split
      · next known => exact mirroring.callNameQuery known arguments pos
      · exact (congruence stack).callBuiltin mirroring.eval _ arguments pos
      · exact (congruence stack).callPlain mirroring.eval name arguments

theorem evalStep (expr : Expr) : Mirrors stack (first.evalStep expr) (second.evalStep expr) := by
  match expr with
  | .literal _ => exact pure
  | .string text _ => exact (mirroring.text text).bind fun _ => pure
  | .variable name _ =>
    refine get_bind fun state => ?_
    dsimp only [State.under]
    split
    · exact pure
    · exact Mirrors.fail
  | .binary op left right pos => exact (congruence stack).binary mirroring.eval op left right pos
  | .unary _ operand _ => exact (mirroring.eval operand).bind fun _ => read.bind fun _ => pure
  | .list items _ _ => exact ((congruence stack).mapM mirroring.eval items).bind fun _ => pure
  | .map entries _ => exact ((congruence stack).entries mirroring.eval entries []).bind fun _ => pure
  | .call name arguments pos => exact mirroring.call name arguments pos
  | .paren inner => exact mirroring.eval inner

/-! Control directives -/

theorem innerBlock (body : List Statement) (bound : List (String × Value)) :
    Mirrors stack (first.innerBlock bound body) (second.innerBlock bound body) := by
  refine get_bind fun state => Mirrors.newScope.bind fun scope => ?_
  refine ((congruence stack).forIn (fun _ _ => Mirrors.declare.bind fun _ => pure) bound _).bind fun _ => ?_
  exact (mirroring.block body).inScope

theorem branch (otherwise : Option (List Statement)) (clauses : List (Expr × List Statement)) :
    Mirrors stack (first.branch otherwise clauses) (second.branch otherwise clauses) := by
  have last : Mirrors stack (first.branch otherwise []) (second.branch otherwise []) := by
    cases otherwise with
    | none => exact pure
    | some body => exact mirroring.innerBlock body []
  exact (congruence stack).branch mirroring.eval last
    (List.forall₂_same.2 fun clause _ => ⟨rfl, mirroring.innerBlock clause.2 []⟩)

/-! Output -/

theorem rule (selector : Template Expr) (body : List Statement) (pos : Position) :
    Mirrors stack (first.rule selector body pos) (second.rule selector body pos) := by
  refine (mirroring.text selector).bind fun text => resolved.bind fun selectors => get_bind fun state => ?_
  exact Mirrors.push.bind fun id => Mirrors.newScope.bind fun scope => (mirroring.run body).atPlace

theorem declaration (property : Template Expr) (value : Option Expr) (important : Bool) (nested : List Statement)
    (pos : Position) :
    Mirrors stack (first.declaration property value important nested pos)
      (second.declaration property value important nested pos) := by
  refine (mirroring.text property).bind fun text => get_bind fun state => ?_
  have inner {name : String} : Mirrors stack (if !nested.isEmpty then inProperty name (first.run nested) else Pure.pure ())
      (if !nested.isEmpty then inProperty name (second.run nested) else Pure.pure ()) := by
    split
    · exact (mirroring.run nested).inProperty
    · exact pure
  dsimp only [State.under]
  cases value with
  | some expr =>
    exact ((congruence stack).cssValue mirroring.eval expr).bind fun found => declared.bind fun _ => inner
  | none =>
    dsimp only
    split
    · exact Mirrors.declarationTarget.bind fun _ => inner
    · exact inner

theorem directive (name : String) (parameters : Template Expr) (body : Option (List Statement)) (pos : Position) :
    Mirrors stack (first.directive name parameters body pos) (second.directive name parameters body pos) := by
  unfold Evaluator.directive
  split
  · exact pure
  · refine (mirroring.text parameters).bind fun text => get_bind fun state => ?_
    cases body with
    | none => exact Mirrors.push.bind fun _ => pure
    | some body => exact Mirrors.push.bind fun id => Mirrors.newScope.bind fun scope => (mirroring.run body).atPlace

theorem media (query : Template Expr) (body : List Statement) (pos : Position) :
    Mirrors stack (first.media query body pos) (second.media query body pos) := by
  refine (mirroring.text query).bind fun text => get_bind fun state => ?_
  exact Mirrors.report.bind fun _ => Mirrors.push.bind fun id => Mirrors.newScope.bind fun scope => (mirroring.run body).atPlace

/-! Imports and messages -/

theorem runSheet (sheet : Sheet) : Mirrors stack (first.runSheet sheet) (second.runSheet sheet) := by
  refine Mirrors.report.bind fun _ => Mirrors.bind (modifyGet ?_ ?_) fun source => ?_
  · exact fun _ => rfl
  · exact fun _ => rfl
  · exact (mirroring.run sheet.statements).during (fun _ => rfl) (fun _ _ => rfl) (fun _ => rfl) fun _ _ => rfl

theorem importTarget (pos : Position) (target : ImportTarget) :
    Mirrors stack (first.importTarget pos target) (second.importTarget pos target) := by
  cases target with
  | css text => exact (mirroring.text text).bind fun _ => Mirrors.writeImport
  | sheet reference place =>
    refine Mirrors.findImport.bind fun found => ?_
    split
    · exact mirroring.runSheet _
    · exact Mirrors.writeImport

theorem imports (pos : Position) (targets : List ImportTarget) :
    Mirrors stack (first.imports pos targets) (second.imports pos targets) := by
  induction targets with
  | nil => exact pure
  | cons target rest tail => exact (mirroring.importTarget pos target).bind fun _ => tail

theorem message (kind : MessageKind) (value : Expr) (pos : Position) :
    Mirrors stack (first.message kind value pos) (second.message kind value pos) := by
  refine (mirroring.eval value).bind fun value => ?_
  split
  · exact pure.bind fun text => Mirrors.tell
  · exact read.bind fun _ => pure.bind fun text => Mirrors.tell

theorem result (value : Expr) (pos : Position) :
    Mirrors stack (first.result value pos) (second.result value pos) := by
  refine get_bind fun state => ?_
  dsimp only [State.under]
  split
  · exact Mirrors.fail.bind fun _ => (mirroring.eval value).bind fun _ => pure
  · exact (mirroring.eval value).bind fun _ => pure

end Mirroring

/-! What puts blocks on the stack and takes them off -/

section Statements

variable {first : Evaluator} {second : ContentContext → Evaluator}
  (mirroring : ∀ context, Mirroring context.blocks first (second context)) (context : ContentContext)

include mirroring

theorem Mirroring.inclusion (name : String) (arguments : Arguments Expr) (content : Option (List Statement))
    (pos : Position) : Mirrors context.blocks (first.inclusion name arguments content pos)
      (Lexical.inclusion second context name arguments content pos) := by
  refine Mirrors.get_bind fun state => ?_
  dsimp only [State.under]
  cases state.scopes.mixin? state.place.scope name with
  | none => exact Mirrors.fail
  | some mixin =>
    refine Mirrors.report.bind fun _ => ?_
    refine ((Mirrors.congruence _).bindArguments (mirroring context).eval _ _ _ arguments pos).bind fun scope => ?_
    exact Mirrors.withContent ((mirroring (.inclusion _ context)).run _).inFile.inScope

theorem Mirroring.content : Mirrors context.blocks first.content (Lexical.content second context) := by
  match context with
  | .outside | .inclusion none _ => exact Mirrors.get_bind fun _ => Mirrors.pure
  | .inclusion (some block) captured =>
    -- Below the block, the stack is that of the context which was captured.
    have inside : Mirrors captured.blocks _ (Lexical.content second (.inclusion (some block) captured)) :=
      Mirrors.newScope.bind fun scope => ((mirroring captured).run block.body).inFile.inScope
    exact ⟨fun environment state => inside.withoutContent.same environment state, inside.kept⟩

theorem Mirroring.runStatement (statement : Statement) :
    Mirrors context.blocks (first.runStatement statement) (Lexical.runStatement second context statement) := by
  have here := mirroring context
  cases statement with
  | rule pos selector body => exact (here.rule selector body pos).written
  | declaration pos property value important nested =>
    exact (here.declaration property value important nested pos).written
  | directive pos name parameters body => exact (here.directive name parameters body pos).written
  | media pos query body => exact (here.media query body pos).written
  | assignment _ name value isDefault isGlobal =>
    refine ((here.eval value).bind fun _ => Mirrors.modified ?_ ?_).effect <;> exact fun _ => rfl
  | mixin | function => refine Mirrors.effect (Mirrors.modified ?_ ?_) <;> exact fun _ => rfl
  | inclusion pos name arguments content =>
    exact (Mirroring.inclusion mirroring context name arguments content pos).written
  | content => exact (Mirroring.content mirroring context).effect
  | result pos value => exact here.result value pos
  | branch _ clauses otherwise => exact here.branch otherwise clauses
  | forEach _ names items body =>
    exact (here.eval items).bind fun _ => (Mirrors.congruence _).forEach (here.innerBlock body) names _
  | forRange _ name low high inclusive body =>
    exact (Mirrors.congruence _).forRange (here.innerBlock body) here.eval name low high inclusive
  | whileTrue _ condition body =>
    change Mirrors _ (first.whileTrue condition body first.budget) _
    rw [here.budget]
    exact (Mirrors.congruence _).whileTrue (here.innerBlock body) here.eval condition _
  | imports pos targets => exact (here.imports pos targets).effect
  | message pos kind value => exact (here.message kind value pos).effect
  | unsupported pos name => exact Mirrors.fail
  | comment pos text => exact Mirrors.comment.effect

theorem Mirroring.execStep (statement : Statement) :
    Mirrors context.blocks (first.execStep statement) (Lexical.execStep second context statement) :=
  (Mirroring.runStatement mirroring context statement).during (fun _ => rfl) (fun _ _ => rfl) (fun _ => rfl)
    fun _ _ => rfl

end Statements

/-- At every depth, the stack of the evaluator holds the blocks of the context that is in force, through all statements
that run there. The induction is over all contexts at once, since a block runs in another context than the one it is
run from. -/
theorem evaluator_mirrors (depth : Nat) (context : ContentContext) :
    Mirroring context.blocks (evaluator depth) (Lexical.evaluator depth context) := by
  induction depth generalizing context with
  | zero => exact ⟨fun _ => Mirrors.throw, fun _ => Mirrors.throw, rfl⟩
  | succ depth below => exact ⟨(below context).evalStep, Mirroring.execStep below context, rfl⟩

/-- Blocks belong to the place where they are written: with a context for each use of a mixin, every stylesheet gives
the same tree, the same scopes and the same failure as with a stack, and the whole state is the same. -/
theorem content_lexical (environment : Environment) (sheet : Sheet) :
    evaluate environment sheet = Lexical.evaluate environment sheet := by
  have mirrors := (evaluator_mirrors depthLimit .outside).run sheet.statements
  have same := mirrors.same environment (State.start sheet)
  have kept := mirrors.kept environment (State.start sheet)
  refine same.trans (Prod.ext rfl ?_)
  exact congrArg (State.under _) kept.symm

end Stylesheet.Evaluation
