import Stylesheet.Proofs.Congruence

/-! Relations between the state before an action and the state after it. Most of the evaluator only passes values on, so
whatever relation its expressions and its statements keep to, they keep to it together. -/

namespace Stylesheet.Evaluation

variable {α β : Type} {environment : Environment} {R : State → State → Prop}

/-- In an environment, an action leaves a state that is related to the one before it. -/
def AlongIn (environment : Environment) (R : State → State → Prop) (action : Eval α) : Prop :=
  ∀ before, R before (action.outcome environment before).2

/-- An action leaves a state that is related to the one before it, whatever the environment is. -/
def Along (R : State → State → Prop) (action : Eval α) : Prop := ∀ environment, AlongIn environment R action

theorem Along.mono {R' : State → State → Prop} {action : Eval α} (along : Along R action)
    (implies : ∀ {before after}, R before after → R' before after) : Along R' action :=
  fun environment before => implies (along environment before)

theorem AlongIn.modify {change : State → State} (changed : ∀ state, R state (change state)) :
    AlongIn environment R (modify change : Eval PUnit) := changed

theorem AlongIn.modifyGet {change : State → α × State} (changed : ∀ state, R state (change state).2) :
    AlongIn environment R (modifyGet change : Eval α) := changed

theorem AlongIn.during {R' : State → State → Prop} {enter : State → State} {restore : State → State → State}
    {action : Eval α} (inside : AlongIn environment R' action)
    (undone : ∀ state inner, R' (enter state) inner → R state (restore state inner)) :
    AlongIn environment R (Evaluation.during enter restore action) := fun before =>
  undone before _ (inside (enter before))

/-- What is done with the current state begins in that state. -/
theorem AlongIn.get_bind {next : State → Eval α}
    (rest : ∀ before, R before ((next before).outcome environment before).2) :
    AlongIn environment R (MonadState.get >>= next) := fun before => by
  rw [outcome_get_bind]
  exact rest before

/-- A relation that may hold over several actions, and that reports keep to. -/
structure Flows (R : State → State → Prop) : Prop where
  refl : ∀ state, R state state
  trans : ∀ {first second third}, R first second → R second third → R first third
  report : ∀ state event, R state { state with log := event :: state.log }

namespace Flows

variable (flows : Flows R)

include flows

theorem pure {value : α} : AlongIn environment R (pure value : Eval α) := flows.refl

theorem throw {failure : Failure} : AlongIn environment R (throw failure : Eval α) := flows.refl

theorem get : AlongIn environment R (get : Eval State) := flows.refl

theorem read : AlongIn environment R (read : Eval Environment) := flows.refl

theorem bind {action : Eval α} {next : α → Eval β} (first : AlongIn environment R action)
    (rest : ∀ value, AlongIn environment R (next value)) : AlongIn environment R (action >>= next) := by
  intro before
  have step := first before
  rw [outcome_bind]
  rcases outcome : action.outcome environment before with ⟨result, between⟩
  rw [outcome] at step
  cases result with
  | error failure => exact step
  | ok value => exact flows.trans step (rest value between)

theorem fail {pos : Position} {error : EvalError} : AlongIn environment R (fail pos error : Eval α) :=
  flows.bind flows.get fun _ => flows.throw

theorem reported {event : LogEvent} : AlongIn environment R (Evaluation.report event) :=
  AlongIn.modify fun state => flows.report state event

theorem span {pos : Position} : AlongIn environment R (Evaluation.span pos) := flows.bind flows.get fun _ => flows.pure

/-- What is built from actions that keep to the relation keeps to it. -/
theorem congruence : Congruence fun {α} (first second : Eval α) => first = second ∧ AlongIn environment R first where
  pure := ⟨rfl, flows.pure⟩
  bind first rest := ⟨by rw [first.1, funext fun value => (rest value).1], flows.bind first.2 fun value => (rest value).2⟩
  read := ⟨rfl, flows.read⟩
  endless := ⟨rfl, flows.throw⟩
  fail := ⟨rfl, flows.fail⟩
  failHere := ⟨rfl, flows.bind flows.get fun _ => flows.bind flows.read fun _ => flows.fail⟩
  told first := ⟨by rw [first.1], flows.bind flows.get fun _ => flows.bind flows.reported fun _ => first.2⟩

theorem ofOperation {pos : Position} {result : Except OperationError α} :
    AlongIn environment R (ofOperation pos result) := flows.congruence.ofOperation.2

theorem mapM {f : α → Eval β} (each : ∀ value, AlongIn environment R (f value)) (values : List α) :
    AlongIn environment R (values.mapM f) :=
  (flows.congruence.mapM (fun value => ⟨rfl, each value⟩) values).2

theorem forIn {f : α → β → Eval (ForInStep β)} (each : ∀ value state, AlongIn environment R (f value state))
    (values : List α) (start : β) : AlongIn environment R (ForIn.forIn values start f) :=
  (flows.congruence.forIn (fun value state => ⟨rfl, each value state⟩) values start).2

end Flows

/-! Imports are looked up with nothing but reports. -/

section Search

variable (flows : Flows R)

include flows

theorem failImport_along {pos : Position} {error : ImportError} :
    AlongIn environment R (failImport pos error : Eval α) :=
  flows.bind flows.get fun _ => flows.throw

theorem load_along (path source : String) (pos : Position) : AlongIn environment R (load path source pos) := by
  refine flows.bind flows.get fun state => ?_
  dsimp only
  split
  · exact failImport_along flows
  · refine flows.bind flows.reported fun _ => ?_
    split
    · exact flows.pure
    · exact flows.throw

theorem findSheet_along (reference : String) (pos : Position) : AlongIn environment R (findSheet reference pos) := by
  unfold findSheet
  split
  · exact flows.pure
  · refine flows.bind flows.read fun _ => flows.bind flows.get fun state => ?_
    split
    · exact failImport_along flows
    · refine flows.bind flows.reported fun _ => ?_
      split
      · exact flows.bind (load_along flows _ _ pos) fun _ => flows.pure
      · exact failImport_along flows

theorem askHook_along (reference : String) (pos : Position) : AlongIn environment R (askHook reference pos) := by
  refine flows.bind flows.read fun _ => ?_
  split
  · exact findSheet_along flows reference pos
  · refine flows.bind flows.get fun state => ?_
    split
    · exact flows.bind flows.reported fun _ => flows.bind (load_along flows _ _ pos) fun _ => flows.pure
    · exact failImport_along flows
    · exact flows.bind flows.reported fun _ => findSheet_along flows reference pos

end Search

namespace Evaluator

section Sequences

variable {self : Evaluator} (flows : Flows R) {statements : List Statement}
  (exec : ∀ statement ∈ statements, AlongIn environment R (self.exec statement))

include flows exec

theorem block_along : AlongIn environment R (self.block statements) := by
  induction statements with
  | nil => exact flows.pure
  | cons statement rest tail =>
    obtain ⟨here, later⟩ := List.forall_mem_cons.1 exec
    refine flows.bind here fun value => ?_
    split
    · exact flows.pure
    · exact tail later

theorem run_along : AlongIn environment R (self.run statements) :=
  flows.bind (block_along flows exec) fun _ => flows.pure

end Sequences

/-! What is evaluated with expressions alone -/

variable {self : Evaluator} (flows : Flows R) (eval : ∀ expr, AlongIn environment R (self.eval expr))

include flows eval

theorem positional_along (arguments : Arguments Expr) : AlongIn environment R (self.positional arguments) :=
  (flows.congruence.positional (fun expr => ⟨rfl, eval expr⟩) arguments).2

theorem allArguments_along (arguments : Arguments Expr) : AlongIn environment R (self.allArguments arguments) :=
  (flows.congruence.allArguments (fun expr => ⟨rfl, eval expr⟩) arguments).2

omit eval in
theorem checkResult_along (value : Value) (pos : Position) : AlongIn environment R (checkResult value pos) :=
  (flows.congruence.checkResult value pos).2

theorem callIf_along (arguments : Arguments Expr) (pos : Position) :
    AlongIn environment R (self.callIf arguments pos) :=
  (flows.congruence.callIf (fun expr => ⟨rfl, eval expr⟩) arguments pos).2

theorem callNameQuery_along (function : String) (query : State → String → Bool) (arguments : Arguments Expr)
    (pos : Position) : AlongIn environment R (self.callNameQuery function query arguments pos) := by
  refine flows.bind (positional_along flows eval arguments) fun values => ?_
  split
  · exact flows.bind flows.get fun _ => flows.pure
  · exact flows.fail

theorem callBuiltin_along (builtin : Builtin) (arguments : Arguments Expr) (pos : Position) :
    AlongIn environment R (self.callBuiltin builtin arguments pos) :=
  (flows.congruence.callBuiltin (fun expr => ⟨rfl, eval expr⟩) builtin arguments pos).2

theorem callPlain_along (name : String) (arguments : Arguments Expr) :
    AlongIn environment R (self.callPlain name arguments) :=
  (flows.congruence.callPlain (fun expr => ⟨rfl, eval expr⟩) name arguments).2

theorem text_along (template : Template Expr) : AlongIn environment R (self.text template) :=
  (flows.congruence.text (fun expr => ⟨rfl, eval expr⟩) template).2

theorem entries_along (pairs : List (Expr × Expr)) (map : List (Value × Value)) :
    AlongIn environment R (self.entries pairs map) :=
  (flows.congruence.entries (fun expr => ⟨rfl, eval expr⟩) pairs map).2

theorem binary_along (op : BinaryOp) (left right : Expr) (pos : Position) :
    AlongIn environment R (self.binary op left right pos) :=
  (flows.congruence.binary (fun expr => ⟨rfl, eval expr⟩) op left right pos).2

theorem cssValue_along (expr : Expr) : AlongIn environment R (self.cssValue expr) :=
  (flows.congruence.cssValue (fun expr => ⟨rfl, eval expr⟩) expr).2

theorem integer_along (expr : Expr) : AlongIn environment R (self.integer expr) :=
  (flows.congruence.integer (fun expr => ⟨rfl, eval expr⟩) expr).2

/-- Only calls run what is written elsewhere. -/
theorem evalStep_along (call : ∀ name arguments pos, AlongIn environment R (self.call name arguments pos)) (expr : Expr) :
    AlongIn environment R (self.evalStep expr) := by
  match expr with
  | .literal _ => exact flows.pure
  | .string text quoted => exact flows.bind (text_along flows eval text) fun _ => flows.pure
  | .variable name pos =>
    refine flows.bind flows.get fun state => ?_
    split
    · exact flows.pure
    · exact flows.fail
  | .binary op left right pos => exact binary_along flows eval op left right pos
  | .unary op operand pos => exact flows.bind (eval operand) fun _ => flows.bind flows.read fun _ => flows.pure
  | .list items separator bracketed => exact flows.bind (flows.mapM eval items) fun _ => flows.pure
  | .map entries pos => exact flows.bind (entries_along flows eval entries []) fun _ => flows.pure
  | .call name arguments pos => exact call name arguments pos
  | .paren inner => exact eval inner

omit eval in
theorem resolved_along (text : String) (pos : Position) : AlongIn environment R (resolved text pos) := by
  refine flows.bind flows.get fun state => ?_
  dsimp only
  split
  · exact flows.pure
  · split
    · exact flows.pure
    · exact flows.fail

omit eval in
theorem tell_along (kind : MessageKind) (text : String) (pos : Position) :
    AlongIn environment R (tell kind text pos) := by
  refine flows.bind flows.get fun state => ?_
  cases kind with
  | warn => exact flows.reported
  | debug => exact flows.reported
  | error => exact flows.fail

theorem message_along (kind : MessageKind) (value : Expr) (pos : Position) :
    AlongIn environment R (self.message kind value pos) := by
  refine flows.bind (eval value) fun value => ?_
  split
  · exact flows.bind flows.pure fun text => tell_along flows kind text pos
  · exact flows.bind flows.read fun _ => flows.bind flows.pure fun text => tell_along flows kind text pos

theorem result_along (value : Expr) (pos : Position) : AlongIn environment R (self.result value pos) := by
  refine flows.bind flows.get fun state => ?_
  split
  · exact flows.bind flows.fail fun _ => flows.bind (eval value) fun _ => flows.pure
  · exact flows.bind (eval value) fun _ => flows.pure

omit eval in
theorem effect_along {action : Eval Unit} (inside : AlongIn environment R action) :
    AlongIn environment R (effect action) :=
  flows.bind inside fun _ => flows.pure

omit eval in
theorem refuseInFunction_along (pos : Position) : AlongIn environment R (refuseInFunction pos) := by
  refine flows.bind flows.get fun state => ?_
  split
  · exact flows.fail
  · exact flows.pure

/-! Control directives whose bodies keep to the relation -/

section Control

variable {body : List Statement} (inner : ∀ bound, AlongIn environment R (self.innerBlock bound body))

include inner

omit eval in
theorem forEach_along (names : List String) (items : List Value) :
    AlongIn environment R (self.forEach names body items) :=
  (flows.congruence.forEach (fun bound => ⟨rfl, inner bound⟩) names items).2

theorem forRange_along (name : String) (low high : Expr) (inclusive : Bool) :
    AlongIn environment R (self.forRange name low high inclusive body) :=
  (flows.congruence.forRange (fun bound => ⟨rfl, inner bound⟩) (fun expr => ⟨rfl, eval expr⟩) name low high inclusive).2

theorem whileTrue_along (condition : Expr) (rounds : Nat) :
    AlongIn environment R (self.whileTrue condition body rounds) :=
  (flows.congruence.whileTrue (fun bound => ⟨rfl, inner bound⟩) (fun expr => ⟨rfl, eval expr⟩) condition rounds).2

omit inner in
theorem branch_along (otherwise : Option (List Statement)) (clauses : List (Expr × List Statement))
    (inner : ∀ body ∈ clauses.map (·.2) ++ otherwise.toList, AlongIn environment R (self.innerBlock [] body)) :
    AlongIn environment R (self.branch otherwise clauses) := by
  have last : AlongIn environment R (self.branch otherwise []) := by
    cases otherwise with
    | none => exact flows.pure
    | some body => exact inner body (by simp)
  have bodies : ∀ clause ∈ clauses, AlongIn environment R (self.innerBlock [] clause.2) := fun clause member =>
    inner clause.2 (List.mem_append_left _ (List.mem_map_of_mem member))
  exact (flows.congruence.branch (fun expr => ⟨rfl, eval expr⟩) ⟨rfl, last⟩
    (List.forall₂_same.2 fun clause member => ⟨rfl, rfl, bodies clause member⟩)).2

end Control

end Evaluator

end Stylesheet.Evaluation
