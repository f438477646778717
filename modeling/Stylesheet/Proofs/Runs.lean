import Stylesheet.Evaluation

/-! Actions of the evaluation, seen from outside: what an action gives and the state that it leaves,
for each way in which actions are put together. -/

namespace Stylesheet.Evaluation

variable {α β : Type} {environment : Environment} {before after : State}

/-- The result of an action and the state that it leaves. -/
def Eval.outcome (action : Eval α) (environment : Environment) (before : State) : Except Failure α × State :=
  action environment before

theorem outcome_bind (action : Eval α) (next : α → Eval β) (environment : Environment) (before : State) :
    (action >>= next).outcome environment before =
      match action.outcome environment before with
      | (.ok value, after) => (next value).outcome environment after
      | (.error failure, after) => (.error failure, after) := by
  change (ExceptT.bindCont (fun value => next value environment) (action.outcome environment before).1)
    (action.outcome environment before).2 = _
  rcases action.outcome environment before with ⟨result, after⟩
  cases result <;> rfl

theorem outcome_get_bind (next : State → Eval β) (environment : Environment) (before : State) :
    (MonadState.get >>= next).outcome environment before = (next before).outcome environment before := rfl

theorem outcome_read_bind (next : Environment → Eval β) (environment : Environment) (before : State) :
    (MonadReader.read >>= next).outcome environment before = (next environment).outcome environment before := rfl

/-- An action goes well: from one state it gives a value and leaves another state. -/
def Yields (action : Eval α) (environment : Environment) (before : State) (value : α) (after : State) : Prop :=
  action.outcome environment before = (.ok value, after)

theorem Yields.unique {action : Eval α} {first second : α} {first' second' : State}
    (yields : Yields action environment before first first') (again : Yields action environment before second second') :
    second = first ∧ second' = first' := by
  have same := again.symm.trans yields
  cases same
  exact ⟨rfl, rfl⟩

/-- What goes on where an action went well. -/
theorem Yields.bind {action : Eval α} {next : α → Eval β} {value : α} {between : State}
    (yields : Yields action environment before value between) :
    (action >>= next).outcome environment before = (next value).outcome environment between := by
  rw [outcome_bind, yields]

@[simp] theorem yields_pure {value result : α} :
    Yields (pure value) environment before result after ↔ result = value ∧ after = before := by
  change ((Except.ok value, before) : Except Failure α × State) = _ ↔ _
  simp only [Prod.mk.injEq, Except.ok.injEq]
  exact ⟨fun same => ⟨same.1.symm, same.2.symm⟩, fun same => ⟨same.1.symm, same.2.symm⟩⟩

@[simp] theorem yields_bind {action : Eval α} {next : α → Eval β} {result : β} :
    Yields (action >>= next) environment before result after ↔
      ∃ value between, Yields action environment before value between ∧
        Yields (next value) environment between result after := by
  unfold Yields
  rw [outcome_bind]
  rcases action.outcome environment before with ⟨first, between⟩
  cases first with
  | error failure => simp
  | ok value =>
    constructor
    · exact fun rest => ⟨value, between, rfl, rest⟩
    · rintro ⟨_, _, same, rest⟩
      cases same
      exact rest

@[simp] theorem yields_map {action : Eval α} {f : α → β} {result : β} :
    Yields (f <$> action) environment before result after ↔
      ∃ value, Yields action environment before value after ∧ result = f value := by
  rw [← bind_pure_comp, yields_bind]
  constructor
  · rintro ⟨value, between, first, last⟩
    obtain ⟨rfl, rfl⟩ := yields_pure.1 last
    exact ⟨value, first, rfl⟩
  · rintro ⟨value, first, rfl⟩
    exact ⟨value, after, first, yields_pure.2 ⟨rfl, rfl⟩⟩

@[simp] theorem yields_get {state : State} :
    Yields get environment before state after ↔ state = before ∧ after = before := by
  change ((Except.ok before, before) : Except Failure State × State) = _ ↔ _
  simp only [Prod.mk.injEq, Except.ok.injEq]
  exact ⟨fun same => ⟨same.1.symm, same.2.symm⟩, fun same => ⟨same.1.symm, same.2.symm⟩⟩

@[simp] theorem yields_read {found : Environment} :
    Yields read environment before found after ↔ found = environment ∧ after = before := by
  change ((Except.ok environment, before) : Except Failure Environment × State) = _ ↔ _
  simp only [Prod.mk.injEq, Except.ok.injEq]
  exact ⟨fun same => ⟨same.1.symm, same.2.symm⟩, fun same => ⟨same.1.symm, same.2.symm⟩⟩

@[simp] theorem yields_modify {change : State → State} {none : PUnit} :
    Yields (modify change) environment before none after ↔ after = change before := by
  change ((Except.ok PUnit.unit, change before) : Except Failure PUnit × State) = _ ↔ _
  simp only [Prod.mk.injEq, true_and]
  exact eq_comm

@[simp] theorem yields_modifyGet {change : State → α × State} {value : α} :
    Yields (modifyGet change) environment before value after ↔ change before = (value, after) := by
  change ((Except.ok (change before).1, (change before).2) : Except Failure α × State) = _ ↔ _
  simp only [Except.ok.injEq, Prod.ext_iff]

@[simp] theorem yields_throw {failure : Failure} {value : α} :
    ¬ Yields (throw failure) environment before value after := by
  change ¬ ((Except.error failure, before) : Except Failure α × State) = _
  simp

@[simp] theorem yields_fail {pos : Position} {error : EvalError} {value : α} :
    ¬ Yields (fail pos error) environment before value after := by
  simp [fail]

@[simp] theorem yields_ofOperation {pos : Position} {operation : Except OperationError α} {value : α} :
    Yields (ofOperation pos operation) environment before value after ↔ operation = .ok value ∧ after = before := by
  unfold ofOperation
  cases operation <;> simp [eq_comm]

@[simp] theorem yields_during {enter : State → State} {restore : State → State → State} {action : Eval α} {value : α} :
    Yields (during enter restore action) environment before value after ↔
      ∃ inner, Yields action environment (enter before) value inner ∧ after = restore before inner := by
  change ((action.outcome environment (enter before)).1, restore before (action.outcome environment (enter before)).2)
    = _ ↔ ∃ inner, action.outcome environment (enter before) = (.ok value, inner) ∧ _
  rcases action.outcome environment (enter before) with ⟨result, inner⟩
  simp only [Prod.mk.injEq]
  constructor
  · rintro ⟨same, rfl⟩
    exact ⟨inner, ⟨same, rfl⟩, rfl⟩
  · rintro ⟨_, ⟨same, rfl⟩, rfl⟩
    exact ⟨same, rfl⟩

@[simp] theorem yields_report {event : LogEvent} {none : Unit} :
    Yields (report event) environment before none after ↔ after = { before with log := event :: before.log } :=
  yields_modify

@[simp] theorem yields_span {pos : Position} {span : Css.Span} :
    Yields (Evaluation.span pos) environment before span after ↔ span = ⟨before.source, pos⟩ ∧ after = before := by
  simp only [Evaluation.span, yields_bind, yields_get, yields_pure]
  constructor
  · rintro ⟨_, _, ⟨rfl, rfl⟩, rfl, rfl⟩
    exact ⟨rfl, rfl⟩
  · rintro ⟨rfl, rfl⟩
    exact ⟨_, _, ⟨rfl, rfl⟩, rfl, rfl⟩

/-- The tree after a node was added at the current depth. -/
def State.pushed (state : State) (container : Option Nat) (content : Css.Content) (pos : Position) : Css.Tree :=
  (state.tree.push container content state.place.depth ⟨state.source, pos⟩).2

@[simp] theorem yields_push {container : Option Nat} {content : Css.Content} {pos : Position} {id : Nat} :
    Yields (push container content pos) environment before id after ↔
      id = before.tree.entries.size ∧ after = { before with tree := before.pushed container content pos } := by
  simp only [push, yields_bind, yields_span, yields_modifyGet, Prod.mk.injEq]
  constructor
  · rintro ⟨_, _, ⟨rfl, rfl⟩, rfl, rfl⟩
    exact ⟨rfl, rfl⟩
  · rintro ⟨rfl, rfl⟩
    exact ⟨_, _, ⟨rfl, rfl⟩, rfl, rfl⟩

@[simp] theorem yields_pushItem {id : Nat} {item : Css.Item} {none : Unit} :
    Yields (pushItem id item) environment before none after ↔
      after = { before with tree := before.tree.pushItem id item } :=
  yields_modify

@[simp] theorem yields_newScope {parent : Nat} {semiGlobal : Bool} {id : Nat} :
    Yields (newScope parent semiGlobal) environment before id after ↔
      id = before.scopes.size ∧ after = { before with scopes := (before.scopes.child parent semiGlobal).2 } := by
  simp only [newScope, yields_modifyGet, Scopes.child, Prod.mk.injEq]
  exact and_congr eq_comm eq_comm

namespace Evaluator

variable {self : Evaluator}

theorem yields_block_cons {statement : Statement} {rest : List Statement} {value : Option Value} :
    Yields (self.block (statement :: rest)) environment before value after ↔
      ∃ first between, Yields (self.exec statement) environment before first between ∧
        match first with
        | some result => value = some result ∧ after = between
        | none => Yields (self.block rest) environment between value after := by
  rw [block, yields_bind]
  refine exists_congr fun first => exists_congr fun between => and_congr_right fun _ => ?_
  cases first with
  | none => exact Iff.rfl
  | some result => exact yields_pure

@[simp] theorem yields_run {statements : List Statement} {none : Unit} :
    Yields (self.run statements) environment before none after ↔
      ∃ value, Yields (self.block statements) environment before value after := by
  simp only [run, yields_bind, yields_pure]
  constructor
  · rintro ⟨value, _, ran, -, rfl⟩
    exact ⟨value, ran⟩
  · rintro ⟨value, ran⟩
    exact ⟨value, after, ran, trivial, rfl⟩

@[simp] theorem yields_effect {action : Eval Unit} {value : Option Value} :
    Yields (effect action) environment before value after ↔
      Yields action environment before () after ∧ value = none := by
  simp only [effect, yields_bind, yields_pure]
  constructor
  · rintro ⟨_, _, ran, rfl, rfl⟩
    exact ⟨ran, rfl⟩
  · rintro ⟨ran, rfl⟩
    exact ⟨_, _, ran, rfl, rfl⟩

@[simp] theorem yields_refuseInFunction {pos : Position} {none : Unit} :
    Yields (refuseInFunction pos) environment before none after ↔ before.functionDepth = 0 ∧ after = before := by
  simp only [refuseInFunction, yields_bind, yields_get]
  constructor
  · rintro ⟨_, _, ⟨rfl, rfl⟩, passed⟩
    split at passed
    · exact absurd passed yields_fail
    · next outside => exact ⟨Nat.eq_zero_of_not_pos outside, (yields_pure.1 passed).2⟩
  · rintro ⟨outside, rfl⟩
    refine ⟨_, _, ⟨rfl, rfl⟩, ?_⟩
    rw [if_neg (by omega)]
    exact yields_pure.2 ⟨rfl, rfl⟩

@[simp] theorem yields_written {pos : Position} {action : Eval Unit} {value : Option Value} :
    Yields (written pos action) environment before value after ↔
      before.functionDepth = 0 ∧ Yields action environment before () after ∧ value = none := by
  simp only [written, yields_effect, yields_bind, yields_refuseInFunction]
  constructor
  · rintro ⟨⟨_, _, ⟨outside, rfl⟩, ran⟩, rfl⟩
    exact ⟨outside, ran, rfl⟩
  · rintro ⟨outside, ran, rfl⟩
    exact ⟨⟨(), _, ⟨outside, rfl⟩, ran⟩, rfl⟩

@[simp] theorem yields_keywords_nil {named : List (String × Value)} :
    Yields (self.keywords []) environment before named after ↔ named = [] ∧ after = before := yields_pure

theorem yields_keywords_cons {argument : String × Expr} {rest : List (String × Expr)} {named : List (String × Value)} :
    Yields (self.keywords (argument :: rest)) environment before named after ↔
      ∃ value between others, Yields (self.eval argument.2) environment before value between ∧
        Yields (self.keywords rest) environment between others after ∧
        named = (normalizeName argument.1, value) :: others := by
  simp only [keywords, List.mapM_cons, yields_bind, yields_pure]
  constructor
  · rintro ⟨_, _, ⟨value, _, first, rfl, rfl⟩, others, _, further, rfl, rfl⟩
    exact ⟨value, _, others, first, further, rfl⟩
  · rintro ⟨value, between, others, first, further, rfl⟩
    exact ⟨_, _, ⟨value, between, first, rfl, rfl⟩, others, _, further, rfl, rfl⟩

/-- What takes a declaration: the current rule, one that is made for the current selectors, or the current block. -/
inductive TargetFound (pos : Position) (before : State) : (id : Nat) → (after : State) → Prop
  | rule {id : Nat} (current : before.place.rule = some id) : TargetFound pos before id before
  | made {selectors : Selectors} (missing : before.place.rule = none)
    (known : before.place.selectors = some selectors) :
    TargetFound pos before before.tree.entries.size { before with
      tree := before.pushed before.place.container (.rule selectors) pos
      place.rule := some before.tree.entries.size }
  | block {id : Nat} (missing : before.place.rule = none) (unknown : before.place.selectors = none)
    (held : before.place.container = some id) : TargetFound pos before id before

theorem targetFound {pos : Position} {id : Nat} (yields : Yields (declarationTarget pos) environment before id after) :
    TargetFound pos before id after := by
  simp only [declarationTarget, yields_bind, yields_get, and_assoc, exists_and_left, exists_eq_left] at yields
  split at yields
  · next current =>
    obtain ⟨rfl, rfl⟩ := yields_pure.1 yields
    exact .rule current
  · next missing known =>
    simp only [yields_bind, yields_push, yields_modify, yields_pure, and_assoc, exists_and_left, exists_eq_left,
      exists_const] at yields
    obtain ⟨rfl, rfl⟩ := yields
    exact .made missing known
  · next missing unknown held =>
    obtain ⟨rfl, rfl⟩ := yields_pure.1 yields
    exact .block missing unknown held
  · exact absurd yields yields_fail

end Evaluator

end Stylesheet.Evaluation
