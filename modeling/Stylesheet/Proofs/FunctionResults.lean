import Stylesheet.Proofs.Preservation

/-! Statements end with a value only inside a function, where the value is what the function returns. Everywhere else
all statements of a block are run, unless one fails. -/

namespace Stylesheet.Evaluation

variable {α : Type}

/-- As many functions are running behind an action as before it. -/
def SameDepth (before after : State) : Prop := after.functionDepth = before.functionDepth

theorem steady_sameDepth : Steady SameDepth where
  refl _ := rfl
  trans first second := second.trans first
  report _ _ := rfl
  push _ _ _ _ := rfl
  pushItem _ _ _ := rfl
  ruleMade _ _ _ _ _ := rfl
  newScope _ _ _ := rfl
  declare _ _ _ _ := rfl
  assign _ _ _ _ _ := rfl
  defineMixin _ _ := rfl
  defineFunction _ _ := rfl
  lookup _ _ _ := rfl
  importing _ _ _ := rfl
  atPlace inside := inside
  inScope inside := inside
  inFile inside := inside
  inSheet inside := inside
  inFunction _ := rfl
  inProperty inside := inside
  atStatement inside := inside
  withContent inside := inside
  content _ inside := inside

/-- Outside of functions an action goes well without a value, if it goes well at all. -/
def Valueless (action : Eval (Option Value)) : Prop :=
  ∀ environment before value after, before.functionDepth = 0 → Yields action environment before value after →
    value = none

namespace Valueless

theorem pure : Valueless (pure none) := fun _ _ _ _ _ yields => (yields_pure.1 yields).1

theorem bind {action : Eval α} {next : α → Eval (Option Value)} (along : Along SameDepth action)
    (rest : ∀ value, Valueless (next value)) : Valueless (action >>= next) := by
  intro environment before value after outside yields
  obtain ⟨first, between, yielded, later⟩ := yields_bind.1 yields
  have same := along environment before
  rw [yielded] at same
  exact rest first environment between value after (same.trans outside) later

/-- What comes behind an action that may give a value is run. -/
theorem followed {action : Eval (Option Value)} {next : Option Value → Eval (Option Value)}
    (along : Along SameDepth action) (valueless : Valueless action) (rest : Valueless (next none)) :
    Valueless (action >>= next) := by
  intro environment before value after outside yields
  obtain ⟨first, between, yielded, later⟩ := yields_bind.1 yields
  obtain rfl := valueless environment before first between outside yielded
  have same := along environment before
  rw [yielded] at same
  exact rest environment between value after (same.trans outside) later

theorem during {enter : State → State} {restore : State → State → State} {action : Eval (Option Value)}
    (valueless : Valueless action) (entered : ∀ state, (enter state).functionDepth = state.functionDepth) :
    Valueless (Evaluation.during enter restore action) := by
  intro environment before value after outside yields
  obtain ⟨inner, inside, -⟩ := yields_during.1 yields
  exact valueless environment _ value inner ((entered before).trans outside) inside

theorem fail {pos : Position} {error : EvalError} : Valueless (Evaluation.fail pos error) :=
  fun _ _ _ _ _ yields => absurd yields yields_fail

theorem effect {action : Eval Unit} : Valueless (Evaluator.effect action) := by
  intro environment before value after _ yields
  obtain ⟨_, _, _, last⟩ := yields_bind.1 yields
  exact (yields_pure.1 last).1

theorem written {pos : Position} {action : Eval Unit} : Valueless (Evaluator.written pos action) := effect

end Valueless

namespace Evaluator

variable {self : Evaluator} (keeps : Keeps SameDepth self) (exec : ∀ statement, Valueless (self.exec statement))

include keeps exec

theorem block_valueless (statements : List Statement) : Valueless (self.block statements) := by
  induction statements with
  | nil => exact .pure
  | cons statement rest tail => exact .followed (keeps.exec statement) (exec statement) tail

theorem innerBlock_valueless (bound : List (String × Value)) (body : List Statement) :
    Valueless (self.innerBlock bound body) := by
  refine .bind (fun _ => steady_sameDepth.get) fun state => .bind (fun _ => steady_sameDepth.scopeMade) fun scope => ?_
  refine .bind (fun _ => steady_sameDepth.forIn (fun _ _ => ?_) bound _) fun _ => ?_
  · exact steady_sameDepth.bind steady_sameDepth.declared fun _ => steady_sameDepth.pure
  · exact .during (block_valueless keeps exec body) fun _ => rfl

theorem branch_valueless (otherwise : Option (List Statement)) (clauses : List (Expr × List Statement)) :
    Valueless (self.branch otherwise clauses) := by
  induction clauses with
  | nil =>
    cases otherwise with
    | none => exact .pure
    | some body => exact innerBlock_valueless keeps exec [] body
  | cons clause rest tail =>
    refine .bind (keeps.eval clause.1) fun value => ?_
    split
    · exact innerBlock_valueless keeps exec [] clause.2
    · exact tail

theorem forEach_valueless (names : List String) (body : List Statement) (items : List Value) :
    Valueless (self.forEach names body items) := by
  induction items with
  | nil => exact .pure
  | cons item rest tail =>
    exact .followed (fun _ => innerBlock_along steady_sameDepth keeps _ body) (innerBlock_valueless keeps exec _ body) tail

theorem countFrom_valueless (name : String) (unit : Units) (body : List Statement) (step : Int) (count : Nat)
    (next : Int) : Valueless (self.countFrom name unit body step count next) := by
  induction count generalizing next with
  | zero => exact .pure
  | succ count tail =>
    exact .followed (fun _ => innerBlock_along steady_sameDepth keeps _ body) (innerBlock_valueless keeps exec _ body) (tail _)

theorem whileTrue_valueless (condition : Expr) (body : List Statement) (rounds : Nat) :
    Valueless (self.whileTrue condition body rounds) := by
  induction rounds with
  | zero => exact fun _ _ _ _ _ yields => absurd yields yields_throw
  | succ rounds tail =>
    refine .bind (keeps.eval condition) fun value => ?_
    split
    · exact .followed (fun _ => innerBlock_along steady_sameDepth keeps _ body) (innerBlock_valueless keeps exec _ body) tail
    · exact .pure

omit keeps exec in
/-- A value is refused where no function is running. -/
theorem result_valueless (value : Expr) (pos : Position) : Valueless (self.result value pos) := by
  intro environment before given after outside yields
  obtain ⟨_, _, known, rest⟩ := yields_bind.1 yields
  obtain ⟨rfl, rfl⟩ := yields_get.1 known
  rw [if_pos outside] at rest
  obtain ⟨_, _, failed, -⟩ := yields_bind.1 rest
  exact absurd failed yields_fail

theorem runStatement_valueless (statement : Statement) : Valueless (self.runStatement statement) := by
  match statement with
  | .rule .. | .declaration .. | .directive .. | .media .. | .inclusion .. => exact .written
  | .assignment .. | .mixin .. | .function .. | .content .. | .imports .. | .message .. | .comment .. => exact .effect
  | .result pos value => exact result_valueless value pos
  | .branch _ clauses otherwise => exact branch_valueless keeps exec otherwise clauses
  | .forEach _ names items body => exact .bind (keeps.eval items) fun _ => forEach_valueless keeps exec names body _
  | .forRange _ name first last inclusive body =>
    exact .bind (fun environment => integer_along steady_sameDepth.toFlows (keeps.eval · environment) first) fun _ =>
      .bind (fun environment => integer_along steady_sameDepth.toFlows (keeps.eval · environment) last) fun _ => countFrom_valueless keeps exec _ _ _ _ _ _
  | .whileTrue _ condition body => exact whileTrue_valueless keeps exec condition body _
  | .unsupported .. => exact .fail

end Evaluator

theorem exec_valueless (depth : Nat) (statement : Statement) : Valueless ((evaluator depth).exec statement) := by
  induction depth generalizing statement with
  | zero => exact fun _ _ _ _ _ yields => absurd yields yields_throw
  | succ depth shallower =>
    have run : Valueless ((evaluator depth).runStatement statement) :=
      Evaluator.runStatement_valueless (steady_sameDepth.evaluator depth) shallower statement
    have step : Valueless ((evaluator depth).execStep statement) := run.during fun _ => rfl
    exact step

/-- No block outside of functions ends before its last statement. -/
theorem block_none {depth : Nat} {statements : List Statement} {environment : Environment} {before after : State}
    {value : Option Value} (outside : before.functionDepth = 0)
    (yields : Yields ((evaluator depth).block statements) environment before value after) : value = none :=
  Evaluator.block_valueless (steady_sameDepth.evaluator depth) (exec_valueless depth) statements _ _ _ _ outside yields

end Stylesheet.Evaluation
