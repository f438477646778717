import Mathlib.Data.List.Forall2
import Stylesheet.Proofs.Runs

/-! Relations between two actions that everything built from related actions keeps to. If the expressions of two
evaluators are related, so is all that is evaluated with expressions alone: texts, arguments, calls of what is built in,
and the bounds of loops. If the blocks inside of control directives are related as well, so are the directives. -/

namespace Stylesheet.Evaluation

/-- What is built from related actions in the same way is related. Both may fail, also at the place of the current
statement, and report something about their current files. -/
structure Congruence (R : {α : Type} → Eval α → Eval α → Prop) : Prop where
  pure : ∀ {α : Type} {value : α}, R (Pure.pure value) (Pure.pure value)
  bind : ∀ {α β : Type} {first second : Eval α} {next next' : α → Eval β}, R first second →
    (∀ value, R (next value) (next' value)) → R (first >>= next) (second >>= next')
  read : R (MonadReader.read : Eval Environment) MonadReader.read
  endless : ∀ {α : Type}, R (throw .endless : Eval α) (throw .endless)
  fail : ∀ {α : Type} {pos : Position} {error : EvalError}, R (Evaluation.fail pos error : Eval α)
    (Evaluation.fail pos error)
  failHere : ∀ {α : Type} {place : Position → Position} {error : Environment → EvalError},
    R (do Evaluation.fail (place (← get).statementPos) (error (← MonadReader.read)) : Eval α)
      (do Evaluation.fail (place (← get).statementPos) (error (← MonadReader.read)))
  told : ∀ {α : Type} {event : String → LogEvent} {first second : Eval α}, R first second →
    R (do report (event (← get).file); first) (do report (event (← get).file); second)

/-- Both actions may also make and fill scopes. -/
structure ScopedCongruence (R : {α : Type} → Eval α → Eval α → Prop) : Prop extends Congruence R where
  newScope : ∀ {parent : Nat} {semiGlobal : Bool},
    R (Evaluation.newScope parent semiGlobal) (Evaluation.newScope parent semiGlobal)
  declare : ∀ {scope : Nat} {name : String} {value : Value},
    R (Evaluation.declare scope name value) (Evaluation.declare scope name value)
  inScope : ∀ {α : Type} {scope : Nat} {first second : Eval α}, R first second →
    R (Evaluation.inScope scope first) (Evaluation.inScope scope second)

open Evaluator

variable {R : {α : Type} → Eval α → Eval α → Prop} {α β : Type} {first second : Evaluator}

namespace Congruence

variable (congruence : Congruence R)

include congruence

theorem mapM {f f' : α → Eval β} (each : ∀ value, R (f value) (f' value)) (values : List α) :
    R (values.mapM f) (values.mapM f') := by
  induction values with
  | nil => exact congruence.pure
  | cons value rest tail =>
    rw [List.mapM_cons, List.mapM_cons]
    exact congruence.bind (each value) fun _ => congruence.bind tail fun _ => congruence.pure

theorem foldlM {f f' : β → α → Eval β} (each : ∀ state value, R (f state value) (f' state value)) (start : β)
    (values : List α) : R (values.foldlM f start) (values.foldlM f' start) := by
  induction values generalizing start with
  | nil => exact congruence.pure
  | cons value rest tail => exact congruence.bind (each start value) fun next => tail next

theorem forIn {f f' : α → β → Eval (ForInStep β)} (each : ∀ value state, R (f value state) (f' value state))
    (values : List α) (start : β) : R (ForIn.forIn values start f) (ForIn.forIn values start f') := by
  induction values generalizing start with
  | nil => exact congruence.pure
  | cons value rest tail =>
    rw [List.forIn_cons, List.forIn_cons]
    refine congruence.bind (each value start) fun step => ?_
    cases step with
    | done => exact congruence.pure
    | yield => exact tail _

theorem ofOperation {pos : Position} {result : Except OperationError α} :
    R (Evaluation.ofOperation pos result) (Evaluation.ofOperation pos result) := by
  unfold Evaluation.ofOperation
  split
  · exact congruence.pure
  · exact congruence.fail

theorem checkResult (value : Value) (pos : Position) : R (checkResult value pos) (checkResult value pos) := by
  unfold Evaluator.checkResult
  split
  · exact congruence.fail
  · next message => exact congruence.told congruence.pure
  · exact congruence.pure

theorem runBuiltin (builtin : Builtin) (pos : Position) (values : List (Option Value)) :
    R (runBuiltin builtin pos values) (runBuiltin builtin pos values) := by
  refine congruence.bind congruence.read fun _ => ?_
  split
  · exact congruence.checkResult _ pos
  · exact congruence.fail

section Expressions

variable (eval : ∀ expr, R (first.eval expr) (second.eval expr))

include eval

theorem positional (arguments : Arguments Expr) : R (first.positional arguments) (second.positional arguments) := by
  refine congruence.bind (congruence.mapM eval _) fun values => ?_
  split
  · exact congruence.bind (eval _) fun _ => congruence.pure
  · exact congruence.pure

theorem keywords (arguments : List (String × Expr)) : R (first.keywords arguments) (second.keywords arguments) :=
  congruence.mapM (fun _ => congruence.bind (eval _) fun _ => congruence.pure) arguments

theorem allArguments (arguments : Arguments Expr) :
    R (first.allArguments arguments) (second.allArguments arguments) := by
  refine congruence.bind (congruence.mapM eval _) fun values => ?_
  refine congruence.bind (congruence.keywords eval _) fun named => ?_
  split
  · exact congruence.pure
  · refine congruence.bind (eval _) fun rest => ?_
    split
    · exact congruence.bind congruence.read fun _ => congruence.pure
    · exact congruence.pure

theorem callIf (arguments : Arguments Expr) (pos : Position) :
    R (first.callIf arguments pos) (second.callIf arguments pos) := by
  refine congruence.bind (congruence.foldlM (fun parts pair => ?_) _ _) fun parts => ?_
  · dsimp only
    split
    · exact congruence.pure
    · exact congruence.fail
  · split
    · refine congruence.bind (eval _) fun _ => ?_
      split <;> exact eval _
    · exact congruence.fail

theorem fillByName (builtin : Builtin) (pos : Position) (arguments : List (String × Expr))
    (slots : List (Option Value)) :
    R (first.fillByName builtin pos arguments slots) (second.fillByName builtin pos arguments slots) := by
  induction arguments generalizing slots with
  | nil => exact congruence.pure
  | cons argument rest tail =>
    simp only [Evaluator.fillByName]
    split
    · exact congruence.bind (eval _) fun _ => tail _
    · exact congruence.fail

theorem callBuiltin (builtin : Builtin) (arguments : Arguments Expr) (pos : Position) :
    R (first.callBuiltin builtin arguments pos) (second.callBuiltin builtin arguments pos) := by
  refine congruence.bind (congruence.positional eval arguments) fun values => ?_
  have run : R (do
      let values ← first.fillByName builtin pos arguments.keyword (slots builtin values)
      Evaluator.runBuiltin builtin pos values) (do
      let values ← second.fillByName builtin pos arguments.keyword (slots builtin values)
      Evaluator.runBuiltin builtin pos values) :=
    congruence.bind (congruence.fillByName eval builtin pos _ _) fun _ => congruence.runBuiltin builtin pos _
  dsimp only
  split
  · exact congruence.bind congruence.fail fun _ => run
  · exact run

theorem callPlain (name : String) (arguments : Arguments Expr) :
    R (first.callPlain name arguments) (second.callPlain name arguments) := by
  refine congruence.bind congruence.read fun _ => ?_
  refine congruence.bind (congruence.positional eval arguments) fun values => ?_
  refine congruence.bind (congruence.mapM (fun _ => ?_) _) fun _ => congruence.pure
  exact congruence.bind (eval _) fun _ => congruence.pure

theorem text (template : Template Expr) : R (first.text template) (second.text template) := by
  induction template with
  | nil => exact congruence.pure
  | cons piece rest tail =>
    cases piece with
    | text s => exact congruence.bind tail fun _ => congruence.pure
    | code expr =>
      refine congruence.bind (eval expr) fun _ => congruence.bind congruence.read fun _ => ?_
      exact congruence.bind tail fun _ => congruence.pure

theorem entries (pairs : List (Expr × Expr)) (map : List (Value × Value)) :
    R (first.entries pairs map) (second.entries pairs map) := by
  induction pairs generalizing map with
  | nil => exact congruence.pure
  | cons pair rest tail => exact congruence.bind (eval _) fun _ => congruence.bind (eval _) fun _ => tail _

theorem binary (op : BinaryOp) (left right : Expr) (pos : Position) :
    R (first.binary op left right pos) (second.binary op left right pos) := by
  refine congruence.bind (eval left) fun value => ?_
  split
  · exact congruence.pure
  · exact congruence.bind (eval right) fun _ => congruence.bind congruence.read fun _ => congruence.ofOperation

omit congruence eval in
mutual

theorem cssValue (congruence : Congruence R) (eval : ∀ expr, R (first.eval expr) (second.eval expr)) :
    (expr : Expr) → R (first.cssValue expr) (second.cssValue expr)
  | .list items _ _ => congruence.bind (cssValues congruence eval items) fun _ => congruence.pure
  | expr => by
    unfold Evaluator.cssValue
    split
    · exact congruence.bind congruence.read fun _ => congruence.pure
    · exact congruence.bind (cssValues congruence eval _) fun _ => congruence.pure
    · exact eval _

theorem cssValues (congruence : Congruence R) (eval : ∀ expr, R (first.eval expr) (second.eval expr)) :
    (items : List Expr) → R (first.cssValues items) (second.cssValues items)
  | [] => congruence.pure
  | item :: rest =>
    congruence.bind (cssValue congruence eval item) fun _ =>
      congruence.bind (cssValues congruence eval rest) fun _ => congruence.pure

end

theorem integer (expr : Expr) : R (first.integer expr) (second.integer expr) := by
  refine congruence.bind (eval expr) fun value => ?_
  dsimp only
  split
  · split
    · exact congruence.pure
    · exact congruence.failHere
  · exact congruence.failHere

end Expressions

/-! Control directives with two bodies -/

section Control

variable {body body' : List Statement} (inner : ∀ bound, R (first.innerBlock bound body) (second.innerBlock bound body'))

include inner

theorem forEach (names : List String) (items : List Value) :
    R (first.forEach names body items) (second.forEach names body' items) := by
  induction items with
  | nil => exact congruence.pure
  | cons item rest tail =>
    refine congruence.bind (inner _) fun value => ?_
    split
    · exact congruence.pure
    · exact tail

theorem countFrom (name : String) (unit : Units) (step : Int) (count : Nat) (next : Int) :
    R (first.countFrom name unit body step count next) (second.countFrom name unit body' step count next) := by
  induction count generalizing next with
  | zero => exact congruence.pure
  | succ count tail =>
    refine congruence.bind (inner _) fun value => ?_
    split
    · exact congruence.pure
    · exact tail _

variable (eval : ∀ expr, R (first.eval expr) (second.eval expr))

include eval

theorem forRange (name : String) (low high : Expr) (inclusive : Bool) :
    R (first.forRange name low high inclusive body) (second.forRange name low high inclusive body') :=
  congruence.bind (congruence.integer eval low) fun _ => congruence.bind (congruence.integer eval high) fun _ =>
    congruence.countFrom inner _ _ _ _ _

theorem whileTrue (condition : Expr) (rounds : Nat) :
    R (first.whileTrue condition body rounds) (second.whileTrue condition body' rounds) := by
  induction rounds with
  | zero => exact congruence.endless
  | succ rounds tail =>
    refine congruence.bind (eval condition) fun value => ?_
    split
    · refine congruence.bind (inner []) fun value => ?_
      split
      · exact congruence.pure
      · exact tail
    · exact congruence.pure

omit inner in
/-- The clauses have the same conditions. -/
theorem branch {otherwise otherwise' : Option (List Statement)} {clauses clauses' : List (Expr × List Statement)}
    (last : R (first.branch otherwise []) (second.branch otherwise' []))
    (bodies : List.Forall₂ (fun clause clause' =>
      clause.1 = clause'.1 ∧ R (first.innerBlock [] clause.2) (second.innerBlock [] clause'.2)) clauses clauses') :
    R (first.branch otherwise clauses) (second.branch otherwise' clauses') := by
  induction bodies with
  | nil => exact last
  | @cons clause clause' rest rest' same _ tail =>
    obtain ⟨condition, body⟩ := clause
    obtain ⟨condition', body'⟩ := clause'
    obtain ⟨rfl, inside⟩ := same
    refine congruence.bind (eval condition) fun value => ?_
    split
    · exact inside
    · exact tail

end Control

end Congruence

namespace ScopedCongruence

variable (congruence : ScopedCongruence R)

include congruence

theorem bindRest (rest : Option String) (scope : Nat) (pos : Position) (values : List Value)
    (named : List (String × Value)) :
    R (bindRest rest scope pos values named) (bindRest rest scope pos values named) := by
  unfold Evaluator.bindRest
  split
  · exact congruence.declare
  · exact congruence.fail
  · exact congruence.pure

/-! Arguments of two mixins or functions that differ in nothing but their bodies -/

section Arguments

variable (eval : ∀ expr, R (first.eval expr) (second.eval expr))

include eval

theorem bindParameters (scope : Nat) (pos : Position) (parameters : List Parameter) (values : List Value)
    (named : List (String × Value)) :
    R (first.bindParameters scope pos parameters values named)
      (second.bindParameters scope pos parameters values named) := by
  induction parameters generalizing values named with
  | nil => exact congruence.pure
  | cons parameter rest tail =>
    cases values with
    | cons value values => exact congruence.bind congruence.declare fun _ => tail values named
    | nil =>
      simp only [Evaluator.bindParameters]
      split
      · exact congruence.bind congruence.declare fun _ => tail _ _
      · refine congruence.bind (congruence.inScope (eval _)) fun _ => ?_
        exact congruence.bind congruence.declare fun _ => tail _ _
      · exact congruence.fail

theorem bindArguments (callable : Callable Statement) (body : List Statement) (scope : Nat) (arguments : Arguments Expr)
    (pos : Position) :
    R (first.bindArguments ⟨callable, scope⟩ arguments pos)
      (second.bindArguments ⟨{ callable with body }, scope⟩ arguments pos) := by
  refine congruence.bind (congruence.allArguments eval arguments) fun (values, named) => ?_
  have bound : R (first.parameterScope ⟨callable, scope⟩ pos values named)
      (second.parameterScope ⟨{ callable with body }, scope⟩ pos values named) := by
    refine congruence.bind congruence.newScope fun scope => ?_
    refine congruence.bind (congruence.bindParameters eval _ _ _ _ _) fun (values, named) => ?_
    exact congruence.bind (congruence.bindRest _ _ _ _ _) fun _ => congruence.pure
  dsimp only
  split
  · exact congruence.bind congruence.fail fun _ => bound
  · exact bound

end Arguments

end ScopedCongruence

end Stylesheet.Evaluation
