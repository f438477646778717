import Stylesheet.Proofs.Importing

/-! Properties that whole evaluations have because the actions that they are put together from have them. Imports of
stylesheets are what such a property is about: nothing else changes what has been looked up and imported. -/

namespace Stylesheet.Evaluation
open Evaluator

/-- A property of actions that whatever is put together from such actions has, too. To import a stylesheet has it if to
run its statements does. -/
structure Upkeep (P : {α : Type} → Eval α → Prop) : Prop where
  pure : ∀ {α : Type} {value : α}, P (Pure.pure value)
  bind : ∀ {α β : Type} {action : Eval α} {next : α → Eval β}, P action → (∀ value, P (next value)) →
    P (action >>= next)
  get : P (MonadState.get : Eval State)
  read : P (MonadReader.read : Eval Environment)
  endless : ∀ {α : Type}, P (throw .endless : Eval α)
  fail : ∀ {α : Type} {pos : Position} {error : EvalError}, P (Evaluation.fail pos error : Eval α)
  modifyGet : ∀ {α : Type} {change : State → α × State}, (∀ state, SameRecord state (change state).2) →
    P (MonadState.modifyGet change : Eval α)
  during : ∀ {α : Type} {enter : State → State} {restore : State → State → State} {action : Eval α},
    (∀ state, SameRecord state (enter state)) → (∀ state inner, SameRecord inner (restore state inner)) → P action →
    P (Evaluation.during enter restore action)
  andThen : ∀ {α : Type} {action : Eval α} {change : State → State}, P action →
    (∀ state, SameRecord state (change state)) → P (Evaluation.andThen action change)
  importSheet : ∀ {self : Evaluator} {pos place : Position} {reference : String},
    (∀ statements, P (self.run statements)) → (∀ parameters, P (writeImport parameters pos)) →
    P (self.importTarget pos (.sheet reference place))

namespace Upkeep

variable {P : {α : Type} → Eval α → Prop} (upkeep : Upkeep P)

include upkeep

/-- An action with the property is related to itself. -/
theorem accord : Accord (fun first second => first = second ∧ P first) .own where
  pure := ⟨rfl, upkeep.pure⟩
  bind first rest :=
    ⟨by rw [first.1, funext fun value => (rest value).1], upkeep.bind first.2 fun value => (rest value).2⟩
  get := ⟨rfl, upkeep.get⟩
  read := ⟨rfl, upkeep.read⟩
  endless := ⟨rfl, upkeep.endless⟩
  fail := ⟨rfl, upkeep.fail⟩
  modifyGet same := ⟨rfl, upkeep.modifyGet same⟩
  during entered restored inside := ⟨by rw [inside.1], upkeep.during entered restored inside.2⟩
  andThen first same := ⟨by rw [first.1], upkeep.andThen first.2 same⟩
  importSheet run write := by
    refine ⟨?_, upkeep.importSheet (fun statements => (run statements).2) fun parameters => (write parameters).2⟩
    simp only [Importing.own, importTarget, runSheet, (run _).1]

/-- To run the statements of a stylesheet has the property. -/
theorem run (depth : Nat) (statements : List Statement) : P ((evaluator depth).run statements) := by
  have together := upkeep.accord.evaluator depth
  rw [Importing.evaluator_own] at together
  exact (upkeep.accord.run together statements).2

end Upkeep

end Stylesheet.Evaluation
