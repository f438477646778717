import Stylesheet.Proofs.Splicing.Following

/-! Expressions have the same values in states that are alike, if the evaluator runs blocks alike. -/

namespace Stylesheet.Evaluation
open Splice Evaluator

variable {splice : Splice} {file : String}

/-- The second evaluator gives the values of the first one and runs alike the blocks that are alike. -/
structure Simulates (splice : Splice) (first second : Evaluator) : Prop where
  eval : ∀ {file} expr, Follows splice file Eq (first.eval expr) (second.eval expr)
  block : ∀ {file statements statements'}, Spliced splice file statements statements' →
    Follows splice file Eq (first.block statements) (second.block statements')
  budget : first.budget ≤ second.budget

/-- A question for a name has the same answer in states that are alike. -/
theorem nameQuery_alike {function : String} {query : State → String → Bool} (known : nameQuery? function = some query)
    {state state' : State} (alike : Alike splice state state') (name : String) :
    query state name = query state' name := by
  have isSome {first second : Option Closure} (related : Option.Rel (ClosureAlike splice) first second) :
      first.isSome = second.isSome := by cases related <;> rfl
  unfold nameQuery? at known
  split at known
  · cases known
    simp only [alike.scopes.valueOf?, alike.place]
  · cases known
    exact alike.scopes.binds _ _
  · cases known
    simp only [alike.place, isSome (alike.scopes.function? _ name)]
  · cases known
    simp only [alike.place, isSome (alike.scopes.mixin? _ name)]
  · cases known

namespace Simulates

variable {first second : Evaluator} (simulates : Simulates splice first second)

include simulates

theorem run {statements statements' : List Statement} (spliced : Spliced splice file statements statements') :
    Follows splice file Eq (first.run statements) (second.run statements') :=
  (simulates.block spliced).bind_eq fun _ => .pure rfl

theorem bindArguments {closure closure' : Closure} (alike : ClosureAlike splice closure closure')
    (arguments : Arguments Expr) (pos : Position) :
    Follows splice file Eq (first.bindArguments closure arguments pos)
      (second.bindArguments closure' arguments pos) := by
  cases alike with
  | mk => exact Follows.congruence.bindArguments simulates.eval _ _ _ arguments pos

theorem callFunction {function function' : Closure} (alike : ClosureAlike splice function function')
    (arguments : Arguments Expr) (pos : Position) :
    Follows splice file Eq (first.callFunction function arguments pos)
      (second.callFunction function' arguments pos) := by
  refine Follows.report.bind_eq fun _ => (simulates.bindArguments alike arguments pos).bind_eq fun scope => ?_
  cases alike with
  | mk inside =>
    refine (Follows.inScope (Follows.inFile (Follows.inFunction (simulates.block inside)))).bind_eq fun value => ?_
    split
    · exact Follows.congruence.checkResult _ pos
    · exact .fail

theorem callNameQuery {function : String} {query : State → String → Bool} (known : nameQuery? function = some query)
    (arguments : Arguments Expr) (pos : Position) :
    Follows splice file Eq (first.callNameQuery function query arguments pos)
      (second.callNameQuery function query arguments pos) := by
  refine (Follows.congruence.positional simulates.eval arguments).bind_eq fun values => ?_
  split
  · exact Follows.get_bind fun alike => .pure (by rw [nameQuery_alike known alike])
  · exact .fail

theorem call (name : String) (arguments : Arguments Expr) (pos : Position) :
    Follows splice file Eq (first.call name arguments pos) (second.call name arguments pos) := by
  refine Follows.get_bind fun {state state'} alike => ?_
  have related := alike.scopes.function? state.place.scope name
  rw [← alike.place]
  generalize state.scopes.function? state.place.scope name = one,
    state'.scopes.function? state.place.scope name = two at related
  cases related with
  | some function => exact simulates.callFunction function arguments pos
  | none =>
    dsimp only
    split
    · exact Follows.congruence.callIf simulates.eval arguments pos
    · split
      · next known => exact simulates.callNameQuery known arguments pos
      · exact Follows.congruence.callBuiltin simulates.eval _ arguments pos
      · exact Follows.congruence.callPlain simulates.eval name arguments

theorem text (template : Template Expr) : Follows splice file Eq (first.text template) (second.text template) :=
  Follows.congruence.text simulates.eval template

theorem evalStep (expr : Expr) : Follows splice file Eq (first.evalStep expr) (second.evalStep expr) := by
  match expr with
  | .literal _ => exact .pure rfl
  | .string text _ => exact (simulates.text text).bind_eq fun _ => .pure rfl
  | .variable name _ =>
    refine Follows.get_bind fun {state state'} alike => ?_
    rw [alike.scopes.valueOf?, alike.place]
    split
    · exact .pure rfl
    · exact .fail
  | .binary op left right pos => exact Follows.congruence.binary simulates.eval op left right pos
  | .unary _ operand _ => exact (simulates.eval operand).bind_eq fun _ => Follows.read.bind_eq fun _ => .pure rfl
  | .list items _ _ => exact (Follows.congruence.mapM simulates.eval items).bind_eq fun _ => .pure rfl
  | .map entries _ => exact (Follows.congruence.entries simulates.eval entries []).bind_eq fun _ => .pure rfl
  | .call name arguments pos => exact simulates.call name arguments pos
  | .paren inner => exact simulates.eval inner

end Simulates

end Stylesheet.Evaluation
