import Stylesheet.Proofs.Along

/-! The course of an evaluation: the changes of the state that it is made of, and how what is evaluated inside of
something else begins and ends. Every evaluation runs such a course, so what all of its changes keep to is kept by every
evaluation, whether it fails or not. -/

namespace Stylesheet.Evaluation
open Evaluator

namespace State

/-- The state in which the body of a rule begins. -/
def inRule (state : State) (selectors : Selectors) (pos : Position) : State :=
  { state with
    tree := state.pushed state.place.container (.rule selectors) pos
    scopes := (state.scopes.child state.place.scope false).2
    place := { state.place with
      rule := some state.tree.entries.size
      selectors := some selectors
      depth := state.place.depth + 1
      scope := state.scopes.size } }

/-- The state in which the block of a directive begins. -/
def inDirective (state : State) (name parameters : String) (pos : Position) : State :=
  { state with
    tree := state.pushed state.place.container (.block name parameters) pos
    scopes := (state.scopes.child state.place.scope false).2
    place := { state.place with
      container := some state.tree.entries.size
      rule := none
      selectors := if isKeyframes name then none else state.place.selectors
      inKeyframes := isKeyframes name || state.place.inKeyframes
      depth := state.place.depth + 1
      scope := state.scopes.size } }

/-- The state in which the body of a media block begins. -/
def inMedia (state : State) (words : String) (pos : Position) : State :=
  let joined := joinedMedia state.place words
  { state with
    tree := state.pushed joined.2 (.block "media" joined.1) pos
    scopes := (state.scopes.child state.place.scope false).2
    place := { state.place with
      media := some ⟨joined.1, joined.2, state.tree.entries.size⟩
      container := some state.tree.entries.size
      rule := none
      depth := state.place.depth + 1
      scope := state.scopes.size } }

/-- The state in which the statements of an imported stylesheet begin. -/
def inSheet (state : State) (sheet : Sheet) : State :=
  { state with
    tree := (state.tree.addSource sheet.path sheet.source).2
    imported := sheet.path :: state.imported
    sheet
    file := sheet.path
    source := (state.tree.addSource sheet.path sheet.source).1 }

/-- The node that takes an item is the current rule, or the block of a directive outside of rules. -/
def Receives (state : State) (id : Nat) : Prop :=
  state.place.rule = some id ∨
    state.place.rule = none ∧ state.place.selectors = none ∧ state.place.container = some id

end State

/-- Expressions have values. Only statements write. -/
inductive Part where
  | expression
  | statement

/-- What is evaluated inside of something else begins in the state `entered`; behind it `leave` puts back what was
changed for it. -/
inductive Enters : (inner outer : Part) → (state entered : State) → (leave : State → State) → Prop
  | inScope (part : Part) (state : State) (scope : Nat) :
    Enters part part state { state with place.scope := scope }
      fun after => { after with place.scope := state.place.scope }
  | inFile (part : Part) (state : State) (file : String) :
    Enters part part state { state with file, source := (state.tree.sourceIndex? file).getD state.source }
      fun after => { after with file := state.file, source := state.source }
  | inFunction (state : State) :
    Enters .statement .expression state { state with functionDepth := state.functionDepth + 1 }
      fun after => { after with functionDepth := state.functionDepth }
  | inRule {state : State} (selectors : Selectors) (pos : Position) (outside : state.functionDepth = 0) :
    Enters .statement .statement state (state.inRule selectors pos) fun after => { after with place := state.place }
  | inDirective {state : State} (name parameters : String) (pos : Position) (outside : state.functionDepth = 0) :
    Enters .statement .statement state (state.inDirective name parameters pos)
      fun after => { after with place := state.place }
  | inMedia {state : State} (words : String) (pos : Position) (outside : state.functionDepth = 0) :
    Enters .statement .statement state (state.inMedia words pos) fun after => { after with place := state.place }
  | inProperty {state : State} (name : String) (outside : state.functionDepth = 0) :
    Enters .statement .statement state { state with propertyName := some name }
      fun after => { after with propertyName := state.propertyName }
  | withContent (state : State) (block : Option ContentBlock) :
    Enters .statement .statement state { state with content := block :: state.content }
      fun after => { after with content := after.content.tail }
  | content {state : State} {block : ContentBlock} {outer : List (Option ContentBlock)}
    (handed : state.content = some block :: outer) :
    Enters .statement .statement state { state with content := outer }
      fun after => { after with content := some block :: after.content }
  | inSheet (state : State) (sheet : Sheet) :
    Enters .statement .statement state (state.inSheet sheet)
      fun after => { after with sheet := state.sheet, file := state.file, source := state.source }
  | atStatement (state : State) (pos : Position) :
    Enters .statement .statement state { state with statementPos := pos }
      fun after => { after with statementPos := state.statementPos }

/-- The evaluation of an expression or of a statement may lead from one state to another. -/
inductive Leads : Part → State → State → Prop
  | refl (part : Part) (state : State) : Leads part state state
  | trans {part : Part} {before between after : State} (first : Leads part before between)
    (second : Leads part between after) : Leads part before after
  | expression {before after : State} (leads : Leads .expression before after) : Leads .statement before after
  | inside {inner outer : Part} {state entered after : State} {leave : State → State}
    (enters : Enters inner outer state entered leave) (leads : Leads inner entered after) :
    Leads outer state (leave after)
  | report (part : Part) (state : State) (event : LogEvent) : Leads part state { state with log := event :: state.log }
  | newScope (part : Part) (state : State) (parent : Nat) (semiGlobal : Bool) :
    Leads part state { state with scopes := (state.scopes.child parent semiGlobal).2 }
  | declare (part : Part) (state : State) (scope : Nat) (name : String) (value : Value) :
    Leads part state { state with scopes := state.scopes.declare scope name value }
  | assign (state : State) (name : String) (value : Value) (isDefault isGlobal : Bool) :
    Leads .statement state
      { state with scopes := state.scopes.assign state.place.scope name value isDefault isGlobal }
  | defineMixin (state : State) (callable : Callable Statement) :
    Leads .statement state
      { state with scopes := state.scopes.defineMixin state.place.scope ⟨callable, state.place.scope⟩ }
  | defineFunction (state : State) (callable : Callable Statement) :
    Leads .statement state
      { state with scopes := state.scopes.defineFunction state.place.scope ⟨callable, state.place.scope⟩ }
  | lookup (state : State) (reference : String) (pos : Position) :
    Leads .statement state { state with
      lookups := ⟨reference, pos, state.file, state.sheet, state.functionDepth⟩ :: state.lookups }
  /-- An import that is left to the browser is written even by a function. -/
  | directive (state : State) (name parameters : String) (pos : Position)
    (allowed : state.functionDepth = 0 ∨ name = "import") :
    Leads .statement state
      { state with tree := state.pushed state.place.container (.directive name parameters) pos }
  | comment {state : State} (comment : Comment) (pos : Position) (outside : state.functionDepth = 0) :
    Leads .statement state { state with tree := state.pushed state.place.container (.comment comment) pos }
  | item {state : State} {id : Nat} (item : Css.Item) (outside : state.functionDepth = 0)
    (receives : state.Receives id) :
    Leads .statement state { state with tree := state.tree.pushItem id item }
  /-- Outside of any rule a declaration makes one, if there are selectors for it. -/
  | rule {state : State} {selectors : Selectors} (pos : Position) (outside : state.functionDepth = 0)
    (missing : state.place.rule = none) (known : state.place.selectors = some selectors) :
    Leads .statement state { state with
      tree := state.pushed state.place.container (.rule selectors) pos
      place.rule := some state.tree.entries.size }

/-- The states that an evaluation may come through. -/
inductive Reachable : State → Prop
  | start (sheet : Sheet) : Reachable (State.start sheet)
  | leads {part : Part} {before after : State} (reached : Reachable before) (leads : Leads part before after) :
    Reachable after
  | enters {inner outer : Part} {state entered : State} {leave : State → State} (reached : Reachable state)
    (enters : Enters inner outer state entered leave) : Reachable entered

variable {before between after : State}

namespace Leads

theorem functionDepth {part : Part} (leads : Leads part before after) : after.functionDepth = before.functionDepth := by
  induction leads with
  | trans _ _ first second => exact second.trans first
  | expression _ same => exact same
  | inside enters _ same =>
    cases enters with
    | inFunction => rfl
    | _ => exact same
  | _ => rfl

end Leads

/-- An evaluator whose evaluations run such a course. -/
structure Guided (evaluator : Evaluator) : Prop where
  eval : ∀ expr, Along (Leads .expression) (evaluator.eval expr)
  exec : ∀ statement, Along (Leads .statement) (evaluator.exec statement)

end Stylesheet.Evaluation
