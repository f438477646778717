import Stylesheet.Css.Tree
import Stylesheet.Failure
import Stylesheet.Log
import Stylesheet.Scope

/-! The state of an evaluation. A failure does not undo what was done before it: the log and the lookups stay. What
is changed for the length of an action is changed back after it, whether the action fails or not. -/

namespace Stylesheet.Evaluation

/-- What does not change during an evaluation. -/
structure Environment where
  /-- Digits kept behind the point where a number becomes text. -/
  places : Nat
  search : ImportSearch

/-- The block handed to a mixin, with the scope and the file that it was written in. -/
structure ContentBlock where
  body : List Statement
  scope : Nat
  file : String
  deriving Repr

/-- The media block that surrounds the current place. -/
structure MediaContext where
  query : String
  holder : Option Nat
  block : Nat
  deriving Repr

/-- Where output goes. -/
structure Place where
  /-- The block that new nodes go to. -/
  container : Option Nat
  /-- The rule that takes declarations. -/
  rule : Option Nat
  selectors : Option Selectors
  media : Option MediaContext
  inKeyframes : Bool
  depth : Nat
  scope : Nat
  deriving Repr

/-- An import of a stylesheet: where it is written, the stylesheet that it is relative to, and how many functions are
running. -/
structure Lookup where
  reference : String
  pos : Position
  file : String
  importer : Sheet
  functionDepth : Nat
  deriving Repr

structure State where
  tree : Css.Tree
  scopes : Scopes
  /-- The stylesheets imported so far, the last one first. -/
  imported : List String
  /-- What was reported so far, the last first. -/
  log : List LogEvent
  /-- The imports of stylesheets that were looked up so far, the last first. -/
  lookups : List Lookup
  /-- The stylesheet that imports are relative to. -/
  sheet : Sheet
  /-- The file that the current statement was written in. -/
  file : String
  /-- The number of that file among the sources of the tree. -/
  source : Nat
  place : Place
  /-- The blocks handed to the mixins that are running, the innermost first. -/
  content : List (Option ContentBlock)
  functionDepth : Nat
  /-- The properties around a nested one. -/
  propertyName : Option String
  statementPos : Position
  deriving Repr

abbrev Eval := ReaderT Environment (ExceptT Failure (StateM State))

/-- Runs an action and changes the state after it, whether it fails or not. -/
def andThen {α : Type} (action : Eval α) (after : State → State) : Eval α := fun environment state =>
  let (result, state) := action environment state
  (result, after state)

/-- Runs an action in a changed state, and then puts back what `restore` takes from the state before. -/
def during {α : Type} (enter : State → State) (restore : State → State → State) (action : Eval α) : Eval α :=
  fun environment state =>
    let (result, after) := action environment (enter state)
    (result, restore state after)

def atPlace {α : Type} (place : Place) (action : Eval α) : Eval α :=
  during ({ · with place }) (fun before after => { after with place := before.place }) action

def inScope {α : Type} (scope : Nat) (action : Eval α) : Eval α :=
  during ({ · with place.scope := scope })
    (fun before after => { after with place.scope := before.place.scope }) action

/-- Runs an action that was written in another file. A file that is no source of the tree leaves the source. -/
def inFile {α : Type} (file : String) (action : Eval α) : Eval α :=
  during (fun state => { state with file, source := (state.tree.sourceIndex? file).getD state.source })
    (fun before after => { after with file := before.file, source := before.source }) action

def report (event : LogEvent) : Eval Unit := modify fun state => { state with log := event :: state.log }

def fail {α : Type} (pos : Position) (error : EvalError) : Eval α := do
  throw (.evaluation error pos (← get).file)

def ofOperation {α : Type} (pos : Position) (result : Except OperationError α) : Eval α :=
  match result with
  | .ok value => return value
  | .error error => fail pos (.operation error)

def span (pos : Position) : Eval Css.Span := return ⟨(← get).source, pos⟩

/-- Adds a node to the current container, or to another one, and gives its number. -/
def push (container : Option Nat) (content : Css.Content) (pos : Position) : Eval Nat := do
  let span ← span pos
  modifyGet fun state =>
    let (id, tree) := state.tree.push container content state.place.depth span
    (id, { state with tree })

def pushItem (id : Nat) (item : Css.Item) : Eval Unit :=
  modify fun state => { state with tree := state.tree.pushItem id item }

def newScope (parent : Nat) (semiGlobal : Bool) : Eval Nat :=
  modifyGet fun state =>
    let (id, scopes) := state.scopes.child parent semiGlobal
    (id, { state with scopes })

def declare (scope : Nat) (name : String) (value : Value) : Eval Unit :=
  modify fun state => { state with scopes := state.scopes.declare scope name value }

/-- The evaluator as its own parts use it, with a bound on how deeply it may still go. -/
structure Evaluator where
  budget : Nat
  eval : Expr → Eval Value
  exec : Statement → Eval (Option Value)

namespace Evaluator

variable (self : Evaluator)

/-- Runs statements in order. A value ends them: it is the result of the function they belong to. -/
def block : List Statement → Eval (Option Value)
  | [] => return none
  | statement :: rest => do
    match ← self.exec statement with
    | some value => return some value
    | none => block rest

end Evaluator

end Stylesheet.Evaluation
