import Stylesheet.Proofs.BareTree
import Stylesheet.Proofs.Congruence
import Stylesheet.Proofs.ImportSearch
import Stylesheet.Proofs.Preservation
import Stylesheet.Proofs.Splicing.Relation

/-! Two actions that run alike: from states that are alike, both go well with the same result, or both fail with the
same text. This is asked of runs of the first action in which the import always finds the stylesheet that it means, and
nothing is imported from that one. -/

namespace Stylesheet.Evaluation
open Splice

variable {α α' β β' : Type} {splice : Splice} {file : String}

/-- Two blocks handed to mixins whose bodies are alike. -/
structure BlockAlike (splice : Splice) (first second : ContentBlock) : Prop where
  body : Spliced splice first.file first.body second.body
  scope : first.scope = second.scope

/-- Two states are alike but for an import and the places in the sources. The first one may be inside the stylesheet
that is imported. -/
structure Alike (splice : Splice) (first second : State) : Prop where
  tree : first.tree.bare = second.tree.bare
  scopes : ScopesAlike splice first.scopes second.scopes
  place : first.place = second.place
  content : List.Forall₂ (Option.Rel (BlockAlike splice)) first.content second.content
  functionDepth : first.functionDepth = second.functionDepth
  propertyName : first.propertyName = second.propertyName
  sheet : SameImporter first.sheet second.sheet ∨ first.sheet.path = splice.path

theorem BlockAlike.refl (block : ContentBlock) : BlockAlike splice block block := ⟨.same _, rfl⟩

theorem Alike.refl (state : State) : Alike splice state state where
  tree := rfl
  scopes := .refl _
  place := rfl
  content := by
    refine List.forall₂_same.2 fun block _ => ?_
    cases block with
    | none => exact .none
    | some block => exact .some (.refl block)
  functionDepth := rfl
  propertyName := rfl
  sheet := .inl (.refl state.sheet)

theorem Alike.size {first second : State} (alike : Alike splice first second) :
    first.tree.entries.size = second.tree.entries.size := by
  rw [← Css.Tree.size_bare, alike.tree, Css.Tree.size_bare]

theorem Alike.pushed {first second : State} (alike : Alike splice first second) (container : Option Nat)
    (content : Css.Content) (pos pos' : Position) :
    Alike splice { first with tree := first.pushed container content pos }
      { second with tree := second.pushed container content pos' } :=
  { alike with tree := by simp only [State.pushed, Css.Tree.bare_push, alike.tree, alike.place] }

/-- Nothing that was looked up is forgotten, and the same file is at work as before. -/
structure Traced (before after : State) : Prop where
  lookups : before.lookups <:+ after.lookups
  file : after.file = before.file

theorem steady_traced : Steady Traced where
  refl _ := ⟨List.suffix_rfl, rfl⟩
  trans first second :=
    ⟨first.lookups.trans second.lookups, second.file.trans first.file⟩
  report _ _ := ⟨List.suffix_rfl, rfl⟩
  push _ _ _ _ := ⟨List.suffix_rfl, rfl⟩
  pushItem _ _ _ := ⟨List.suffix_rfl, rfl⟩
  ruleMade _ _ _ _ _ := ⟨List.suffix_rfl, rfl⟩
  newScope _ _ _ := ⟨List.suffix_rfl, rfl⟩
  declare _ _ _ _ := ⟨List.suffix_rfl, rfl⟩
  assign _ _ _ _ _ := ⟨List.suffix_rfl, rfl⟩
  defineMixin _ _ := ⟨List.suffix_rfl, rfl⟩
  defineFunction _ _ := ⟨List.suffix_rfl, rfl⟩
  lookup _ _ _ := ⟨List.suffix_cons _ _, rfl⟩
  importing _ _ _ := ⟨List.suffix_rfl, rfl⟩
  atPlace inside := ⟨inside.lookups, inside.file⟩
  inScope inside := ⟨inside.lookups, inside.file⟩
  inFile inside := ⟨inside.lookups, rfl⟩
  inSheet inside := ⟨inside.lookups, rfl⟩
  inFunction inside := ⟨inside.lookups, inside.file⟩
  inProperty inside := ⟨inside.lookups, inside.file⟩
  atStatement inside := ⟨inside.lookups, inside.file⟩
  withContent inside := ⟨inside.lookups, inside.file⟩
  content _ inside := ⟨inside.lookups, inside.file⟩

/-- An action that begins in a file leaves a trace. -/
def Traces (file : String) (action : Eval α) : Prop :=
  ∀ {environment before}, before.file = file → Traced before (action.outcome environment before).2

theorem Along.traces {action : Eval α} (along : Along Traced action) : Traces file action := fun _ => along _ _

theorem Traces.bind {action : Eval α} {next : α → Eval β} (first : Traces file action)
    (rest : ∀ value, Traces file (next value)) : Traces file (action >>= next) := by
  intro environment before written
  have step : Traced before (action.outcome environment before).2 := first written
  rw [outcome_bind]
  rcases outcome : action.outcome environment before with ⟨result, between⟩
  rw [outcome] at step
  cases result with
  | error failure => exact step
  | ok value => exact steady_traced.trans step (rest value (step.file.trans written))

/-- The import means the stylesheet of the splice when it is relative to a given one. -/
def Finds (splice : Splice) (environment : Environment) (importer : Sheet) : Prop :=
  ∀ before, before.sheet = importer → ∃ sheet after,
    Yields (findImport splice.reference splice.pos) environment before (some sheet) after ∧
      sheet.path = splice.path ∧ sheet.statements = splice.statements

/-- Nothing is imported from the stylesheet of the splice, and the import itself stands in no function and finds that
stylesheet. -/
def Suits (splice : Splice) (environment : Environment) (lookup : Lookup) : Prop :=
  lookup.importer.path ≠ splice.path ∧
    (lookup.reference = splice.reference → lookup.pos = splice.pos → lookup.file = splice.file →
      lookup.functionDepth = 0 ∧ Finds splice environment lookup.importer)

/-- An outcome that is not cut short and whose lookups suit a splice. -/
def Proper (splice : Splice) (environment : Environment) (outcome : Except Failure α × State) : Prop :=
  outcome.1 ≠ .error .endless ∧ ∀ lookup ∈ outcome.2.lookups, Suits splice environment lookup

/-- Two outcomes with related results and alike states, or with the same text of failure. -/
inductive Agree (splice : Splice) (related : α → α' → Prop) :
    Except Failure α × State → Except Failure α' × State → Prop
  | ok {value : α} {value' : α'} {after after' : State} (same : related value value')
      (alike : Alike splice after after') : Agree splice related (.ok value, after) (.ok value', after')
  | error {failure failure' : Failure} {after after' : State} (same : failure.text = failure'.text) :
      Agree splice related (.error failure, after) (.error failure', after')

/-- The second action runs like the first one, which is written in a file. -/
structure Follows (splice : Splice) (file : String) (related : α → α' → Prop) (first : Eval α) (second : Eval α') :
    Prop where
  along : Traces file first
  agree : ∀ {environment before before'}, before.file = file → Alike splice before before' →
    Proper splice environment (first.outcome environment before) →
    Agree splice related (first.outcome environment before) (second.outcome environment before')

namespace Follows

variable {related : α → α' → Prop} {related' : β → β' → Prop}

theorem pure {value : α} {value' : α'} (same : related value value') :
    Follows splice file related (Pure.pure value : Eval α) (Pure.pure value' : Eval α') :=
  ⟨Along.traces fun _ => steady_traced.pure, fun _ alike _ => .ok same alike⟩

theorem throw {failure failure' : Failure} (same : failure.text = failure'.text) :
    Follows splice file related (MonadExcept.throw failure : Eval α) (MonadExcept.throw failure' : Eval α') :=
  ⟨Along.traces fun _ => steady_traced.throw, fun _ _ _ => .error same⟩

/-- What is cut short need not be followed. -/
theorem endless {second : Eval α'} : Follows splice file related (MonadExcept.throw .endless : Eval α) second :=
  ⟨Along.traces fun _ => steady_traced.throw, fun _ _ proper => absurd rfl proper.1⟩

theorem bind {first : Eval α} {second : Eval α'} {next : α → Eval β} {next' : α' → Eval β'}
    (follows : Follows splice file related first second) (along : ∀ value, Traces file (next value))
    (rest : ∀ {value value'}, related value value' → Follows splice file related' (next value) (next' value')) :
    Follows splice file related' (first >>= next) (second >>= next') := by
  refine ⟨Traces.bind follows.along along, fun {environment before before'} written alike proper => ?_⟩
  rw [outcome_bind] at proper ⊢
  rw [outcome_bind]
  have start : Proper splice environment (first.outcome environment before) → _ := follows.agree written alike
  have remained : (first.outcome environment before).2.file = before.file := (follows.along written).file
  generalize first.outcome environment before = one, second.outcome environment before' = two at start remained proper ⊢
  rcases one with ⟨result, between⟩
  cases result with
  | error failure =>
    have cut : failure ≠ .endless := fun same => proper.1 (by rw [same])
    cases start ⟨by simpa using cut, proper.2⟩ with
    | error same => exact .error same
  | ok value =>
    have there : between.file = file := remained.trans written
    have suits : ∀ lookup ∈ between.lookups, Suits splice environment lookup :=
      fun lookup member => proper.2 lookup ((along value there).lookups.subset member)
    cases start ⟨by simp, suits⟩ with
    | ok same alike => exact (rest same).agree there alike proper

theorem bind_eq {first second : Eval α} {next : α → Eval β} {next' : α → Eval β'}
    (follows : Follows splice file Eq first second)
    (rest : ∀ value, Follows splice file related' (next value) (next' value)) :
    Follows splice file related' (first >>= next) (second >>= next') :=
  follows.bind (fun value => (rest value).along) fun same => same ▸ rest _

theorem get_written {next : State → Eval β} {next' : State → Eval β'}
    (rest : ∀ {state state'}, state.file = file → Alike splice state state' →
      Follows splice file related' (next state) (next' state')) :
    Follows splice file related' (MonadState.get >>= next) (MonadState.get >>= next') :=
  ⟨fun {_ before} written => (rest written (.refl before)).along written,
    fun written alike => (rest written alike).agree written alike⟩

theorem get_bind {next : State → Eval β} {next' : State → Eval β'}
    (rest : ∀ {state state'}, Alike splice state state' → Follows splice file related' (next state) (next' state')) :
    Follows splice file related' (MonadState.get >>= next) (MonadState.get >>= next') :=
  get_written fun _ => rest

theorem read : Follows splice file Eq (MonadReader.read : Eval Environment) MonadReader.read :=
  ⟨Along.traces fun _ => steady_traced.read, fun _ alike _ => .ok rfl alike⟩

theorem modifyGet {change : State → α × State} {change' : State → α' × State}
    (along : ∀ state, Traced state (change state).2)
    (changed : ∀ {state state'}, Alike splice state state' →
      related (change state).1 (change' state').1 ∧ Alike splice (change state).2 (change' state').2) :
    Follows splice file related (MonadState.modifyGet change : Eval α) (MonadState.modifyGet change' : Eval α') :=
  ⟨Along.traces fun _ => .modifyGet along, fun _ alike _ => .ok (changed alike).1 (changed alike).2⟩

theorem modify {change change' : State → State} (along : ∀ state, Traced state (change state))
    (changed : ∀ {state state'}, Alike splice state state' → Alike splice (change state) (change' state')) :
    Follows splice file Eq (modify change : Eval PUnit) (modify change') :=
  ⟨Along.traces fun _ => .modify along, fun _ alike _ => .ok rfl (changed alike)⟩

/-- What holds for the length of an action is undone behind it and forgets no lookup. -/
theorem during {enter enter' : State → State} {restore restore' : State → State → State} {first : Eval α}
    {second : Eval α'}
    {inner : String} (follows : Follows splice inner related first second)
    (written : ∀ {state}, state.file = file → (enter state).file = inner)
    (undone : ∀ {state inner}, Traced (enter state) inner → Traced state (restore state inner))
    (lookups : ∀ state inner, (restore state inner).lookups = inner.lookups)
    (entered : ∀ {state state'}, Alike splice state state' → Alike splice (enter state) (enter' state'))
    (restored : ∀ {state state' inner inner'}, Alike splice state state' → Alike splice inner inner' →
      Alike splice (restore state inner) (restore' state' inner')) :
    Follows splice file related (Evaluation.during enter restore first) (Evaluation.during enter' restore' second) := by
  refine ⟨fun there => undone (follows.along (written there)),
    fun {environment before before'} there alike proper => ?_⟩
  have inside : Proper splice environment (first.outcome environment (enter before)) → _ :=
    follows.agree (written there) (entered alike)
  change Proper splice environment ((first.outcome environment (enter before)).1,
    restore before (first.outcome environment (enter before)).2) at proper
  change Agree splice related ((first.outcome environment (enter before)).1,
      restore before (first.outcome environment (enter before)).2)
    ((second.outcome environment (enter' before')).1, restore' before' (second.outcome environment (enter' before')).2)
  generalize first.outcome environment (enter before) = one,
    second.outcome environment (enter' before') = two at inside proper ⊢
  cases inside ⟨proper.1, by rw [← lookups before one.2]; exact proper.2⟩ with
  | ok same inner => exact .ok same (restored alike inner)
  | error same => exact .error same

theorem fail {pos pos' : Position} {error : EvalError} :
    Follows splice file related (Evaluation.fail pos error : Eval α) (Evaluation.fail pos' error : Eval α') :=
  get_bind fun _ => throw rfl

theorem report {event event' : LogEvent} :
    Follows splice file Eq (Evaluation.report event) (Evaluation.report event') :=
  modify (fun state => steady_traced.report state event) fun alike => { alike with }

theorem span {pos pos' : Position} :
    Follows splice file (fun _ _ => True) (Evaluation.span pos) (Evaluation.span pos') :=
  get_bind fun _ => pure trivial

theorem push {container : Option Nat} {content : Css.Content} {pos pos' : Position} :
    Follows splice file Eq (Evaluation.push container content pos) (Evaluation.push container content pos') := by
  exact ⟨Along.traces fun _ => steady_traced.pushed, fun _ alike _ => .ok alike.size (alike.pushed container content pos pos')⟩

theorem pushItem {id : Nat} {item item' : Css.Item} (same : item.bare = item'.bare) :
    Follows splice file Eq (Evaluation.pushItem id item) (Evaluation.pushItem id item') :=
  modify (fun state => steady_traced.pushItem state id item) fun alike =>
    { alike with tree := by rw [Css.Tree.bare_pushItem, Css.Tree.bare_pushItem, alike.tree, same] }

theorem newScope {parent : Nat} {semiGlobal : Bool} :
    Follows splice file Eq (Evaluation.newScope parent semiGlobal) (Evaluation.newScope parent semiGlobal) :=
  modifyGet (fun state => steady_traced.newScope state parent semiGlobal) fun alike =>
    ⟨(alike.scopes.child parent semiGlobal).1, { alike with scopes := (alike.scopes.child parent semiGlobal).2 }⟩

theorem declare {scope : Nat} {name : String} {value : Value} :
    Follows splice file Eq (Evaluation.declare scope name value) (Evaluation.declare scope name value) :=
  modify (fun state => steady_traced.declare state scope name value) fun alike =>
    { alike with scopes := alike.scopes.declare scope name value }

theorem atPlace {place : Place} {first : Eval α} {second : Eval α'}
    (follows : Follows splice file related first second) :
    Follows splice file related (Evaluation.atPlace place first) (Evaluation.atPlace place second) :=
  follows.during id steady_traced.atPlace (fun _ _ => rfl) (fun alike => { alike with place := rfl })
    fun alike inner => { inner with place := alike.place }

theorem inScope {scope : Nat} {first : Eval α} {second : Eval α'}
    (follows : Follows splice file related first second) :
    Follows splice file related (Evaluation.inScope scope first) (Evaluation.inScope scope second) :=
  follows.during id steady_traced.inScope (fun _ _ => rfl)
    (fun alike => { alike with place := by rw [alike.place] })
    fun alike inner => { inner with place := by rw [alike.place, inner.place] }

theorem inFile {inner inner' : String} {first : Eval α} {second : Eval α'}
    (follows : Follows splice inner related first second) :
    Follows splice file related (Evaluation.inFile inner first) (Evaluation.inFile inner' second) :=
  follows.during (fun _ => rfl) steady_traced.inFile (fun _ _ => rfl) (fun alike => { alike with })
    fun _ inner => { inner with }

theorem inFunction {first : Eval α} {second : Eval α'} (follows : Follows splice file related first second) :
    Follows splice file related (Evaluator.inFunction first) (Evaluator.inFunction second) :=
  follows.during id steady_traced.inFunction (fun _ _ => rfl)
    (fun alike => { alike with functionDepth := by rw [alike.functionDepth] })
    fun alike inner => { inner with functionDepth := alike.functionDepth }

theorem inProperty {name : String} {first : Eval α} {second : Eval α'}
    (follows : Follows splice file related first second) :
    Follows splice file related (Evaluator.inProperty name first) (Evaluator.inProperty name second) :=
  follows.during id steady_traced.inProperty (fun _ _ => rfl)
    (fun alike => { alike with propertyName := rfl })
    fun alike inner => { inner with propertyName := alike.propertyName }

theorem atStatement {pos pos' : Position} {first : Eval α} {second : Eval α'}
    (follows : Follows splice file related first second) :
    Follows splice file related
      (Evaluation.during ({ · with statementPos := pos })
        (fun before after => { after with statementPos := before.statementPos }) first)
      (Evaluation.during ({ · with statementPos := pos' })
        (fun before after => { after with statementPos := before.statementPos }) second) :=
  follows.during id steady_traced.atStatement (fun _ _ => rfl) (fun alike => { alike with })
    fun _ inner => { inner with }

theorem congruence : ScopedCongruence fun {α} (first second : Eval α) => Follows splice file Eq first second where
  pure := pure rfl
  bind := bind_eq
  read := read
  endless := endless
  fail := fail
  failHere := get_bind fun _ => read.bind_eq fun _ => fail
  told follows := get_bind fun _ => report.bind_eq fun _ => follows
  newScope := newScope
  declare := declare
  inScope := inScope

end Follows

end Stylesheet.Evaluation
