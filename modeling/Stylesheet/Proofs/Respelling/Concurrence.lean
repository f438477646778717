import Stylesheet.Proofs.Congruence
import Stylesheet.Proofs.ImportSearch
import Stylesheet.Proofs.Respelling.Hyphens

/-! Two actions that concur: from states that differ in how names are written, and in what was told, both go well with
the same result, or both fail. An action that uses no name concurs with itself. -/

namespace Stylesheet.Evaluation

variable {α β : Type}

def ContentBlock.hyphenated (block : ContentBlock) : ContentBlock :=
  { block with body := Statement.hyphenatedAll block.body }

/-- Two states that are the same once names are written with hyphens. The log and the list of lookups may differ. -/
structure Respelled (first second : State) : Prop where
  tree : first.tree = second.tree
  scopes : first.scopes.hyphenated = second.scopes.hyphenated
  imported : first.imported = second.imported
  sheet : SameImporter first.sheet second.sheet
  file : first.file = second.file
  source : first.source = second.source
  place : first.place = second.place
  content : first.content.map (Option.map ContentBlock.hyphenated) =
    second.content.map (Option.map ContentBlock.hyphenated)
  functionDepth : first.functionDepth = second.functionDepth
  propertyName : first.propertyName = second.propertyName
  statementPos : first.statementPos = second.statementPos

namespace Respelled

variable {first second third : State}

theorem refl (state : State) : Respelled state state := ⟨rfl, rfl, rfl, .refl _, rfl, rfl, rfl, rfl, rfl, rfl, rfl⟩

theorem symm (same : Respelled first second) : Respelled second first :=
  ⟨same.tree.symm, same.scopes.symm, same.imported.symm, ⟨same.sheet.path.symm, same.sheet.directory.symm,
    same.sheet.chain.symm⟩, same.file.symm, same.source.symm, same.place.symm, same.content.symm,
    same.functionDepth.symm, same.propertyName.symm, same.statementPos.symm⟩

theorem trans (same : Respelled first second) (next : Respelled second third) : Respelled first third :=
  ⟨same.tree.trans next.tree, same.scopes.trans next.scopes, same.imported.trans next.imported,
    ⟨same.sheet.path.trans next.sheet.path, same.sheet.directory.trans next.sheet.directory,
      same.sheet.chain.trans next.sheet.chain⟩, same.file.trans next.file, same.source.trans next.source,
    same.place.trans next.place, same.content.trans next.content, same.functionDepth.trans next.functionDepth,
    same.propertyName.trans next.propertyName, same.statementPos.trans next.statementPos⟩

theorem size (same : Respelled first second) : first.scopes.size = second.scopes.size := by
  rw [← Scopes.size_hyphenated, same.scopes, Scopes.size_hyphenated]

theorem valueOf? (same : Respelled first second) (id : Nat) (name : String) :
    first.scopes.valueOf? id name = second.scopes.valueOf? id name := by
  rw [← Scopes.valueOf?_hyphenated, same.scopes, Scopes.valueOf?_hyphenated]

theorem binds (same : Respelled first second) (id : Nat) (name : String) :
    first.scopes.binds id name = second.scopes.binds id name := by
  rw [← Scopes.binds_hyphenated, same.scopes, Scopes.binds_hyphenated]

theorem mixin? (same : Respelled first second) (id : Nat) (name : String) :
    (first.scopes.mixin? id name).map Closure.hyphenated = (second.scopes.mixin? id name).map Closure.hyphenated := by
  rw [← Scopes.mixin?_hyphenated, same.scopes, Scopes.mixin?_hyphenated]

theorem function? (same : Respelled first second) (id : Nat) (name : String) :
    (first.scopes.function? id name).map Closure.hyphenated =
      (second.scopes.function? id name).map Closure.hyphenated := by
  rw [← Scopes.function?_hyphenated, same.scopes, Scopes.function?_hyphenated]

end Respelled

/-- Two outcomes with the same result and states that differ in the writing of names, or two failures. -/
inductive Agreement : Except Failure α × State → Except Failure α × State → Prop
  | ok {value : α} {after after' : State} (same : Respelled after after') :
    Agreement (.ok value, after) (.ok value, after')
  | error {failure failure' : Failure} {after after' : State} :
    Agreement (.error failure, after) (.error failure', after')

def Concurs (first second : Eval α) : Prop :=
  ∀ environment before before', Respelled before before' →
    Agreement (first.outcome environment before) (second.outcome environment before')

namespace Concurs

theorem symm {first second : Eval α} (concurs : Concurs first second) : Concurs second first := by
  intro environment before before' same
  have agreed := concurs environment before' before same.symm
  generalize first.outcome environment before' = one, second.outcome environment before = two at agreed
  cases agreed with
  | ok same => exact .ok same.symm
  | error => exact .error

theorem trans {first second third : Eval α} (concurs : Concurs first second) (next : Concurs second third) :
    Concurs first third := by
  intro environment before before' same
  have left := concurs environment before before (.refl before)
  have right := next environment before before' same
  generalize first.outcome environment before = one, second.outcome environment before = two,
    third.outcome environment before' = three at left right
  cases left with
  | ok same =>
    cases right with
    | ok same' => exact .ok (same.trans same')
  | error =>
    cases right with
    | error => exact .error

theorem pure {value : α} : Concurs (Pure.pure value) (Pure.pure value) := fun _ _ _ same => .ok same

theorem throw {failure : Failure} : Concurs (MonadExcept.throw failure : Eval α) (MonadExcept.throw failure) :=
  fun _ _ _ _ => .error

theorem read : Concurs (MonadReader.read : Eval Environment) MonadReader.read := fun _ _ _ same => .ok same

/-- The failures may be told in different words. -/
theorem fail {pos pos' : Position} {error error' : EvalError} :
    Concurs (Evaluation.fail pos error : Eval α) (Evaluation.fail pos' error') := fun _ _ _ _ => .error

theorem bind {first second : Eval α} {next next' : α → Eval β} (concurs : Concurs first second)
    (rest : ∀ value, Concurs (next value) (next' value)) : Concurs (first >>= next) (second >>= next') := by
  intro environment before before' same
  have agreed := concurs environment before before' same
  rw [outcome_bind, outcome_bind]
  generalize first.outcome environment before = one, second.outcome environment before' = two at agreed
  cases agreed with
  | ok same => exact rest _ environment _ _ same
  | error => exact .error

/-- Nothing comes behind a failure. -/
theorem fail_bind {pos pos' : Position} {error error' : EvalError} {next next' : α → Eval β} :
    Concurs (Evaluation.fail pos error >>= next) (Evaluation.fail pos' error' >>= next') := fun _ _ _ _ => .error

theorem get_bind {next next' : State → Eval β}
    (rest : ∀ {state state'}, Respelled state state' → Concurs (next state) (next' state')) :
    Concurs (MonadState.get >>= next) (MonadState.get >>= next') :=
  fun environment before before' same => rest same environment before before' same

theorem modifyGet {change change' : State → α × State}
    (changed : ∀ {state state'}, Respelled state state' →
      (change state).1 = (change' state').1 ∧ Respelled (change state).2 (change' state').2) :
    Concurs (MonadState.modifyGet change : Eval α) (MonadState.modifyGet change') := by
  intro environment before before' same
  obtain ⟨value, after⟩ := changed same
  have agreed : Agreement (.ok (change before).1, (change before).2) (.ok (change before).1, (change' before').2) :=
    .ok after
  rw [value] at agreed
  change Agreement (.ok (change before).1, (change before).2) (.ok (change' before').1, (change' before').2)
  rwa [value]

theorem modified {change change' : State → State}
    (changed : ∀ {state state'}, Respelled state state' → Respelled (change state) (change' state')) :
    Concurs (modify change : Eval PUnit) (modify change') := fun _ _ _ same => .ok (changed same)

/-- What was reported is not compared. -/
theorem report {event event' : LogEvent} : Concurs (Evaluation.report event) (Evaluation.report event') :=
  modified fun same => { same with }

theorem during {enter enter' : State → State} {restore restore' : State → State → State} {first second : Eval α}
    (inside : Concurs first second)
    (entered : ∀ {state state'}, Respelled state state' → Respelled (enter state) (enter' state'))
    (restored : ∀ {state state' inner inner'}, Respelled state state' → Respelled inner inner' →
      Respelled (restore state inner) (restore' state' inner')) :
    Concurs (Evaluation.during enter restore first) (Evaluation.during enter' restore' second) := by
  intro environment before before' same
  have agreed := inside environment (enter before) (enter' before') (entered same)
  change Agreement ((first.outcome environment (enter before)).1,
      restore before (first.outcome environment (enter before)).2)
    ((second.outcome environment (enter' before')).1,
      restore' before' (second.outcome environment (enter' before')).2)
  generalize first.outcome environment (enter before) = one,
    second.outcome environment (enter' before') = two at agreed ⊢
  cases agreed with
  | ok inner => exact .ok (restored same inner)
  | error => exact .error

theorem andThen {first second : Eval α} {change change' : State → State} (concurs : Concurs first second)
    (changed : ∀ {state state'}, Respelled state state' → Respelled (change state) (change' state')) :
    Concurs (Evaluation.andThen first change) (Evaluation.andThen second change') := by
  intro environment before before' same
  have agreed := concurs environment before before' same
  change Agreement ((first.outcome environment before).1, change (first.outcome environment before).2)
    ((second.outcome environment before').1, change' (second.outcome environment before').2)
  generalize first.outcome environment before = one, second.outcome environment before' = two at agreed ⊢
  cases agreed with
  | ok inner => exact .ok (changed inner)
  | error => exact .error

theorem span {pos : Position} : Concurs (Evaluation.span pos) (Evaluation.span pos) :=
  get_bind fun same => by rw [same.source]; exact pure

theorem push {container : Option Nat} {content : Css.Content} {pos : Position} :
    Concurs (Evaluation.push container content pos) (Evaluation.push container content pos) := by
  apply span.bind
  intro span
  apply modifyGet
  intro state state' same
  have pushed : state.tree.push container content state.place.depth span =
      state'.tree.push container content state'.place.depth span := by rw [same.tree, same.place]
  dsimp only
  rw [pushed]
  exact ⟨rfl, { same with tree := rfl }⟩

theorem pushItem {id : Nat} {item : Css.Item} :
    Concurs (Evaluation.pushItem id item) (Evaluation.pushItem id item) :=
  modified fun same => { same with tree := by rw [same.tree] }

theorem newScope {parent : Nat} {semiGlobal : Bool} :
    Concurs (Evaluation.newScope parent semiGlobal) (Evaluation.newScope parent semiGlobal) := by
  apply modifyGet
  intro state state' same
  refine ⟨same.size, { same with scopes := ?_ }⟩
  rw [Scopes.hyphenated_child, Scopes.hyphenated_child, same.scopes]

theorem declare {scope : Nat} {name : String} {value : Value} :
    Concurs (Evaluation.declare scope name value) (Evaluation.declare scope name value) := by
  apply modified
  intro state state' same
  refine { same with scopes := ?_ }
  rw [Scopes.hyphenated_declare, Scopes.hyphenated_declare, same.scopes]

section Inside

variable {first second : Eval α} (inside : Concurs first second)

include inside

theorem atPlace {place : Place} : Concurs (Evaluation.atPlace place first) (Evaluation.atPlace place second) :=
  inside.during (fun same => { same with place := rfl }) fun same inner => { inner with place := same.place }

theorem inScope {scope : Nat} : Concurs (Evaluation.inScope scope first) (Evaluation.inScope scope second) :=
  inside.during (fun same => { same with place := by rw [same.place] })
    fun same inner => { inner with place := by rw [same.place, inner.place] }

theorem inFile {file : String} : Concurs (Evaluation.inFile file first) (Evaluation.inFile file second) :=
  inside.during (fun same => { same with file := rfl, source := by rw [same.tree, same.source] })
    fun same inner => { inner with file := same.file, source := same.source }

theorem inSheet {sheet : Sheet} {source : Nat} :
    Concurs (Evaluation.inSheet sheet source first) (Evaluation.inSheet sheet source second) :=
  inside.during (fun same => { same with sheet := .refl sheet, file := rfl, source := rfl })
    fun same inner => { inner with sheet := same.sheet, file := same.file, source := same.source }

theorem inFunction : Concurs (Evaluator.inFunction first) (Evaluator.inFunction second) :=
  inside.during (fun same => { same with functionDepth := by rw [same.functionDepth] })
    fun same inner => { inner with functionDepth := same.functionDepth }

theorem inProperty {name : String} : Concurs (Evaluator.inProperty name first) (Evaluator.inProperty name second) :=
  inside.during (fun same => { same with propertyName := rfl })
    fun same inner => { inner with propertyName := same.propertyName }

end Inside

theorem congruence : ScopedCongruence fun {α} (first second : Eval α) => Concurs first second where
  pure := pure
  bind := bind
  read := read
  endless := throw
  fail := fail
  failHere := get_bind fun _ => read.bind fun _ => fail
  told concurs := get_bind fun _ => report.bind fun _ => concurs
  newScope := newScope
  declare := declare
  inScope inside := inside.inScope

/-! What uses no name -/

open Evaluator

theorem resolved {text : String} {pos : Position} : Concurs (resolved text pos) (resolved text pos) := by
  apply get_bind
  intro state state' same
  rw [same.place]
  dsimp only
  split
  · exact pure
  · split
    · exact pure
    · exact fail

theorem declarationTarget {pos : Position} : Concurs (declarationTarget pos) (declarationTarget pos) := by
  apply get_bind
  intro state state' same
  rw [same.place]
  dsimp only
  split
  · exact pure
  · apply push.bind
    intro id
    refine bind (modified fun same => { same with place := by rw [same.place] }) fun _ => pure
  · exact pure
  · exact fail

theorem declared {property : String} {value : Value} {important : Bool} {pos : Position} :
    Concurs (declared property value important pos) (declared property value important pos) := by
  apply read.bind
  intro _
  apply congruence.ofOperation.bind
  intro css
  split
  · exact declarationTarget.bind fun _ => span.bind fun _ => pushItem
  · exact pure

theorem comment {text : Comment} {pos : Position} : Concurs (comment text pos) (comment text pos) := by
  apply get_bind
  intro state state' same
  rw [same.functionDepth, same.place]
  split
  · split
    · exact pushItem
    · exact push.bind fun _ => pure
  · exact pure

theorem tell {kind : MessageKind} {text : String} {pos : Position} :
    Concurs (tell kind text pos) (tell kind text pos) := by
  apply get_bind
  intro state state' same
  cases kind with
  | warn => exact report
  | debug => exact report
  | error => exact fail

theorem refuseInFunction {pos : Position} : Concurs (refuseInFunction pos) (refuseInFunction pos) := by
  apply get_bind
  intro state state' same
  rw [same.functionDepth]
  split
  · exact fail
  · exact pure

theorem effect {first second : Eval Unit} (concurs : Concurs first second) : Concurs (effect first) (effect second) :=
  concurs.bind fun _ => pure

theorem written {first second : Eval Unit} {pos : Position} (concurs : Concurs first second) :
    Concurs (written pos first) (written pos second) :=
  (refuseInFunction.bind fun _ => concurs).effect

theorem withContent {block block' : Option ContentBlock} {first second : Eval α} (concurs : Concurs first second)
    (same : block.map ContentBlock.hyphenated = block'.map ContentBlock.hyphenated) :
    Concurs (withContent block first) (withContent block' second) := by
  refine bind (modified fun alike => { alike with content := ?_ }) fun _ => ?_
  · rw [List.map_cons, List.map_cons, same, alike.content]
  · exact concurs.andThen fun alike => { alike with content := by rw [List.map_tail, List.map_tail, alike.content] }

theorem writeImport {parameters : String} {pos : Position} :
    Concurs (writeImport parameters pos) (writeImport parameters pos) := by
  apply get_bind
  intro state state' same
  rw [same.place]
  exact push.bind fun _ => pure

/-- The same stylesheet is found from both states. -/
theorem findImport {reference : String} {pos : Position} :
    Concurs (findImport reference pos) (findImport reference pos) := by
  intro environment before before' same
  obtain ⟨result, events, one, two⟩ := askHook_searches reference pos environment (before.asking reference pos)
    (before'.asking reference pos) same.sheet
  rw [outcome_findImport, outcome_findImport, one, two]
  cases result with
  | ok found => exact .ok { same with }
  | error failure => exact .error

end Concurs

end Stylesheet.Evaluation
