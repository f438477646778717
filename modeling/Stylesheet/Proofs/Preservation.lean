import Stylesheet.Proofs.Tasks

/-! A relation that the single changes of the state keep to is kept by every evaluation, whether it fails or not. -/

namespace Stylesheet.Evaluation

variable {α : Type} {R : State → State → Prop} {before after : State}

/-- The changes of the state that evaluation is made of keep to a relation. Those that hold for the length of an action
are undone behind it. -/
structure Steady (R : State → State → Prop) : Prop extends Flows R where
  push : ∀ state container content pos, R state { state with tree := state.pushed container content pos }
  pushItem : ∀ state id item, R state { state with tree := state.tree.pushItem id item }
  ruleMade : ∀ state selectors pos, state.place.rule = none → state.place.selectors = some selectors →
    R state { state with
      tree := state.pushed state.place.container (.rule selectors) pos
      place.rule := some state.tree.entries.size }
  newScope : ∀ state parent semiGlobal, R state { state with scopes := (state.scopes.child parent semiGlobal).2 }
  declare : ∀ state scope name value, R state { state with scopes := state.scopes.declare scope name value }
  assign : ∀ state name value isDefault isGlobal,
    R state { state with scopes := state.scopes.assign state.place.scope name value isDefault isGlobal }
  defineMixin : ∀ state callable, R state { state with
    scopes := state.scopes.defineMixin state.place.scope ⟨callable, state.place.scope⟩ }
  defineFunction : ∀ state callable, R state { state with
    scopes := state.scopes.defineFunction state.place.scope ⟨callable, state.place.scope⟩ }
  lookup : ∀ state reference pos, R state { state with
    lookups := ⟨reference, pos, state.file, state.sheet, state.functionDepth⟩ :: state.lookups }
  importing : ∀ state path source, R state { state with
    tree := (state.tree.addSource path source).2, imported := path :: state.imported }
  atPlace : ∀ {state place inner}, R { state with place } inner → R state { inner with place := state.place }
  inScope : ∀ {state scope inner}, R { state with place.scope := scope } inner →
    R state { inner with place.scope := state.place.scope }
  inFile : ∀ {state file source inner}, R { state with file, source } inner →
    R state { inner with file := state.file, source := state.source }
  inSheet : ∀ {state sheet file source inner}, R { state with sheet, file, source } inner →
    R state { inner with sheet := state.sheet, file := state.file, source := state.source }
  inFunction : ∀ {state inner}, R { state with functionDepth := state.functionDepth + 1 } inner →
    R state { inner with functionDepth := state.functionDepth }
  inProperty : ∀ {state name inner}, R { state with propertyName := some name } inner →
    R state { inner with propertyName := state.propertyName }
  atStatement : ∀ {state pos inner}, R { state with statementPos := pos } inner →
    R state { inner with statementPos := state.statementPos }
  withContent : ∀ {state block inner}, R { state with content := block :: state.content } inner →
    R state { inner with content := inner.content.tail }
  content : ∀ {state : State} {block outer inner}, state.content = some block :: outer →
    R { state with content := outer } inner → R state { inner with content := some block :: inner.content }

namespace Steady

variable (steady : Steady R) {environment : Environment}

include steady

theorem pushed {container : Option Nat} {content : Css.Content} {pos : Position} :
    AlongIn environment R (Evaluation.push container content pos) :=
  fun before => steady.push before container content pos

theorem itemPushed {id : Nat} {item : Css.Item} : AlongIn environment R (Evaluation.pushItem id item) :=
  AlongIn.modify fun state => steady.pushItem state id item

theorem scopeMade {parent : Nat} {semiGlobal : Bool} :
    AlongIn environment R (Evaluation.newScope parent semiGlobal) :=
  AlongIn.modifyGet fun state => steady.newScope state parent semiGlobal

theorem declared {scope : Nat} {name : String} {value : Value} :
    AlongIn environment R (Evaluation.declare scope name value) :=
  AlongIn.modify fun state => steady.declare state scope name value

/-- Inside of a new node the body has a new scope and a place of its own. -/
theorem inNode {place : Place} {holder : Option Nat} {content : Css.Content} {pos : Position} (within : Nat)
    (body : R { before with
      tree := before.pushed holder content pos
      scopes := (before.scopes.child within false).2
      place } after) : R before { after with place := before.place } := by
  have made := steady.push before holder content pos
  have deeper := steady.newScope { before with tree := before.pushed holder content pos } within false
  exact steady.trans made (steady.trans deeper (steady.atPlace body))

theorem inside {inner outer : Part} {entered : State} {leave : State → State}
    (enters : Enters inner outer before entered leave) (body : R entered after) : R before (leave after) := by
  cases enters with
  | inScope => exact steady.inScope body
  | inFile => exact steady.inFile body
  | inFunction => exact steady.inFunction body
  | inRule => exact steady.inNode _ body
  | inDirective => exact steady.inNode _ body
  | inMedia => exact steady.inNode _ body
  | inProperty => exact steady.inProperty body
  | withContent => exact steady.withContent body
  | content handed => exact steady.content handed body
  | inSheet _ sheet => exact steady.trans (steady.importing before sheet.path sheet.source) (steady.inSheet body)
  | atStatement => exact steady.atStatement body

theorem leads {part : Part} (leads : Leads part before after) : R before after := by
  induction leads with
  | refl part state => exact steady.refl state
  | trans _ _ first second => exact steady.trans first second
  | expression _ same => exact same
  | inside enters _ body => exact steady.inside enters body
  | report part state event => exact steady.report state event
  | newScope part state parent semiGlobal => exact steady.newScope state parent semiGlobal
  | declare part state scope name value => exact steady.declare state scope name value
  | assign state name value isDefault isGlobal => exact steady.assign state name value isDefault isGlobal
  | defineMixin state callable => exact steady.defineMixin state callable
  | defineFunction state callable => exact steady.defineFunction state callable
  | lookup state reference pos => exact steady.lookup state reference pos
  | directive state => exact steady.push state _ _ _
  | comment => exact steady.push _ _ _ _
  | item => exact steady.pushItem _ _ _
  | rule pos _ missing known => exact steady.ruleMade _ _ pos missing known

end Steady

/-- An evaluator keeps to a relation. -/
structure Keeps (R : State → State → Prop) (evaluator : Evaluator) : Prop where
  eval : ∀ expr, Along R (evaluator.eval expr)
  exec : ∀ statement, Along R (evaluator.exec statement)

/-- Every evaluation keeps to a relation that the changes of the state keep to. -/
theorem Steady.evaluator (steady : Steady R) (depth : Nat) : Keeps R (evaluator depth) :=
  ⟨fun expr => ((guided_evaluator depth).eval expr).mono steady.leads,
    fun statement => ((guided_evaluator depth).exec statement).mono steady.leads⟩

namespace Evaluator

/-! The same for the parts of statements, over any evaluator -/

variable {self : Evaluator} {environment : Environment} (steady : Steady R) (keeps : Keeps R self)

include steady keeps

theorem innerBlock_along (bound : List (String × Value)) (body : List Statement) :
    AlongIn environment R (self.innerBlock bound body) := by
  refine steady.bind steady.get fun state => steady.bind steady.scopeMade fun scope => ?_
  refine steady.bind (steady.forIn (fun _ _ => steady.bind steady.declared fun _ => steady.pure) bound _) fun _ => ?_
  exact (block_along steady.toFlows fun statement _ => keeps.exec statement environment).during fun _ _ => steady.inScope

omit keeps in
theorem findImport_along (reference : String) (pos : Position) : AlongIn environment R (findImport reference pos) :=
  steady.bind (AlongIn.modify fun state => steady.lookup state reference pos) fun _ =>
    askHook_along steady.toFlows reference pos

theorem runSheet_along (sheet : Sheet) : AlongIn environment R (self.runSheet sheet) := by
  refine steady.bind steady.reported fun _ => ?_
  refine steady.bind (AlongIn.modifyGet fun state => steady.importing state sheet.path sheet.source) fun source => ?_
  exact (run_along steady.toFlows fun statement _ => keeps.exec statement environment).during fun _ _ => steady.inSheet

omit keeps in
theorem writeImport_along (parameters : String) (pos : Position) : AlongIn environment R (writeImport parameters pos) :=
  steady.bind steady.get fun _ => steady.bind steady.pushed fun _ => steady.pure

theorem importTarget_along (pos : Position) (target : ImportTarget) :
    AlongIn environment R (self.importTarget pos target) := by
  cases target with
  | css text =>
    exact steady.bind (text_along steady.toFlows (keeps.eval · environment) text) fun _ => writeImport_along steady _ pos
  | sheet reference place =>
    refine steady.bind (findImport_along steady reference place) fun found => ?_
    split
    · exact runSheet_along steady keeps _
    · exact writeImport_along steady _ pos

end Evaluator

end Stylesheet.Evaluation
