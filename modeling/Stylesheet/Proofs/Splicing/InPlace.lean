import Stylesheet.Proofs.Splicing.Imports

/-! The statements of an imported stylesheet, in the place of the import. They run from the scope, the rule and the
block that the import stands in, so the two evaluations stay alike. -/

namespace Stylesheet.Evaluation
open Splice Evaluator

variable {α α' β β' : Type} {splice : Splice} {file : String} {related : α → α' → Prop} {related' : β → β' → Prop}

/-! What only one of two actions does -/

theorem Follows.bind_left {first : Eval α} {second : Eval α'} {next : α → β} {onward : β → α' → Prop}
    (follows : Follows splice file related first second)
    (rest : ∀ {value value'}, related value value' → onward (next value) value') :
    Follows splice file onward (do return next (← first)) second := by
  rw [← bind_pure second]
  exact follows.bind (fun _ => Along.traces fun _ => steady_traced.pure) fun same => .pure (rest same)

theorem Follows.bind_right {first : Eval α} {second : Eval α'} {next : α' → β} {onward : α → β → Prop}
    (follows : Follows splice file related first second)
    (rest : ∀ {value value'}, related value value' → onward value (next value')) :
    Follows splice file onward first (do return next (← second)) := by
  rw [← bind_pure first]
  exact follows.bind (fun _ => Along.traces fun _ => steady_traced.pure) fun same => .pure (rest same)

theorem Follows.atStatement_left {pos : Position} {first : Eval α} {second : Eval α'}
    (follows : Follows splice file related first second) :
    Follows splice file related (Evaluation.during ({ · with statementPos := pos })
      (fun before after => { after with statementPos := before.statementPos }) first) second := by
  have outer : Follows splice file related (Evaluation.during ({ · with statementPos := pos })
      (fun before after => { after with statementPos := before.statementPos }) first)
      (Evaluation.during id (fun _ after => after) second) :=
    follows.during id steady_traced.atStatement (fun _ _ => rfl) (fun alike => { alike with })
      fun _ inner => { inner with }
  exact outer

theorem Follows.atStatement_right {pos : Position} {first : Eval α} {second : Eval α'}
    (follows : Follows splice file related first second) :
    Follows splice file related first (Evaluation.during ({ · with statementPos := pos })
      (fun before after => { after with statementPos := before.statementPos }) second) := by
  have outer : Follows splice file related (Evaluation.during id (fun _ after => after) first)
      (Evaluation.during ({ · with statementPos := pos })
        (fun before after => { after with statementPos := before.statementPos }) second) :=
    follows.during id id (fun _ _ => rfl) (fun alike => { alike with }) fun _ inner => { inner with }
  exact outer

/-- The first action is a part of the imported stylesheet, and the second one stays in the stylesheet around it. -/
theorem Follows.inSheet_left {sheet : Sheet} {source : Nat} {first : Eval α} {second : Eval α'}
    (follows : Follows splice sheet.path related first second) (imported : sheet.path = splice.path)
    (along : Along SameSheet second) : Follows splice file related (Evaluation.inSheet sheet source first) second := by
  refine ⟨fun _ => steady_traced.inSheet (follows.along rfl), fun {environment before before'} _ alike proper => ?_⟩
  let entered : State := { before with sheet, file := sheet.path, source }
  have inside : Proper splice environment (first.outcome environment entered) → _ :=
    follows.agree rfl { alike with sheet := .inr imported }
  have kept : (second.outcome environment before').2.sheet = before'.sheet := along environment before'
  change Proper splice environment ((first.outcome environment entered).1,
    { (first.outcome environment entered).2 with sheet := before.sheet, file := before.file, source := before.source })
    at proper
  change Agree splice related ((first.outcome environment entered).1,
    { (first.outcome environment entered).2 with sheet := before.sheet, file := before.file, source := before.source })
    (second.outcome environment before')
  generalize first.outcome environment entered = one, second.outcome environment before' = two at inside kept proper ⊢
  cases inside ⟨proper.1, proper.2⟩ with
  | ok same inner => exact .ok same { inner with sheet := kept ▸ alike.sheet }
  | error same => exact .error same

/-! Blocks -/

theorem block_append (evaluator : Evaluator) (front back : List Statement) :
    evaluator.block (front ++ back) = (do
      match ← evaluator.block front with
      | some value => return some value
      | none => evaluator.block back) := by
  induction front with
  | nil => rw [List.nil_append, Evaluator.block, pure_bind]
  | cons statement rest tail =>
    rw [List.cons_append, Evaluator.block, Evaluator.block, bind_assoc]
    congr 1
    funext value
    cases value with
    | none => exact tail
    | some value => rw [pure_bind]

theorem imports_append (evaluator : Evaluator) (pos : Position) (front back : List ImportTarget) :
    evaluator.imports pos (front ++ back) = (do evaluator.imports pos front; evaluator.imports pos back) := by
  induction front with
  | nil => rw [List.nil_append, Evaluator.imports, pure_bind]
  | cons target rest tail => rw [List.cons_append, Evaluator.imports, Evaluator.imports, tail, bind_assoc]

/-- A block in two parts runs alike if both parts do. -/
theorem Follows.block_append {first second : Evaluator} {front front' back back' : List Statement}
    (leading : Follows splice file Eq (first.block front) (second.block front'))
    (trailing : Follows splice file Eq (first.block back) (second.block back')) :
    Follows splice file Eq (first.block (front ++ back)) (second.block (front' ++ back')) := by
  rw [Evaluation.block_append, Evaluation.block_append]
  refine leading.bind_eq fun value => ?_
  cases value with
  | some value => exact .pure rfl
  | none => exact trailing

theorem Follows.block_single {first second : Evaluator} {statement : Statement} {statements : List Statement}
    (follows : Follows splice file Eq (first.exec statement) (second.block statements)) :
    Follows splice file Eq (first.block [statement]) (second.block statements) := by
  have alone : first.block [statement] = first.exec statement := by
    rw [Evaluator.block]
    conv => rhs; rw [← bind_pure (first.exec statement)]
    congr 1
    funext value
    cases value <;> rfl
  rw [alone]
  exact follows

theorem block_spliced {first second : Evaluator}
    (exec : ∀ {file} statement, Follows splice file Eq (first.exec statement) (second.exec statement))
    (alters : ∀ {file statement statement'}, Alters splice file statement statement' →
      Follows splice file Eq (first.exec statement) (second.exec statement'))
    (here : ∀ pos left right, Follows splice splice.file Eq
      (first.exec (.imports pos (left ++ .sheet splice.reference splice.pos :: right)))
      (second.block (importing pos left ++ splice.statements ++ importing pos right)))
    {statements statements' : List Statement} (spliced : Spliced splice file statements statements') :
    Follows splice file Eq (first.block statements) (second.block statements') := by
  have same {file : String} (statements : List Statement) :
      Follows splice file Eq (first.block statements) (second.block statements) := by
    induction statements with
    | nil => exact .pure rfl
    | cons statement rest tail =>
      refine (exec statement).bind_eq fun value => ?_
      cases value with
      | some value => exact .pure rfl
      | none => exact tail
  cases spliced with
  | same => exact same statements
  | within before altered after =>
    refine .block_append (same before) ((alters altered).bind_eq fun value => ?_)
    cases value with
    | some value => exact .pure rfl
    | none => exact same after
  | here before pos left right after =>
    rw [List.append_cons before]
    exact .block_append (.block_append (same before) (.block_single (here pos left right))) (same after)

/-! The import and what it means -/

/-- No value is given. -/
def NoValue (_ : α) (value : Option Value) : Prop := value = none

variable {first : Evaluator} {depth : Nat}

/-- What stands beside the import of the stylesheet is imported on its own. -/
theorem Follows.importing (simulates : Simulates splice first (Evaluation.evaluator depth)) (pos : Position)
    (targets : List ImportTarget) :
    Follows splice file NoValue (first.imports pos targets)
      ((Evaluation.evaluator (depth + 1)).block (importing pos targets)) := by
  cases targets with
  | nil => exact .pure rfl
  | cons target rest =>
    have done : Follows splice file NoValue (first.imports pos (target :: rest))
        (Evaluator.effect ((Evaluation.evaluator depth).imports pos (target :: rest))) :=
      (simulates.imports pos (target :: rest)).bind_right fun _ => rfl
    have alone : Follows splice file NoValue (first.imports pos (target :: rest))
        ((Evaluation.evaluator (depth + 1)).exec (.imports pos (target :: rest))) := .atStatement_right done
    rw [← bind_pure (first.imports pos (target :: rest))]
    refine alone.bind (fun _ => Along.traces fun _ => steady_traced.pure) fun {_ value} none => ?_
    obtain rfl : value = Option.none := none
    exact .pure rfl

/-- The stylesheet that is imported runs like its statements in the place of the import. -/
theorem Follows.runSheet_left (simulates : Simulates splice first (Evaluation.evaluator depth)) {sheet : Sheet}
    (path : sheet.path = splice.path) (statements : sheet.statements = splice.statements) :
    Follows splice file (fun _ _ => True) (first.runSheet sheet)
      ((Evaluation.evaluator depth).block splice.statements) := by
  have reported : Follows splice file Eq (Evaluation.report (.importing sheet.path)) (Pure.pure ()) :=
    ⟨Along.traces fun _ => steady_traced.reported, fun _ alike _ => .ok rfl { alike with }⟩
  have added : Follows splice file (fun _ _ => True)
      (MonadState.modifyGet fun state => ((state.tree.addSource sheet.path sheet.source).1, { state with
        tree := (state.tree.addSource sheet.path sheet.source).2, imported := sheet.path :: state.imported }))
      (Pure.pure () : Eval Unit) :=
    ⟨Along.traces fun _ => .modifyGet fun state => steady_traced.importing state sheet.path sheet.source,
      fun _ alike _ => .ok trivial { alike with tree := by simp only [Css.Tree.bare_addSource, alike.tree] }⟩
  have along : Along SameSheet ((Evaluation.evaluator depth).block splice.statements) :=
    fun environment =>
    block_along steady_sameSheet.toFlows fun statement _ => (steady_sameSheet.evaluator depth).exec statement environment
  have inside {source : Nat} : Follows splice file (fun _ _ => True)
      (Evaluation.inSheet sheet source (first.run sheet.statements))
      ((Evaluation.evaluator depth).block splice.statements) := by
    rw [statements]
    exact .inSheet_left ((simulates.block (.same splice.statements)).bind_left fun _ => trivial) path along
  exact reported.bind_eq fun _ => added.bind (fun _ => inside.along) fun _ => inside

theorem importTarget_asks (keeps : Keeps Traced first) (pos place : Position) (reference : String)
    (environment : Environment) (before : State) :
    ⟨reference, place, before.file, before.sheet, before.functionDepth⟩ ∈
      ((first.importTarget pos (.sheet reference place)).outcome environment before).2.lookups := by
  have asked := findImport_asks reference place environment before
  rw [importTarget, outcome_bind]
  rcases outcome : (findImport reference place).outcome environment before with ⟨result, between⟩
  rw [outcome] at asked
  cases result with
  | error failure => exact asked
  | ok found =>
    cases found with
    | none => exact (writeImport_along steady_traced _ pos between).lookups.subset asked
    | some sheet => exact (runSheet_along steady_traced keeps sheet between).lookups.subset asked

/-- The import of the stylesheet stands outside of functions, so all statements in its place are run. -/
theorem Follows.importTarget_left (keeps : Keeps Traced first)
    (simulates : Simulates splice first (Evaluation.evaluator depth)) (pos : Position) :
    Follows splice splice.file NoValue (first.importTarget pos (.sheet splice.reference splice.pos))
      ((Evaluation.evaluator depth).block splice.statements) := by
  refine ⟨Along.traces fun _ => importTarget_along steady_traced keeps pos _,
    fun {environment before before'} written alike proper => ?_⟩
  have suits := (proper.2 _ (importTarget_asks keeps pos splice.pos splice.reference environment before)).2
  obtain ⟨outside, finds⟩ := suits rfl rfl written
  obtain ⟨sheet, after, found, path, statements⟩ := finds before rfl
  have reached : (first.importTarget pos (.sheet splice.reference splice.pos)).outcome environment before =
      (first.runSheet sheet).outcome environment after := by
    rw [importTarget, outcome_bind, found]
  obtain ⟨result, events, searched, -⟩ := askHook_searches splice.reference splice.pos environment
    (before.asking splice.reference splice.pos) (before.asking splice.reference splice.pos) (.refl _)
  have state := (Prod.mk.inj (searched.symm.trans found)).2
  have there : after.file = splice.file := by rw [← state]; exact written
  have onward : Alike splice after before' := by rw [← state]; exact { alike with }
  rw [reached] at proper ⊢
  have agree := (Follows.runSheet_left simulates path statements).agree there onward proper
  rcases second : ((Evaluation.evaluator depth).block splice.statements).outcome environment before' with ⟨result, last⟩
  rw [second] at agree
  generalize (first.runSheet sheet).outcome environment after = one at agree
  cases agree with
  | ok _ reached => exact .ok (block_none (alike.functionDepth ▸ outside) second) reached
  | error same => exact .error same

/-- What gives no value runs like a part of a block. -/
theorem Follows.block_after {second : Evaluator} {action next : Eval Unit} {front back : List Statement}
    (leading : Follows splice file NoValue action (second.block front))
    (trailing : Follows splice file NoValue next (second.block back)) :
    Follows splice file NoValue (do action; next) (second.block (front ++ back)) := by
  rw [Evaluation.block_append]
  refine leading.bind (fun _ => trailing.along) fun {_ value} none => ?_
  obtain rfl : value = Option.none := none
  exact trailing

/-- An evaluator is followed by every evaluator that goes as deep. -/
theorem evaluator_simulates (splice : Splice) {depth depth' : Nat} (deeper : depth ≤ depth') :
    Simulates splice (evaluator depth) (evaluator depth') := by
  induction depth generalizing depth' with
  | zero =>
    exact ⟨fun _ => .endless, block_spliced (fun _ => .endless) (fun _ => .endless) fun _ _ _ => .endless, deeper⟩
  | succ depth shallower =>
    obtain ⟨depth', rfl⟩ : ∃ n, depth' = n + 1 := ⟨depth' - 1, by omega⟩
    have inside : Simulates splice (evaluator depth) (evaluator depth') := shallower (by omega)
    have beside : Simulates splice (evaluator depth) (evaluator (depth' + 1)) := shallower (by omega)
    have keeps : Keeps Traced (evaluator depth) := steady_traced.evaluator depth
    have here (pos : Position) (left right : List ImportTarget) : Follows splice splice.file Eq
        ((evaluator (depth + 1)).exec (.imports pos (left ++ .sheet splice.reference splice.pos :: right)))
        ((evaluator (depth' + 1)).block (importing pos left ++ splice.statements ++ importing pos right)) := by
      have all : Follows splice splice.file NoValue
          ((evaluator depth).imports pos (left ++ .sheet splice.reference splice.pos :: right))
          ((evaluator (depth' + 1)).block (importing pos left ++ splice.statements ++ importing pos right)) := by
        rw [imports_append, List.append_assoc]
        exact (Follows.importing inside pos left).block_after
          ((Follows.importTarget_left keeps beside pos).block_after (.importing inside pos right))
      have done : Follows splice splice.file Eq
          (effect ((evaluator depth).imports pos (left ++ .sheet splice.reference splice.pos :: right)))
          ((evaluator (depth' + 1)).block (importing pos left ++ splice.statements ++ importing pos right)) :=
        all.bind_left fun none => none.symm
      exact done.atStatement_left
    refine ⟨inside.evalStep, block_spliced (fun statement => ?_) (fun altered => ?_) here, deeper⟩
    · exact (inside.runStatement statement).atStatement
    · exact (inside.runStatement_alters altered).atStatement

end Stylesheet.Evaluation
