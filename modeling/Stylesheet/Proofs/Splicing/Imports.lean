import Stylesheet.Proofs.FunctionResults
import Stylesheet.Proofs.Splicing.Statements

/-! An import and the statements that it means run alike. The evaluator that goes down to a depth is followed by every
evaluator that goes as deep, in stylesheets that are alike but for the import. -/

namespace Stylesheet.Evaluation
open Splice Evaluator

variable {α α' β β' : Type} {splice : Splice} {file : String}

/-- Imports are relative to the same stylesheet as before. -/
def SameSheet (before after : State) : Prop := after.sheet = before.sheet

theorem steady_sameSheet : Steady SameSheet where
  refl _ := rfl
  trans first second := second.trans first
  report _ _ := rfl
  push _ _ _ _ := rfl
  pushItem _ _ _ := rfl
  ruleMade _ _ _ _ _ := rfl
  newScope _ _ _ := rfl
  declare _ _ _ _ := rfl
  assign _ _ _ _ _ := rfl
  defineMixin _ _ := rfl
  defineFunction _ _ := rfl
  lookup _ _ _ := rfl
  importing _ _ _ := rfl
  atPlace inside := inside
  inScope inside := inside
  inFile inside := inside
  inSheet _ := rfl
  inFunction inside := inside
  inProperty inside := inside
  atStatement inside := inside
  withContent inside := inside
  content _ inside := inside

/-! An import that stands in both stylesheets -/

theorem findImport_asks (reference : String) (pos : Position) (environment : Environment) (before : State) :
    ⟨reference, pos, before.file, before.sheet, before.functionDepth⟩ ∈
      ((findImport reference pos).outcome environment before).2.lookups :=
  (askHook_along steady_traced.toFlows reference pos (before.asking reference pos)).lookups.subset
    List.mem_cons_self

theorem Follows.findImport {reference : String} {pos : Position} :
    Follows splice file Eq (findImport reference pos) (findImport reference pos) := by
  refine ⟨Along.traces fun _ => findImport_along steady_traced reference pos, fun {environment before before'} _ alike proper => ?_⟩
  have asked := findImport_asks reference pos environment before
  have same : SameImporter before.sheet before'.sheet := alike.sheet.resolve_right (proper.2 _ asked).1
  obtain ⟨result, events, one, two⟩ := askHook_searches reference pos environment (before.asking reference pos)
    (before'.asking reference pos) same
  rw [outcome_findImport, outcome_findImport, one, two]
  cases result with
  | error failure => exact .error rfl
  | ok found => exact .ok rfl { alike with }

theorem Follows.writeImport {parameters : String} {pos : Position} :
    Follows splice file Eq (writeImport parameters pos) (writeImport parameters pos) := by
  refine Follows.get_bind fun alike => ?_
  rw [alike.place]
  exact Follows.push.bind_eq fun _ => .pure rfl

theorem Follows.inSheet {related : α → α' → Prop} {sheet : Sheet} {source source' : Nat} {first : Eval α}
    {second : Eval α'} (follows : Follows splice sheet.path related first second) :
    Follows splice file related (inSheet sheet source first) (inSheet sheet source' second) :=
  follows.during (fun _ => rfl) steady_traced.inSheet (fun _ _ => rfl)
    (fun alike => { alike with sheet := .inl (.refl sheet) }) fun alike inner => { inner with sheet := alike.sheet }

namespace Simulates

variable {first second : Evaluator} (simulates : Simulates splice first second)

include simulates

theorem runSheet (sheet : Sheet) : Follows splice file Eq (first.runSheet sheet) (second.runSheet sheet) := by
  have added : Follows splice file (fun _ _ => True)
      (modifyGet fun state => ((state.tree.addSource sheet.path sheet.source).1, { state with
        tree := (state.tree.addSource sheet.path sheet.source).2, imported := sheet.path :: state.imported }))
      (modifyGet fun state => ((state.tree.addSource sheet.path sheet.source).1, { state with
        tree := (state.tree.addSource sheet.path sheet.source).2, imported := sheet.path :: state.imported })) :=
    .modifyGet (fun state => steady_traced.importing state sheet.path sheet.source) fun alike =>
      ⟨trivial, { alike with tree := by simp only [Css.Tree.bare_addSource, alike.tree] }⟩
  have inside (source source' : Nat) : Follows splice file Eq
      (Evaluation.inSheet sheet source (first.run sheet.statements))
      (Evaluation.inSheet sheet source' (second.run sheet.statements)) := .inSheet (simulates.run (.same _))
  exact Follows.report.bind_eq fun _ => added.bind (fun source => (inside source source).along) fun _ =>
    inside _ _

theorem importTarget (pos : Position) (target : ImportTarget) :
    Follows splice file Eq (first.importTarget pos target) (second.importTarget pos target) := by
  cases target with
  | css text => exact (simulates.text text).bind_eq fun _ => .writeImport
  | sheet reference place =>
    refine Follows.findImport.bind_eq fun found => ?_
    split
    · exact simulates.runSheet _
    · exact .writeImport

theorem imports (pos : Position) (targets : List ImportTarget) :
    Follows splice file Eq (first.imports pos targets) (second.imports pos targets) := by
  induction targets with
  | nil => exact .pure rfl
  | cons target rest tail => exact (simulates.importTarget pos target).bind_eq fun _ => tail

/-! Statements -/

theorem runStatement (statement : Statement) :
    Follows splice file Eq (first.runStatement statement) (second.runStatement statement) := by
  have optional (body : Option (List Statement)) : Option.Rel (Spliced splice file) body body := by
    cases body with
    | none => exact .none
    | some body => exact .some (.same body)
  cases statement with
  | rule pos selector body => exact .written (simulates.rule (.same body) selector pos)
  | declaration pos property value important nested =>
    exact .written (simulates.declaration (.same nested) property (fun _ => rfl) important pos)
  | directive pos name parameters body => exact .written (simulates.directive (optional body) name parameters pos)
  | media pos query body => exact .written (simulates.media (.same body) query pos)
  | assignment pos name value isDefault isGlobal => exact .effect (simulates.assignment name value isDefault isGlobal)
  | mixin pos callable => exact .effect (defineMixin (.same _))
  | function pos callable => exact .effect (defineFunction (.same _))
  | inclusion pos name arguments content =>
    exact .written (simulates.inclusion (optional content) name arguments pos)
  | content pos => exact .effect simulates.content
  | result pos value => exact simulates.result value pos
  | branch pos clauses otherwise =>
    exact simulates.branch (optional otherwise) (List.forall₂_same.2 fun clause _ => ⟨rfl, .same clause.2⟩)
  | forEach pos names items body =>
    exact (simulates.eval items).bind_eq fun _ => Follows.congruence.forEach (simulates.innerBlock (.same body)) names _
  | forRange pos name low high inclusive body =>
    exact Follows.congruence.forRange (simulates.innerBlock (.same body)) simulates.eval name low high inclusive
  | whileTrue pos condition body => exact simulates.whileTrue (.same body) condition simulates.budget
  | imports pos targets => exact .effect (simulates.imports pos targets)
  | message pos kind value => exact .effect (simulates.message kind value pos)
  | unsupported pos name => exact .fail
  | comment pos text => exact .effect .comment

theorem runStatement_alters {statement statement' : Statement} (alters : Alters splice file statement statement') :
    Follows splice file Eq (first.runStatement statement) (second.runStatement statement') := by
  have optional (body : Option (List Statement)) : Option.Rel (Spliced splice file) body body := by
    cases body with
    | none => exact .none
    | some body => exact .some (.same body)
  have unchanged (clauses : List (Expr × List Statement)) : List.Forall₂ (ClauseAlike splice file) clauses clauses :=
    List.forall₂_same.2 fun clause _ => ⟨rfl, .same clause.2⟩
  cases alters with
  | rule inside => exact .written (simulates.rule inside _ _)
  | declaration inside kept =>
    refine .written (simulates.declaration inside _ (fun bare => ?_) _ _)
    rw [Bool.eq_iff_iff, List.isEmpty_iff, List.isEmpty_iff]
    exact ⟨inside.eq_nil, kept bare⟩
  | directive inside => exact .written (simulates.directive (.some inside) _ _ _)
  | media inside => exact .written (simulates.media inside _ _)
  | mixin inside => exact .effect (defineMixin inside)
  | function inside => exact .effect (defineFunction inside)
  | inclusion inside => exact .written (simulates.inclusion (.some inside) _ _ _)
  | clause inside =>
    refine simulates.branch (optional _) ?_
    exact List.rel_append (unchanged _) (.cons ⟨rfl, inside⟩ (unchanged _))
  | otherwise inside => exact simulates.branch (.some inside) (unchanged _)
  | forEach inside => exact (simulates.eval _).bind_eq fun _ =>
    Follows.congruence.forEach (simulates.innerBlock inside) _ _
  | forRange inside => exact Follows.congruence.forRange (simulates.innerBlock inside) simulates.eval _ _ _ _
  | whileTrue inside => exact simulates.whileTrue inside _ simulates.budget

end Simulates

end Stylesheet.Evaluation
