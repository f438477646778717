import Mathlib.Data.List.Forall2
import Stylesheet.Evaluation

/-! A stylesheet with the statements of an imported one in the place of the import, and when two states of an
evaluation are alike but for that. -/

namespace Stylesheet

/-- The import of a stylesheet with the file that it is written in, and the path and the statements of the stylesheet
that it means. -/
structure Splice where
  reference : String
  pos : Position
  file : String
  path : String
  statements : List Statement

namespace Splice

/-- The import of what stands on one side of a reference, if anything does. -/
def importing (pos : Position) : List ImportTarget → List Statement
  | [] => []
  | targets => [.imports pos targets]

mutual

/-- Two statements of a file are alike but for one import inside them, which the second one has the statements of the
stylesheet for. -/
inductive Alters (splice : Splice) : String → Statement → Statement → Prop
  | rule {file pos selector body body'} (inside : Spliced splice file body body') :
      Alters splice file (.rule pos selector body) (.rule pos selector body')
  | declaration {file pos property value important nested nested'} (inside : Spliced splice file nested nested')
      (kept : value = none → nested' = [] → nested = []) :
      Alters splice file (.declaration pos property value important nested)
        (.declaration pos property value important nested')
  | directive {file pos name parameters body body'} (inside : Spliced splice file body body') :
      Alters splice file (.directive pos name parameters (some body)) (.directive pos name parameters (some body'))
  | media {file pos query body body'} (inside : Spliced splice file body body') :
      Alters splice file (.media pos query body) (.media pos query body')
  | mixin {file pos callable body'} (inside : Spliced splice callable.file callable.body body') :
      Alters splice file (.mixin pos callable) (.mixin pos { callable with body := body' })
  | function {file pos callable body'} (inside : Spliced splice callable.file callable.body body') :
      Alters splice file (.function pos callable) (.function pos { callable with body := body' })
  | inclusion {file pos name arguments content content'} (inside : Spliced splice file content content') :
      Alters splice file (.inclusion pos name arguments (some content)) (.inclusion pos name arguments (some content'))
  | clause {file pos before condition body body' after otherwise} (inside : Spliced splice file body body') :
      Alters splice file (.branch pos (before ++ (condition, body) :: after) otherwise)
        (.branch pos (before ++ (condition, body') :: after) otherwise)
  | otherwise {file pos clauses body body'} (inside : Spliced splice file body body') :
      Alters splice file (.branch pos clauses (some body)) (.branch pos clauses (some body'))
  | forEach {file pos names items body body'} (inside : Spliced splice file body body') :
      Alters splice file (.forEach pos names items body) (.forEach pos names items body')
  | forRange {file pos name first last inclusive body body'} (inside : Spliced splice file body body') :
      Alters splice file (.forRange pos name first last inclusive body) (.forRange pos name first last inclusive body')
  | whileTrue {file pos condition body body'} (inside : Spliced splice file body body') :
      Alters splice file (.whileTrue pos condition body) (.whileTrue pos condition body')

/-- Two lists of statements of a file are alike but for one import, which the second one has the statements of the
stylesheet for. They may also be the same. -/
inductive Spliced (splice : Splice) : String → List Statement → List Statement → Prop
  | same {file} (statements : List Statement) : Spliced splice file statements statements
  | within {file} (before : List Statement) {first second : Statement} (alters : Alters splice file first second)
      (after : List Statement) : Spliced splice file (before ++ first :: after) (before ++ second :: after)
  | here (before : List Statement) (pos : Position) (left right : List ImportTarget) (after : List Statement) :
      Spliced splice splice.file (before ++ .imports pos (left ++ .sheet splice.reference splice.pos :: right) :: after)
        (before ++ (importing pos left ++ splice.statements ++ importing pos right) ++ after)

end

theorem Spliced.eq_nil {splice : Splice} {file : String} {first second : List Statement}
    (inside : Spliced splice file first second) (empty : first = []) : second = [] := by
  cases inside with
  | same => exact empty
  | within => simp at empty
  | here => simp at empty

/-- Two mixins, or two functions, whose bodies are alike. -/
inductive ClosureAlike (splice : Splice) : Closure → Closure → Prop
  | mk {callable : Callable Statement} {body : List Statement}
      (inside : Spliced splice callable.file callable.body body) (scope : Nat) :
      ClosureAlike splice ⟨callable, scope⟩ ⟨{ callable with body }, scope⟩

def BindingsAlike (splice : Splice) : Bindings Closure → Bindings Closure → Prop :=
  List.Forall₂ fun first second => first.1 = second.1 ∧ ClosureAlike splice first.2 second.2

structure ScopeAlike (splice : Splice) (first second : Scope) : Prop where
  values : first.values = second.values
  mixins : BindingsAlike splice first.mixins second.mixins
  functions : BindingsAlike splice first.functions second.functions
  parent : first.parent = second.parent
  semiGlobal : first.semiGlobal = second.semiGlobal

structure ScopesAlike (splice : Splice) (first second : Scopes) : Prop where
  size : first.size = second.size
  scope : ∀ id : Nat, Option.Rel (ScopeAlike splice) first[id]? second[id]?

variable {splice : Splice}

theorem ClosureAlike.refl (closure : Closure) : ClosureAlike splice closure closure := .mk (.same _) _

theorem BindingsAlike.refl (bindings : Bindings Closure) : BindingsAlike splice bindings bindings :=
  List.forall₂_same.2 fun pair _ => ⟨rfl, .refl pair.2⟩

theorem ScopeAlike.refl (scope : Scope) : ScopeAlike splice scope scope := ⟨rfl, .refl _, .refl _, rfl, rfl⟩

theorem ScopesAlike.refl (scopes : Scopes) : ScopesAlike splice scopes scopes := by
  refine ⟨rfl, fun id => ?_⟩
  cases scopes[id]? with
  | none => exact .none
  | some scope => exact .some (.refl scope)

theorem BindingsAlike.lookup {first second : Bindings Closure} (alike : BindingsAlike splice first second)
    (name : String) : Option.Rel (ClosureAlike splice) (first.lookup name) (second.lookup name) := by
  induction alike with
  | nil => exact .none
  | cons head _ tail =>
    obtain ⟨same, closure⟩ := head
    rw [List.lookup_cons, List.lookup_cons, same]
    split
    · exact .some closure
    · exact tail

theorem BindingsAlike.set {first second : Bindings Closure} (alike : BindingsAlike splice first second)
    {closure closure' : Closure} (value : ClosureAlike splice closure closure') (name : String) :
    BindingsAlike splice (first.set name closure) (second.set name closure') := by
  induction alike with
  | nil => exact .cons ⟨rfl, value⟩ .nil
  | cons head rest tail =>
    obtain ⟨same, old⟩ := head
    simp only [Bindings.set, same]
    split
    · exact .cons ⟨rfl, value⟩ rest
    · exact .cons ⟨rfl, old⟩ tail

private theorem rel_eq_iff {α : Type} {first second : Option α} :
    Option.Rel (· = ·) first second ↔ first = second := by
  constructor
  · rintro (same | _)
    · rw [same]
    · rfl
  · rintro rfl
    cases first with
    | none => exact .none
    | some value => exact .some rfl

namespace ScopesAlike

variable {first second : Scopes} (alike : ScopesAlike splice first second)

include alike

theorem chainFrom (steps id : Nat) : first.chainFrom steps id = second.chainFrom steps id := by
  induction steps generalizing id with
  | zero => rfl
  | succ steps outer =>
    simp only [Scopes.chainFrom]
    have related := alike.scope id
    generalize first[id]? = one, second[id]? = two at related
    cases related with
    | none => rfl
    | some scope => simp only [scope.parent, funext outer]

theorem find? {α : Type} {related : α → α → Prop} {look : Scope → Option α}
    (looked : ∀ {scope scope'}, ScopeAlike splice scope scope' → Option.Rel related (look scope) (look scope'))
    (id : Nat) : Option.Rel related (first.find? id look) (second.find? id look) := by
  simp only [Scopes.find?, Scopes.chain, alike.chainFrom]
  induction second.chainFrom (id + 1) id with
  | nil => exact .none
  | cons id rest outer =>
    have here : Option.Rel related (first[id]?.bind look) (second[id]?.bind look) := by
      have related := alike.scope id
      generalize first[id]? = one, second[id]? = two at related
      cases related with
      | none => exact .none
      | some scope => exact looked scope
    simp only [List.findSome?_cons]
    generalize first[id]?.bind look = one, second[id]?.bind look = two at here
    cases here with
    | none => exact outer
    | some found => exact .some found

theorem valueOf? (id : Nat) (name : String) : first.valueOf? id name = second.valueOf? id name := by
  have found : Option.Rel (· = ·) (first.valueOf? id name) (second.valueOf? id name) :=
    alike.find? (fun same => by rw [same.values]; exact rel_eq_iff.2 rfl) id
  exact rel_eq_iff.1 found

theorem mixin? (id : Nat) (name : String) :
    Option.Rel (ClosureAlike splice) (first.mixin? id name) (second.mixin? id name) :=
  alike.find? (fun same => same.mixins.lookup _) id

theorem function? (id : Nat) (name : String) :
    Option.Rel (ClosureAlike splice) (first.function? id name) (second.function? id name) :=
  alike.find? (fun same => same.functions.lookup _) id

theorem binds (id : Nat) (name : String) : first.binds id name = second.binds id name := by
  have related := alike.scope id
  simp only [Scopes.binds]
  generalize first[id]? = one, second[id]? = two at related
  cases related with
  | none => rfl
  | some scope => simp only [Option.any_some, scope.values]

theorem holder? (name : String) (semiGlobal : Bool) (ids : List Nat) :
    first.holder? name semiGlobal ids = second.holder? name semiGlobal ids := by
  induction ids generalizing semiGlobal with
  | nil => rfl
  | cons id rest outer =>
    simp only [Scopes.holder?, alike.binds]
    have related := alike.scope id
    generalize first[id]? = one, second[id]? = two at related
    cases related with
    | none => rfl
    | some scope => simp only [scope.parent, scope.semiGlobal, outer]

/-- A change of one scope keeps scopes alike if it keeps that scope so. -/
theorem modify {id : Nat} {change change' : Scope → Scope}
    (changed : ∀ {scope scope'}, ScopeAlike splice scope scope' → ScopeAlike splice (change scope) (change' scope')) :
    ScopesAlike splice (Array.modify first id change) (Array.modify second id change') := by
  refine ⟨by simpa using alike.size, fun other => ?_⟩
  have related := alike.scope other
  simp only [Array.getElem?_modify]
  split
  · generalize first[other]? = one, second[other]? = two at related
    cases related with
    | none => exact .none
    | some scope => exact .some (changed scope)
  · exact related

theorem child (parent : Nat) (semiGlobal : Bool) :
    (first.child parent semiGlobal).1 = (second.child parent semiGlobal).1 ∧
      ScopesAlike splice (first.child parent semiGlobal).2 (second.child parent semiGlobal).2 := by
  refine ⟨alike.size, by simp [Scopes.child, alike.size], fun id => ?_⟩
  have related := alike.scope id
  simp only [Scopes.child, Array.getElem?_push, alike.size]
  split
  · exact .some (.refl _)
  · exact related

theorem declare (id : Nat) (name : String) (value : Value) :
    ScopesAlike splice (first.declare id name value) (second.declare id name value) :=
  alike.modify fun same => { same with values := by rw [same.values] }

theorem assign (id : Nat) (name : String) (value : Value) (isDefault isGlobal : Bool) :
    ScopesAlike splice (first.assign id name value isDefault isGlobal)
      (second.assign id name value isDefault isGlobal) := by
  have present : (first[Scopes.globalId]?.bind fun scope => scope.values.lookup (normalizeName name)) =
      second[Scopes.globalId]?.bind fun scope => scope.values.lookup (normalizeName name) := by
    have related := alike.scope Scopes.globalId
    generalize first[Scopes.globalId]? = one, second[Scopes.globalId]? = two at related
    cases related with
    | none => rfl
    | some scope => simp only [Option.bind_some, scope.values]
  simp only [Scopes.assign, present, alike.valueOf?, alike.holder?, Scopes.chain, alike.chainFrom]
  split
  · split
    · exact alike
    · exact alike.declare _ _ _
  · split
    · exact alike
    · exact alike.declare _ _ _

theorem defineMixin {closure closure' : Closure} (value : ClosureAlike splice closure closure') (id : Nat) :
    ScopesAlike splice (first.defineMixin id closure) (second.defineMixin id closure') := by
  have name : closure.callable.name = closure'.callable.name := by cases value; rfl
  refine alike.modify fun same => { same with mixins := ?_ }
  rw [name]
  exact same.mixins.set value _

theorem defineFunction {closure closure' : Closure} (value : ClosureAlike splice closure closure') (id : Nat) :
    ScopesAlike splice (first.defineFunction id closure) (second.defineFunction id closure') := by
  have name : closure.callable.name = closure'.callable.name := by cases value; rfl
  refine alike.modify fun same => { same with functions := ?_ }
  rw [name]
  exact same.functions.set value _

end ScopesAlike

end Splice

end Stylesheet
