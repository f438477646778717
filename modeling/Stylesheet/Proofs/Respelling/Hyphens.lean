import Stylesheet.Evaluation

/-! Names of variables and mixins written with hyphens only. Two stylesheets that differ in how these names are written
are the same once all underscores in them are hyphens. Names of functions and names of arguments stay as they are. -/

namespace Stylesheet

@[simp] theorem normalizeName_normalizeName (name : String) :
    normalizeName (normalizeName name) = normalizeName name := by
  apply String.ext
  simp only [normalizeName, String.toList_map, List.map_map]
  apply List.map_congr_left
  intro c _
  by_cases underscore : c = '_'
  · simp [underscore]
  · simp [underscore]

mutual

def Expr.hyphenated : Expr → Expr
  | .literal value => .literal value
  | .string text quoted => .string (Expr.hyphenatedPieces text) quoted
  | .variable name pos => .variable (normalizeName name) pos
  | .binary op left right pos => .binary op left.hyphenated right.hyphenated pos
  | .unary op operand pos => .unary op operand.hyphenated pos
  | .list items separator bracketed => .list (Expr.hyphenatedAll items) separator bracketed
  | .map entries pos => .map (Expr.hyphenatedEntries entries) pos
  | .call name arguments pos => .call name arguments.hyphenated pos
  | .paren inner => .paren inner.hyphenated

def Expr.hyphenatedPieces : List (Piece Expr) → List (Piece Expr)
  | [] => []
  | .text s :: rest => .text s :: Expr.hyphenatedPieces rest
  | .code e :: rest => .code e.hyphenated :: Expr.hyphenatedPieces rest

def Expr.hyphenatedAll : List Expr → List Expr
  | [] => []
  | e :: rest => e.hyphenated :: Expr.hyphenatedAll rest

def Expr.hyphenatedEntries : List (Expr × Expr) → List (Expr × Expr)
  | [] => []
  | (key, value) :: rest => (key.hyphenated, value.hyphenated) :: Expr.hyphenatedEntries rest

def Arguments.hyphenated : Arguments Expr → Arguments Expr
  | ⟨positional, keyword, rest⟩ =>
    ⟨Expr.hyphenatedAll positional, Arguments.hyphenatedKeyword keyword, Expr.hyphenatedRest rest⟩

def Arguments.hyphenatedKeyword : List (String × Expr) → List (String × Expr)
  | [] => []
  | (name, value) :: rest => (name, value.hyphenated) :: Arguments.hyphenatedKeyword rest

def Expr.hyphenatedRest : Option Expr → Option Expr
  | none => none
  | some e => some e.hyphenated

end

def Template.hyphenated (template : Template Expr) : Template Expr := Expr.hyphenatedPieces template

def Parameter.hyphenated (parameter : Parameter) : Parameter :=
  ⟨normalizeName parameter.name, parameter.default.map Expr.hyphenated⟩

def ImportTarget.hyphenated : ImportTarget → ImportTarget
  | .sheet reference pos => .sheet reference pos
  | .css text => .css text.hyphenated

mutual

def Statement.hyphenated : Statement → Statement
  | .rule pos selector body => .rule pos selector.hyphenated (hyphenatedAll body)
  | .declaration pos property value important nested =>
    .declaration pos property.hyphenated (value.map Expr.hyphenated) important (hyphenatedAll nested)
  | .directive pos name parameters body => .directive pos name parameters.hyphenated (hyphenatedBlock body)
  | .media pos query body => .media pos query.hyphenated (hyphenatedAll body)
  | .assignment pos name value isDefault isGlobal =>
    .assignment pos (normalizeName name) value.hyphenated isDefault isGlobal
  | .mixin pos callable => .mixin pos { hyphenatedCallable callable with name := normalizeName callable.name }
  | .function pos callable => .function pos (hyphenatedCallable callable)
  | .inclusion pos name arguments block =>
    .inclusion pos (normalizeName name) arguments.hyphenated (hyphenatedBlock block)
  | .content pos => .content pos
  | .result pos value => .result pos value.hyphenated
  | .branch pos clauses otherwise => .branch pos (hyphenatedClauses clauses) (hyphenatedBlock otherwise)
  | .forEach pos names items body => .forEach pos (names.map normalizeName) items.hyphenated (hyphenatedAll body)
  | .forRange pos name first last inclusive body =>
    .forRange pos (normalizeName name) first.hyphenated last.hyphenated inclusive (hyphenatedAll body)
  | .whileTrue pos condition body => .whileTrue pos condition.hyphenated (hyphenatedAll body)
  | .imports pos targets => .imports pos (targets.map ImportTarget.hyphenated)
  | .message pos kind value => .message pos kind value.hyphenated
  | .unsupported pos name => .unsupported pos name
  | .comment pos text => .comment pos text

def Statement.hyphenatedAll : List Statement → List Statement
  | [] => []
  | s :: rest => s.hyphenated :: hyphenatedAll rest

def Statement.hyphenatedBlock : Option (List Statement) → Option (List Statement)
  | none => none
  | some body => some (hyphenatedAll body)

def Statement.hyphenatedClauses : List (Expr × List Statement) → List (Expr × List Statement)
  | [] => []
  | (condition, body) :: rest => (condition.hyphenated, hyphenatedAll body) :: hyphenatedClauses rest

def Statement.hyphenatedCallable : Callable Statement → Callable Statement
  | ⟨name, parameters, rest, body, file⟩ =>
    ⟨name, parameters.map Parameter.hyphenated, rest.map normalizeName, hyphenatedAll body, file⟩

end

theorem Expr.hyphenatedAll_eq_map (items : List Expr) : hyphenatedAll items = items.map hyphenated := by
  induction items with
  | nil => rfl
  | cons item rest tail => rw [hyphenatedAll, tail, List.map_cons]

theorem Arguments.hyphenatedKeyword_eq_map (arguments : List (String × Expr)) :
    hyphenatedKeyword arguments = arguments.map fun argument => (argument.1, argument.2.hyphenated) := by
  induction arguments with
  | nil => rfl
  | cons argument rest tail => rw [hyphenatedKeyword, tail, List.map_cons]

theorem Statement.pos_hyphenated (statement : Statement) : statement.hyphenated.pos = statement.pos := by
  cases statement <;> rfl

theorem Statement.isEmpty_hyphenatedAll (statements : List Statement) :
    (hyphenatedAll statements).isEmpty = statements.isEmpty := by
  cases statements <;> rfl

mutual

/-- An error in an expression is told at the same place. -/
theorem Expr.place?_hyphenated : (expr : Expr) →
    Evaluation.Evaluator.place? expr.hyphenated = Evaluation.Evaluator.place? expr
  | .literal _ | .string _ _ | .variable _ _ | .binary _ _ _ _ | .unary _ _ _ | .map _ _ | .call _ _ _ => rfl
  | .paren inner => place?_hyphenated inner
  | .list items _ _ => firstPlace?_hyphenated items

theorem Expr.firstPlace?_hyphenated : (items : List Expr) →
    Evaluation.Evaluator.firstPlace? (hyphenatedAll items) = Evaluation.Evaluator.firstPlace? items
  | [] => rfl
  | item :: _ => place?_hyphenated item

end

/-! What has hyphens only stays as it is. -/

mutual

theorem Expr.hyphenated_again (expr : Expr) : expr.hyphenated.hyphenated = expr.hyphenated := by
  cases expr with
  | literal _ => rfl
  | string text quoted => simp only [Expr.hyphenated, Expr.hyphenatedPieces_again text]
  | «variable» name pos => simp only [Expr.hyphenated, normalizeName_normalizeName]
  | binary op left right pos =>
    simp only [Expr.hyphenated, Expr.hyphenated_again left, Expr.hyphenated_again right]
  | unary op operand pos => simp only [Expr.hyphenated, Expr.hyphenated_again operand]
  | list items separator bracketed => simp only [Expr.hyphenated, Expr.hyphenatedAll_again items]
  | map entries pos => simp only [Expr.hyphenated, Expr.hyphenatedEntries_again entries]
  | call name arguments pos => simp only [Expr.hyphenated, Arguments.hyphenated_again arguments]
  | paren inner => simp only [Expr.hyphenated, Expr.hyphenated_again inner]

theorem Expr.hyphenatedPieces_again : (pieces : List (Piece Expr)) →
    Expr.hyphenatedPieces (Expr.hyphenatedPieces pieces) = Expr.hyphenatedPieces pieces
  | [] => rfl
  | .text s :: rest => by simp only [Expr.hyphenatedPieces, Expr.hyphenatedPieces_again rest]
  | .code e :: rest => by simp only [Expr.hyphenatedPieces, Expr.hyphenated_again e, Expr.hyphenatedPieces_again rest]

theorem Expr.hyphenatedAll_again : (items : List Expr) →
    Expr.hyphenatedAll (Expr.hyphenatedAll items) = Expr.hyphenatedAll items
  | [] => rfl
  | e :: rest => by simp only [Expr.hyphenatedAll, Expr.hyphenated_again e, Expr.hyphenatedAll_again rest]

theorem Expr.hyphenatedEntries_again : (entries : List (Expr × Expr)) →
    Expr.hyphenatedEntries (Expr.hyphenatedEntries entries) = Expr.hyphenatedEntries entries
  | [] => rfl
  | (key, value) :: rest => by
    simp only [Expr.hyphenatedEntries, Expr.hyphenated_again key, Expr.hyphenated_again value,
      Expr.hyphenatedEntries_again rest]

theorem Arguments.hyphenated_again : (arguments : Arguments Expr) →
    arguments.hyphenated.hyphenated = arguments.hyphenated
  | ⟨positional, keyword, rest⟩ => by
    simp only [Arguments.hyphenated, Expr.hyphenatedAll_again positional, Arguments.hyphenatedKeyword_again keyword,
      Expr.hyphenatedRest_again rest]

theorem Arguments.hyphenatedKeyword_again : (arguments : List (String × Expr)) →
    Arguments.hyphenatedKeyword (Arguments.hyphenatedKeyword arguments) = Arguments.hyphenatedKeyword arguments
  | [] => rfl
  | (name, value) :: rest => by
    simp only [Arguments.hyphenatedKeyword, Expr.hyphenated_again value, Arguments.hyphenatedKeyword_again rest]

theorem Expr.hyphenatedRest_again : (rest : Option Expr) →
    Expr.hyphenatedRest (Expr.hyphenatedRest rest) = Expr.hyphenatedRest rest
  | none => rfl
  | some e => by simp only [Expr.hyphenatedRest, Expr.hyphenated_again e]

end

theorem Template.hyphenated_again (template : Template Expr) : template.hyphenated.hyphenated = template.hyphenated :=
  Expr.hyphenatedPieces_again template

theorem Expr.map_hyphenated_again (value : Option Expr) :
    (value.map hyphenated).map hyphenated = value.map hyphenated := by
  cases value with
  | none => rfl
  | some e => exact congrArg some e.hyphenated_again

theorem Parameter.hyphenated_again (parameter : Parameter) :
    parameter.hyphenated.hyphenated = parameter.hyphenated := by
  simp only [hyphenated, normalizeName_normalizeName, Expr.map_hyphenated_again]

theorem ImportTarget.hyphenated_again (target : ImportTarget) : target.hyphenated.hyphenated = target.hyphenated := by
  cases target with
  | sheet reference pos => rfl
  | css text => simp only [hyphenated, Template.hyphenated_again]

mutual

theorem Statement.hyphenated_again : (statement : Statement) → statement.hyphenated.hyphenated = statement.hyphenated
  | .rule pos selector body => by simp only [Statement.hyphenated, Template.hyphenated_again, hyphenatedAll_again body]
  | .declaration pos property value important nested => by
    simp only [Statement.hyphenated, Template.hyphenated_again, Expr.map_hyphenated_again, hyphenatedAll_again nested]
  | .directive pos name parameters body => by
    simp only [Statement.hyphenated, Template.hyphenated_again, hyphenatedBlock_again body]
  | .media pos query body => by simp only [Statement.hyphenated, Template.hyphenated_again, hyphenatedAll_again body]
  | .assignment pos name value isDefault isGlobal => by
    simp only [Statement.hyphenated, normalizeName_normalizeName, Expr.hyphenated_again]
  | .mixin pos ⟨name, parameters, rest, body, file⟩ => by
    simp only [Statement.hyphenated, hyphenatedCallable, normalizeName_normalizeName, List.map_map, Option.map_map,
      Function.comp_def, Parameter.hyphenated_again, hyphenatedAll_again body]
  | .function pos ⟨name, parameters, rest, body, file⟩ => by
    simp only [Statement.hyphenated, hyphenatedCallable, normalizeName_normalizeName, List.map_map, Option.map_map,
      Function.comp_def, Parameter.hyphenated_again, hyphenatedAll_again body]
  | .inclusion pos name arguments block => by
    simp only [Statement.hyphenated, normalizeName_normalizeName, Arguments.hyphenated_again,
      hyphenatedBlock_again block]
  | .content _ => rfl
  | .result pos value => by simp only [Statement.hyphenated, Expr.hyphenated_again]
  | .branch pos clauses otherwise => by
    simp only [Statement.hyphenated, hyphenatedClauses_again clauses, hyphenatedBlock_again otherwise]
  | .forEach pos names items body => by
    simp only [Statement.hyphenated, normalizeName_normalizeName, List.map_map, Function.comp_def,
      Expr.hyphenated_again, hyphenatedAll_again body]
  | .forRange pos name first last inclusive body => by
    simp only [Statement.hyphenated, normalizeName_normalizeName, Expr.hyphenated_again, hyphenatedAll_again body]
  | .whileTrue pos condition body => by
    simp only [Statement.hyphenated, Expr.hyphenated_again, hyphenatedAll_again body]
  | .imports pos targets => by
    simp only [Statement.hyphenated, List.map_map, Function.comp_def, ImportTarget.hyphenated_again]
  | .message pos kind value => by simp only [Statement.hyphenated, Expr.hyphenated_again]
  | .unsupported _ _ => rfl
  | .comment _ _ => rfl

theorem Statement.hyphenatedAll_again : (statements : List Statement) →
    hyphenatedAll (hyphenatedAll statements) = hyphenatedAll statements
  | [] => rfl
  | s :: rest => by simp only [hyphenatedAll, hyphenated_again s, hyphenatedAll_again rest]

theorem Statement.hyphenatedBlock_again : (block : Option (List Statement)) →
    hyphenatedBlock (hyphenatedBlock block) = hyphenatedBlock block
  | none => rfl
  | some body => by simp only [hyphenatedBlock, hyphenatedAll_again body]

theorem Statement.hyphenatedClauses_again : (clauses : List (Expr × List Statement)) →
    hyphenatedClauses (hyphenatedClauses clauses) = hyphenatedClauses clauses
  | [] => rfl
  | (condition, body) :: rest => by
    simp only [hyphenatedClauses, Expr.hyphenated_again, hyphenatedAll_again body, hyphenatedClauses_again rest]

end

/-! Scopes look names up in the form that has hyphens only, so they hardly notice. -/

/-- The name of a mixin or a function is told only in the log and in failures. -/
def Closure.hyphenated (closure : Closure) : Closure :=
  ⟨{ Statement.hyphenatedCallable closure.callable with name := normalizeName closure.callable.name }, closure.scope⟩

section Parts

variable (closure : Closure)

theorem Closure.parameters_hyphenated :
    closure.hyphenated.callable.parameters = closure.callable.parameters.map Parameter.hyphenated := by
  obtain ⟨⟨_, _, _, _, _⟩, _⟩ := closure
  rfl

theorem Closure.rest_hyphenated : closure.hyphenated.callable.rest = closure.callable.rest.map normalizeName := by
  obtain ⟨⟨_, _, _, _, _⟩, _⟩ := closure
  rfl

theorem Closure.body_hyphenated :
    closure.hyphenated.callable.body = Statement.hyphenatedAll closure.callable.body := by
  obtain ⟨⟨_, _, _, _, _⟩, _⟩ := closure
  rfl

theorem Closure.file_hyphenated : closure.hyphenated.callable.file = closure.callable.file := by
  obtain ⟨⟨_, _, _, _, _⟩, _⟩ := closure
  rfl

theorem Closure.hyphenated_again : closure.hyphenated.hyphenated = closure.hyphenated := by
  obtain ⟨⟨name, parameters, rest, body, file⟩, scope⟩ := closure
  simp only [Closure.hyphenated, Statement.hyphenatedCallable, normalizeName_normalizeName, List.map_map,
    Option.map_map, Function.comp_def, Parameter.hyphenated_again, Statement.hyphenatedAll_again]

omit closure in
/-- A function keeps its name, which a closure has in either form. -/
theorem Closure.hyphenated_function (callable : Callable Statement) (scope : Nat) :
    Closure.hyphenated ⟨Statement.hyphenatedCallable callable, scope⟩ = Closure.hyphenated ⟨callable, scope⟩ := by
  obtain ⟨name, parameters, rest, body, file⟩ := callable
  simp only [Closure.hyphenated, Statement.hyphenatedCallable, normalizeName_normalizeName, List.map_map,
    Option.map_map, Function.comp_def, Parameter.hyphenated_again, Statement.hyphenatedAll_again]

end Parts

def Bindings.hyphenated (bindings : Bindings Closure) : Bindings Closure :=
  bindings.map fun binding => (binding.1, binding.2.hyphenated)

def Scope.hyphenated (scope : Scope) : Scope :=
  { scope with mixins := scope.mixins.hyphenated, functions := scope.functions.hyphenated }

def Scopes.hyphenated (scopes : Scopes) : Scopes := scopes.map Scope.hyphenated

theorem Bindings.lookup_hyphenated (bindings : Bindings Closure) (name : String) :
    List.lookup name bindings.hyphenated = (List.lookup name bindings).map Closure.hyphenated := by
  induction bindings with
  | nil => rfl
  | cons binding rest tail =>
    obtain ⟨other, closure⟩ := binding
    have split : Bindings.hyphenated ((other, closure) :: rest) =
        (other, closure.hyphenated) :: Bindings.hyphenated rest :=
      rfl
    rw [split, List.lookup_cons, List.lookup_cons, tail]
    cases name == other <;> rfl

theorem Bindings.hyphenated_set (bindings : Bindings Closure) (name : String) (closure : Closure) :
    (bindings.set name closure).hyphenated = bindings.hyphenated.set name closure.hyphenated := by
  induction bindings with
  | nil => rfl
  | cons binding rest tail =>
    obtain ⟨other, old⟩ := binding
    have split : Bindings.hyphenated ((other, old) :: rest) = (other, old.hyphenated) :: Bindings.hyphenated rest := rfl
    rw [split]
    unfold Bindings.set
    by_cases same : other = name
    · rw [if_pos same, if_pos same]
      rfl
    · rw [if_neg same, if_neg same, ← tail]
      rfl

namespace Scopes

variable (scopes : Scopes) (id : Nat) (name : String)

theorem size_hyphenated : scopes.hyphenated.size = scopes.size := Array.size_map

theorem getElem?_hyphenated : scopes.hyphenated[id]? = scopes[id]?.map Scope.hyphenated := Array.getElem?_map

theorem chainFrom_hyphenated (steps : Nat) : scopes.hyphenated.chainFrom steps id = scopes.chainFrom steps id := by
  induction steps generalizing id with
  | zero => rfl
  | succ steps outer =>
    simp only [chainFrom, getElem?_hyphenated, funext outer]
    cases scopes[id]? <;> rfl

theorem find?_hyphenated {α : Type} {look : Scope → Option α} {f : α → α}
    (looked : ∀ scope : Scope, look scope.hyphenated = (look scope).map f) :
    scopes.hyphenated.find? id look = (scopes.find? id look).map f := by
  unfold find? chain
  rw [chainFrom_hyphenated]
  induction scopes.chainFrom (id + 1) id with
  | nil => rfl
  | cons id rest outer =>
    have here : (scopes.hyphenated[id]?.bind look) = (scopes[id]?.bind look).map f := by
      rw [getElem?_hyphenated]
      cases scopes[id]? with
      | none => rfl
      | some scope => exact looked scope
    rw [List.findSome?_cons, List.findSome?_cons, here]
    cases scopes[id]?.bind look with
    | none => exact outer
    | some found => rfl

theorem valueOf?_hyphenated : scopes.hyphenated.valueOf? id name = scopes.valueOf? id name := by
  let look (scope : Scope) := scope.values.lookup (normalizeName name)
  have found : scopes.hyphenated.find? id look = (scopes.find? id look).map fun v => v :=
    scopes.find?_hyphenated id fun scope => by rw [Option.map_id']; rfl
  rwa [Option.map_id'] at found

theorem mixin?_hyphenated : scopes.hyphenated.mixin? id name = (scopes.mixin? id name).map Closure.hyphenated :=
  scopes.find?_hyphenated id fun scope => scope.mixins.lookup_hyphenated _

theorem function?_hyphenated :
    scopes.hyphenated.function? id name = (scopes.function? id name).map Closure.hyphenated :=
  scopes.find?_hyphenated id fun scope => scope.functions.lookup_hyphenated _

theorem binds_hyphenated : scopes.hyphenated.binds id name = scopes.binds id name := by
  unfold binds
  rw [getElem?_hyphenated]
  cases scopes[id]? <;> rfl

theorem holder?_hyphenated (semiGlobal : Bool) (ids : List Nat) :
    scopes.hyphenated.holder? name semiGlobal ids = scopes.holder? name semiGlobal ids := by
  induction ids generalizing semiGlobal with
  | nil => rfl
  | cons id rest outer =>
    simp only [holder?, binds_hyphenated, getElem?_hyphenated, outer]
    cases scopes[id]? <;> rfl

theorem hyphenated_modify {change change' : Scope → Scope}
    (changed : ∀ scope, (change scope).hyphenated = change' scope.hyphenated) :
    hyphenated (Array.modify scopes id change) = Array.modify scopes.hyphenated id change' := by
  apply Array.ext_getElem?
  intro other
  rw [getElem?_hyphenated, Array.getElem?_modify, Array.getElem?_modify, getElem?_hyphenated]
  split
  · cases scopes[other]? with
    | none => rfl
    | some scope => exact congrArg some (changed scope)
  · rfl

theorem hyphenated_child (semiGlobal : Bool) :
    (scopes.child id semiGlobal).2.hyphenated = (scopes.hyphenated.child id semiGlobal).2 := by
  unfold child hyphenated
  rw [Array.map_push]
  rfl

theorem hyphenated_declare (value : Value) :
    (scopes.declare id name value).hyphenated = scopes.hyphenated.declare id name value :=
  scopes.hyphenated_modify id fun _ => rfl

theorem hyphenated_assign (value : Value) (isDefault isGlobal : Bool) :
    (scopes.assign id name value isDefault isGlobal).hyphenated =
      scopes.hyphenated.assign id name value isDefault isGlobal := by
  have present : (scopes.hyphenated[globalId]?.bind fun scope => scope.values.lookup (normalizeName name)) =
      scopes[globalId]?.bind fun scope => scope.values.lookup (normalizeName name) := by
    rw [getElem?_hyphenated]
    cases scopes[globalId]? <;> rfl
  simp only [assign, present, valueOf?_hyphenated, holder?_hyphenated, chain, chainFrom_hyphenated]
  split
  · split
    · rfl
    · exact hyphenated_declare _ _ _ _
  · split
    · rfl
    · exact hyphenated_declare _ _ _ _

theorem hyphenated_defineMixin (closure : Closure) :
    (scopes.defineMixin id closure).hyphenated = scopes.hyphenated.defineMixin id closure.hyphenated := by
  have named : normalizeName closure.hyphenated.callable.name = normalizeName closure.callable.name :=
    normalizeName_normalizeName _
  unfold defineMixin
  rw [named]
  apply hyphenated_modify
  intro scope
  simp only [Scope.hyphenated, Bindings.hyphenated_set]

theorem hyphenated_defineFunction (closure : Closure) :
    (scopes.defineFunction id closure).hyphenated = scopes.hyphenated.defineFunction id closure.hyphenated := by
  have named : normalizeName closure.hyphenated.callable.name = normalizeName closure.callable.name :=
    normalizeName_normalizeName _
  unfold defineFunction
  rw [named]
  apply hyphenated_modify
  intro scope
  simp only [Scope.hyphenated, Bindings.hyphenated_set]

/-! A name may be given in either form. -/

theorem valueOf?_normalizeName : scopes.valueOf? id (normalizeName name) = scopes.valueOf? id name := by
  unfold valueOf?
  rw [normalizeName_normalizeName]

theorem mixin?_normalizeName : scopes.mixin? id (normalizeName name) = scopes.mixin? id name := by
  unfold mixin?
  rw [normalizeName_normalizeName]

theorem declare_normalizeName (value : Value) :
    scopes.declare id (normalizeName name) value = scopes.declare id name value := by
  unfold declare
  rw [normalizeName_normalizeName]

theorem binds_normalizeName : scopes.binds id (normalizeName name) = scopes.binds id name := by
  unfold binds
  rw [normalizeName_normalizeName]

theorem holder?_normalizeName (semiGlobal : Bool) (ids : List Nat) :
    scopes.holder? (normalizeName name) semiGlobal ids = scopes.holder? name semiGlobal ids := by
  induction ids generalizing semiGlobal with
  | nil => rfl
  | cons id rest outer => simp only [holder?, binds_normalizeName, outer]

theorem assign_normalizeName (value : Value) (isDefault isGlobal : Bool) :
    scopes.assign id (normalizeName name) value isDefault isGlobal =
      scopes.assign id name value isDefault isGlobal := by
  simp only [assign, normalizeName_normalizeName, valueOf?_normalizeName, holder?_normalizeName, declare_normalizeName]

end Scopes

end Stylesheet
