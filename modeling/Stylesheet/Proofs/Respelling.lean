import Stylesheet.Proofs.ImportedText
import Stylesheet.Proofs.Respelling.Concurrence

/-! Hyphens and underscores in the names of variables and mixins. However these names are written, a stylesheet is
evaluated in the same way: each statement concurs with the one that has hyphens only. -/

namespace Stylesheet.Evaluation

variable {α β : Type}

/-- The evaluator that writes names with hyphens before it evaluates. -/
def Evaluator.hyphenating (self : Evaluator) : Evaluator :=
  { budget := self.budget
    eval := fun expr => self.eval expr.hyphenated
    exec := fun statement => self.exec statement.hyphenated }

/-! It does what the evaluator does with the written form of the whole. -/

namespace Evaluator

variable (self : Evaluator)

theorem mapM_hyphenating (items : List Expr) :
    items.mapM self.hyphenating.eval = (Expr.hyphenatedAll items).mapM self.eval := by
  rw [Expr.hyphenatedAll_eq_map, List.mapM_map]
  rfl

theorem text_hyphenating (template : Template Expr) :
    self.hyphenating.text template = self.text template.hyphenated := by
  induction template with
  | nil => rfl
  | cons piece rest tail =>
    cases piece with
    | text s =>
      change (do return s ++ (← self.hyphenating.text rest)) = _
      rw [tail]
      rfl
    | code expr =>
      change (do
        let value ← self.eval expr.hyphenated
        return value.interpolated (← read).places ++ (← self.hyphenating.text rest)) = _
      rw [tail]
      rfl

theorem entries_hyphenating (pairs : List (Expr × Expr)) (map : List (Value × Value)) :
    self.hyphenating.entries pairs map = self.entries (Expr.hyphenatedEntries pairs) map := by
  induction pairs generalizing map with
  | nil => rfl
  | cons pair rest tail =>
    obtain ⟨key, value⟩ := pair
    unfold entries Expr.hyphenatedEntries
    simp only [tail]
    rfl

theorem positional_hyphenating (arguments : Arguments Expr) :
    self.hyphenating.positional arguments = self.positional arguments.hyphenated := by
  obtain ⟨positional, keyword, rest⟩ := arguments
  unfold Evaluator.positional
  rw [mapM_hyphenating]
  cases rest <;> rfl

theorem keywords_hyphenating (arguments : List (String × Expr)) :
    self.hyphenating.keywords arguments = self.keywords (Arguments.hyphenatedKeyword arguments) := by
  unfold keywords
  rw [Arguments.hyphenatedKeyword_eq_map, List.mapM_map]
  rfl

theorem allArguments_hyphenating (arguments : Arguments Expr) :
    self.hyphenating.allArguments arguments = self.allArguments arguments.hyphenated := by
  obtain ⟨positional, keyword, rest⟩ := arguments
  unfold allArguments
  rw [mapM_hyphenating]
  simp only [keywords_hyphenating]
  cases rest <;> rfl

theorem fillByName_hyphenating (builtin : Builtin) (pos : Position) (arguments : List (String × Expr))
    (slots : List (Option Value)) : self.hyphenating.fillByName builtin pos arguments slots =
      self.fillByName builtin pos (Arguments.hyphenatedKeyword arguments) slots := by
  induction arguments generalizing slots with
  | nil => rfl
  | cons argument rest tail =>
    obtain ⟨name, expr⟩ := argument
    unfold fillByName Arguments.hyphenatedKeyword
    simp only [tail]
    rfl

theorem callBuiltin_hyphenating (builtin : Builtin) (arguments : Arguments Expr) (pos : Position) :
    self.hyphenating.callBuiltin builtin arguments pos = self.callBuiltin builtin arguments.hyphenated pos := by
  unfold callBuiltin
  rw [positional_hyphenating]
  simp only [fillByName_hyphenating]
  cases arguments
  rfl

theorem callPlain_hyphenating (name : String) (arguments : Arguments Expr) :
    self.hyphenating.callPlain name arguments = self.callPlain name arguments.hyphenated := by
  obtain ⟨positional, keyword, rest⟩ := arguments
  unfold callPlain
  simp only [positional_hyphenating, Arguments.hyphenated, Arguments.hyphenatedKeyword_eq_map, List.mapM_map]
  rfl

mutual

theorem cssValue_hyphenating (self : Evaluator) : (expr : Expr) →
    self.hyphenating.cssValue expr = self.cssValue expr.hyphenated
  | .list items separator bracketed => by
    unfold Expr.hyphenated cssValue
    rw [cssValues_hyphenating self items]
  | .binary op left right pos => by
    unfold Expr.hyphenated
    cases op with
    | div =>
      cases left with
      | literal value =>
        cases value with
        | number a =>
          cases right with
          | literal value => cases value <;> rfl
          | _ => rfl
        | _ => rfl
      | _ => rfl
    | _ => rfl
  | .literal _ | .string _ _ | .variable _ _ | .unary _ _ _ | .map _ _ | .call _ _ _ | .paren _ => rfl

theorem cssValues_hyphenating (self : Evaluator) : (items : List Expr) →
    self.hyphenating.cssValues items = self.cssValues (Expr.hyphenatedAll items)
  | [] => rfl
  | item :: rest => by
    unfold Expr.hyphenatedAll cssValues
    rw [cssValue_hyphenating self item, cssValues_hyphenating self rest]

end

theorem integer_hyphenating (expr : Expr) : self.hyphenating.integer expr = self.integer expr.hyphenated := by
  unfold integer
  rw [Expr.place?_hyphenated]
  rfl

/-! The parts of a condition -/

def Condition.hyphenated (parts : Condition) : Condition :=
  ⟨parts.condition.map Expr.hyphenated, parts.ifTrue.map Expr.hyphenated, parts.ifFalse.map Expr.hyphenated⟩

theorem Condition.set?_hyphenated (parts : Condition) (name : String) (expr : Expr) :
    parts.hyphenated.set? name expr.hyphenated = (parts.set? name expr).map hyphenated := by
  unfold set?
  split <;> rfl

theorem Condition.ofPositional_hyphenated (exprs : List Expr) :
    ofPositional (Expr.hyphenatedAll exprs) = (ofPositional exprs).hyphenated := by
  rw [Expr.hyphenatedAll_eq_map]
  simp only [ofPositional, hyphenated, List.getElem?_map]

/-- Sets the part of a condition that an argument names. -/
def setPart (pos : Position) (parts : Condition) (argument : String × Expr) : Eval Condition :=
  match parts.set? (normalizeName argument.1) argument.2 with
  | some parts => pure parts
  | none => fail pos (.unknownArgument (normalizeName argument.1))

/-- Chooses between two expressions, once the parts of the condition are known. -/
def choose (pos : Position) (parts : Condition) : Eval Value := do
  match parts with
  | ⟨some condition, some ifTrue, some ifFalse⟩ =>
    if (← self.eval condition).isTruthy then self.eval ifTrue else self.eval ifFalse
  | _ => fail pos .conditionArguments

theorem callIf_eq (arguments : Arguments Expr) (pos : Position) :
    self.callIf arguments pos =
      arguments.keyword.foldlM (setPart pos) (Condition.ofPositional arguments.positional) >>= self.choose pos := rfl

/-! Names that are bound may be given in either form. -/

theorem declare_normalizeName (scope : Nat) (name : String) (value : Value) :
    declare scope (normalizeName name) value = declare scope name value := by
  unfold declare
  simp only [Scopes.declare_normalizeName]

theorem innerBlock_normalizeName (bound : List (String × Value)) (body : List Statement) :
    self.innerBlock (bound.map fun pair => (normalizeName pair.1, pair.2)) body = self.innerBlock bound body := by
  unfold innerBlock
  simp only [List.forIn_map, declare_normalizeName]

theorem bindItem_normalizeName (names : List String) (item : Value) :
    bindItem (names.map normalizeName) item = (bindItem names item).map fun pair => (normalizeName pair.1, pair.2) := by
  match names with
  | [] => rfl
  | [name] => rfl
  | first :: second :: rest =>
    simp only [bindItem, List.map_cons, List.zipIdx_cons, List.zipIdx_map, List.map_map]
    rfl

theorem forEach_normalizeName (names : List String) (body : List Statement) (items : List Value) :
    self.forEach (names.map normalizeName) body items = self.forEach names body items := by
  induction items with
  | nil => rfl
  | cons item rest tail =>
    unfold forEach
    rw [tail, bindItem_normalizeName, innerBlock_normalizeName]

theorem countFrom_normalizeName (name : String) (unit : Units) (body : List Statement) (step : Int) (count : Nat)
    (next : Int) :
    self.countFrom (normalizeName name) unit body step count next = self.countFrom name unit body step count next := by
  induction count generalizing next with
  | zero => rfl
  | succ count tail =>
    have bound := self.innerBlock_normalizeName [(name, .number ⟨Float.ofInt next, unit⟩)] body
    rw [List.map_cons, List.map_nil] at bound
    unfold countFrom
    rw [bound]
    simp only [tail]

end Evaluator

/-- An evaluator that does the same for a statement or an expression and for the one with hyphens only. -/
structure Respelling (evaluator : Evaluator) : Prop where
  eval : ∀ expr, Concurs (evaluator.eval expr) (evaluator.eval expr.hyphenated)
  exec : ∀ statement, Concurs (evaluator.exec statement) (evaluator.exec statement.hyphenated)

namespace Respelling
open Evaluator

variable {self : Evaluator} (respelling : Respelling self)

include respelling

theorem text (template : Template Expr) : Concurs (self.text template) (self.text template.hyphenated) := by
  rw [← text_hyphenating]
  exact Concurs.congruence.text respelling.eval template

theorem block (statements : List Statement) :
    Concurs (self.block statements) (self.block (Statement.hyphenatedAll statements)) := by
  induction statements with
  | nil => exact .pure
  | cons statement rest tail =>
    apply (respelling.exec statement).bind
    intro value
    cases value with
    | some value => exact .pure
    | none => exact tail

/-- Two blocks that are the same but for the writing of names do the same. -/
theorem block_alike {first second : List Statement}
    (same : Statement.hyphenatedAll first = Statement.hyphenatedAll second) :
    Concurs (self.block first) (self.block second) :=
  (respelling.block first).trans (same ▸ (respelling.block second).symm)

theorem run_alike {first second : List Statement}
    (same : Statement.hyphenatedAll first = Statement.hyphenatedAll second) :
    Concurs (self.run first) (self.run second) :=
  (respelling.block_alike same).bind fun _ => .pure

theorem run (statements : List Statement) :
    Concurs (self.run statements) (self.run (Statement.hyphenatedAll statements)) :=
  (respelling.block statements).bind fun _ => .pure

theorem innerBlock (body : List Statement) (bound : List (String × Value)) :
    Concurs (self.innerBlock bound body) (self.innerBlock bound (Statement.hyphenatedAll body)) := by
  apply Concurs.get_bind
  intro state state' same
  rw [same.place]
  apply Concurs.newScope.bind
  intro scope
  apply (Concurs.congruence.forIn (fun _ _ => Concurs.declare.bind fun _ => .pure) bound _).bind
  intro _
  exact (respelling.block body).inScope

/-! Calls. The names of parameters may be written in either form where they are bound. -/

theorem bindParameters (scope : Nat) (pos : Position) (parameters : List Parameter) (values : List Value)
    (named : List (String × Value)) :
    Concurs (self.bindParameters scope pos parameters values named)
      (self.bindParameters scope pos (parameters.map Parameter.hyphenated) values named) := by
  induction parameters generalizing values named with
  | nil => exact .pure
  | cons parameter rest tail =>
    cases values with
    | cons value values =>
      apply Concurs.bind
      · change Concurs _ (declare scope (normalizeName parameter.name) value)
        rw [declare_normalizeName]
        exact .declare
      · exact fun _ => tail values named
    | nil =>
      simp only [Evaluator.bindParameters, List.map_cons, Parameter.hyphenated, normalizeName_normalizeName,
        declare_normalizeName]
      cases List.lookup (normalizeName parameter.name) named with
      | some value => exact Concurs.declare.bind fun _ => tail _ _
      | none =>
        cases parameter.default with
        | some default =>
          exact (respelling.eval default).inScope.bind fun _ => Concurs.declare.bind fun _ => tail _ _
        | none => exact .fail

theorem parameterScope (closure : Closure) (pos : Position) (values : List Value) (named : List (String × Value)) :
    Concurs (self.parameterScope closure pos values named)
      (self.parameterScope closure.hyphenated pos values named) := by
  obtain ⟨⟨name, parameters, rest, body, file⟩, outer⟩ := closure
  apply Concurs.newScope.bind
  intro scope
  apply (respelling.bindParameters scope pos parameters values named).bind
  intro left
  have remaining : Concurs (bindRest rest scope pos left.1 left.2)
      (bindRest (rest.map normalizeName) scope pos left.1 left.2) := by
    cases rest with
    | none => exact Concurs.congruence.bindRest none scope pos left.1 left.2
    | some rest =>
      change Concurs (declare scope rest _) (declare scope (normalizeName rest) _)
      rw [declare_normalizeName]
      exact .declare
  exact remaining.bind fun _ => .pure

/-- How a mixin or a function is written makes no difference to the binding of its arguments. -/
theorem bindArguments {closure closure' : Closure} (same : closure.hyphenated = closure'.hyphenated)
    (arguments : Arguments Expr) (pos : Position) :
    Concurs (self.bindArguments closure arguments pos) (self.bindArguments closure' arguments.hyphenated pos) := by
  have scopes (values : List Value) (named : List (String × Value)) :
      Concurs (self.parameterScope closure pos values named) (self.parameterScope closure' pos values named) :=
    (respelling.parameterScope closure pos values named).trans
      (same ▸ (respelling.parameterScope closure' pos values named).symm)
  have rest : closure.callable.rest.isNone = closure'.callable.rest.isNone := by
    rw [← Option.isNone_map (f := normalizeName), ← Closure.rest_hyphenated, same, Closure.rest_hyphenated,
      Option.isNone_map]
  have count : closure.callable.parameters.length = closure'.callable.parameters.length := by
    rw [← List.length_map (f := Parameter.hyphenated), ← Closure.parameters_hyphenated, same,
      Closure.parameters_hyphenated, List.length_map]
  have given : Concurs (self.allArguments arguments) (self.allArguments arguments.hyphenated) := by
    rw [← allArguments_hyphenating]
    exact Concurs.congruence.allArguments respelling.eval arguments
  apply given.bind
  intro found
  dsimp only
  rw [rest, count]
  split
  · exact Concurs.fail.bind fun _ => scopes _ _
  · exact scopes _ _

omit respelling in
theorem file_alike {closure closure' : Closure} (same : closure.hyphenated = closure'.hyphenated) :
    closure.callable.file = closure'.callable.file := by
  rw [← Closure.file_hyphenated, same, Closure.file_hyphenated]

omit respelling in
theorem body_alike {closure closure' : Closure} (same : closure.hyphenated = closure'.hyphenated) :
    Statement.hyphenatedAll closure.callable.body = Statement.hyphenatedAll closure'.callable.body := by
  rw [← Closure.body_hyphenated, same, Closure.body_hyphenated]

theorem callFunction {closure closure' : Closure} (same : closure.hyphenated = closure'.hyphenated)
    (arguments : Arguments Expr) (pos : Position) :
    Concurs (self.callFunction closure arguments pos) (self.callFunction closure' arguments.hyphenated pos) := by
  apply Concurs.report.bind
  intro _
  apply (respelling.bindArguments same arguments pos).bind
  intro scope
  rw [file_alike same]
  apply (respelling.block_alike (body_alike same)).inFunction.inFile.inScope.bind
  intro value
  cases value with
  | some value => exact Concurs.congruence.checkResult value pos
  | none => exact .fail

theorem choose (pos : Position) (parts : Condition) :
    Concurs (self.choose pos parts) (self.choose pos parts.hyphenated) := by
  obtain ⟨condition, ifTrue, ifFalse⟩ := parts
  cases condition with
  | none => exact .fail
  | some condition =>
    cases ifTrue with
    | none => exact .fail
    | some ifTrue =>
      cases ifFalse with
      | none => exact .fail
      | some ifFalse =>
        apply (respelling.eval condition).bind
        intro value
        split
        · exact respelling.eval ifTrue
        · exact respelling.eval ifFalse

/-- By induction on the arguments that go by name, of which each sets a part. -/
theorem parts (pos : Position) (arguments : List (String × Expr)) (start : Condition) :
    Concurs (arguments.foldlM (setPart pos) start >>= self.choose pos)
      ((Arguments.hyphenatedKeyword arguments).foldlM (setPart pos) start.hyphenated >>= self.choose pos) := by
  induction arguments generalizing start with
  | nil =>
    simp only [Arguments.hyphenatedKeyword, List.foldlM_nil, pure_bind]
    exact respelling.choose pos start
  | cons argument rest tail =>
    obtain ⟨name, expr⟩ := argument
    simp only [Arguments.hyphenatedKeyword, List.foldlM_cons, bind_assoc, setPart, Condition.set?_hyphenated]
    cases start.set? (normalizeName name) expr with
    | none => exact .fail_bind
    | some parts =>
      simp only [Option.map_some, pure_bind]
      exact tail parts

theorem callIf (arguments : Arguments Expr) (pos : Position) :
    Concurs (self.callIf arguments pos) (self.callIf arguments.hyphenated pos) := by
  obtain ⟨positional, keyword, rest⟩ := arguments
  rw [callIf_eq, callIf_eq]
  simp only [Arguments.hyphenated, Condition.ofPositional_hyphenated]
  exact respelling.parts pos keyword _

theorem callNameQuery {function : String} {query : State → String → Bool} (known : nameQuery? function = some query)
    (arguments : Arguments Expr) (pos : Position) :
    Concurs (self.callNameQuery function query arguments pos)
      (self.callNameQuery function query arguments.hyphenated pos) := by
  -- No question for a name depends on how names are written.
  have answer {state state' : State} (same : Respelled state state') (name : String) :
      query state name = query state' name := by
    unfold nameQuery? at known
    split at known
    · cases known
      dsimp only
      rw [same.place, same.valueOf?]
    · cases known
      exact same.binds _ _
    · cases known
      dsimp only
      have both := congrArg Option.isSome (same.function? state.place.scope name)
      rw [Option.isSome_map, Option.isSome_map] at both
      rw [both, same.place]
    · cases known
      dsimp only
      have both := congrArg Option.isSome (same.mixin? state.place.scope name)
      rw [Option.isSome_map, Option.isSome_map] at both
      rw [both, same.place]
    · cases known
  have given : Concurs (self.positional arguments) (self.positional arguments.hyphenated) := by
    rw [← positional_hyphenating]
    exact Concurs.congruence.positional respelling.eval arguments
  apply given.bind
  intro values
  split
  · apply Concurs.get_bind
    intro state state' same
    rw [answer same]
    exact .pure
  · exact .fail

theorem call (name : String) (arguments : Arguments Expr) (pos : Position) :
    Concurs (self.call name arguments pos) (self.call name arguments.hyphenated pos) := by
  apply Concurs.get_bind
  intro state state' same
  rw [same.place]
  have found := same.function? state'.place.scope name
  cases first : state.scopes.function? state'.place.scope name with
  | some function =>
    cases second : state'.scopes.function? state'.place.scope name with
    | some function' =>
      rw [first, second] at found
      exact respelling.callFunction (Option.some.inj found) arguments pos
    | none =>
      rw [first, second] at found
      cases found
  | none =>
    cases second : state'.scopes.function? state'.place.scope name with
    | some function' =>
      rw [first, second] at found
      cases found
    | none =>
      dsimp only
      split
      · exact respelling.callIf arguments pos
      · split
        · next known => exact respelling.callNameQuery known arguments pos
        · rw [← callBuiltin_hyphenating]
          exact Concurs.congruence.callBuiltin respelling.eval _ arguments pos
        · rw [← callPlain_hyphenating]
          exact Concurs.congruence.callPlain respelling.eval name arguments

theorem evalStep (expr : Expr) : Concurs (self.evalStep expr) (self.evalStep expr.hyphenated) := by
  cases expr with
  | literal value => exact .pure
  | string text quoted => exact (respelling.text text).bind fun _ => .pure
  | «variable» name pos =>
    apply Concurs.get_bind
    intro state state' same
    rw [Scopes.valueOf?_normalizeName, same.place, same.valueOf?]
    split
    · exact .pure
    · exact .fail
  | binary op left right pos =>
    have given : ∀ operand, Concurs (self.eval operand) (self.hyphenating.eval operand) := respelling.eval
    exact Concurs.congruence.binary given op left right pos
  | unary op operand pos => exact (respelling.eval operand).bind fun _ => Concurs.read.bind fun _ => .pure
  | list items separator bracketed =>
    have given : Concurs (items.mapM self.eval) ((Expr.hyphenatedAll items).mapM self.eval) := by
      rw [← mapM_hyphenating]
      exact Concurs.congruence.mapM respelling.eval items
    exact given.bind fun _ => .pure
  | map entries pos =>
    have given : Concurs (self.entries entries []) (self.entries (Expr.hyphenatedEntries entries) []) := by
      rw [← entries_hyphenating]
      exact Concurs.congruence.entries respelling.eval entries []
    exact given.bind fun _ => .pure
  | call name arguments pos => exact respelling.call name arguments pos
  | paren inner => exact respelling.eval inner

/-! Control directives -/

theorem branch (clauses : List (Expr × List Statement)) (otherwise : Option (List Statement)) :
    Concurs (self.branch otherwise clauses)
      (self.branch (Statement.hyphenatedBlock otherwise) (Statement.hyphenatedClauses clauses)) := by
  induction clauses with
  | nil =>
    cases otherwise with
    | none => exact .pure
    | some body => exact respelling.innerBlock body []
  | cons clause rest tail =>
    obtain ⟨condition, body⟩ := clause
    apply (respelling.eval condition).bind
    intro value
    split
    · exact respelling.innerBlock body []
    · exact tail

theorem whileTrue (condition : Expr) (body : List Statement) (rounds : Nat) :
    Concurs (self.whileTrue condition body rounds)
      (self.whileTrue condition.hyphenated (Statement.hyphenatedAll body) rounds) := by
  induction rounds with
  | zero => exact .throw
  | succ rounds tail =>
    apply (respelling.eval condition).bind
    intro value
    split
    · apply (respelling.innerBlock body []).bind
      intro value
      cases value with
      | some value => exact .pure
      | none => exact tail
    · exact .pure

theorem forRange (name : String) (first last : Expr) (inclusive : Bool) (body : List Statement) :
    Concurs (self.forRange name first last inclusive body)
      (self.forRange (normalizeName name) first.hyphenated last.hyphenated inclusive
        (Statement.hyphenatedAll body)) := by
  have bounds (expr : Expr) : Concurs (self.integer expr) (self.integer expr.hyphenated) := by
    rw [← integer_hyphenating]
    exact Concurs.congruence.integer respelling.eval expr
  apply (bounds first).bind
  intro low
  apply (bounds last).bind
  intro high
  dsimp only
  rw [countFrom_normalizeName]
  exact Concurs.congruence.countFrom (respelling.innerBlock body) name _ _ _ _

/-! Output -/

theorem rule (selector : Template Expr) (body : List Statement) (pos : Position) :
    Concurs (self.rule selector body pos) (self.rule selector.hyphenated (Statement.hyphenatedAll body) pos) := by
  apply (respelling.text selector).bind
  intro text
  apply Concurs.resolved.bind
  intro selectors
  apply Concurs.get_bind
  intro state state' same
  rw [same.place]
  exact Concurs.push.bind fun _ => Concurs.newScope.bind fun _ => (respelling.run body).atPlace

theorem declaration (property : Template Expr) (value : Option Expr) (important : Bool) (nested : List Statement)
    (pos : Position) :
    Concurs (self.declaration property value important nested pos)
      (self.declaration property.hyphenated (value.map Expr.hyphenated) important (Statement.hyphenatedAll nested)
        pos) := by
  have inner {name : String} :
      Concurs (if !nested.isEmpty then inProperty name (self.run nested) else Pure.pure ())
        (if !nested.isEmpty then inProperty name (self.run (Statement.hyphenatedAll nested)) else Pure.pure ()) := by
    split
    · exact (respelling.run nested).inProperty
    · exact .pure
  apply (respelling.text property).bind
  intro text
  apply Concurs.get_bind
  intro state state' same
  rw [same.propertyName, Statement.isEmpty_hyphenatedAll]
  cases value with
  | some expr =>
    have shown : Concurs (self.cssValue expr) (self.cssValue expr.hyphenated) := by
      rw [← cssValue_hyphenating]
      exact Concurs.congruence.cssValue respelling.eval expr
    exact shown.bind fun _ => Concurs.declared.bind fun _ => inner
  | none =>
    dsimp only [Option.map_none]
    split
    · exact Concurs.declarationTarget.bind fun _ => inner
    · exact inner

theorem directive (name : String) (parameters : Template Expr) (body : Option (List Statement)) (pos : Position) :
    Concurs (self.directive name parameters body pos)
      (self.directive name parameters.hyphenated (Statement.hyphenatedBlock body) pos) := by
  unfold Evaluator.directive
  split
  · exact .pure
  · apply (respelling.text parameters).bind
    intro text
    apply Concurs.get_bind
    intro state state' same
    rw [same.place]
    cases body with
    | none => exact Concurs.push.bind fun _ => .pure
    | some body => exact Concurs.push.bind fun _ => Concurs.newScope.bind fun _ => (respelling.run body).atPlace

theorem media (query : Template Expr) (body : List Statement) (pos : Position) :
    Concurs (self.media query body pos) (self.media query.hyphenated (Statement.hyphenatedAll body) pos) := by
  apply (respelling.text query).bind
  intro text
  apply Concurs.get_bind
  intro state state' same
  rw [same.place]
  apply Concurs.report.bind
  intro _
  exact Concurs.push.bind fun _ => Concurs.newScope.bind fun _ => (respelling.run body).atPlace

/-! What is written elsewhere -/

theorem inclusion (name : String) (arguments : Arguments Expr) (content : Option (List Statement)) (pos : Position) :
    Concurs (self.inclusion name arguments content pos)
      (self.inclusion (normalizeName name) arguments.hyphenated (Statement.hyphenatedBlock content) pos) := by
  apply Concurs.get_bind
  intro state state' same
  rw [Scopes.mixin?_normalizeName, same.place, same.file]
  have found := same.mixin? state'.place.scope name
  cases first : state.scopes.mixin? state'.place.scope name with
  | none =>
    cases second : state'.scopes.mixin? state'.place.scope name with
    | none => exact .fail
    | some mixin' =>
      rw [first, second] at found
      cases found
  | some mixin =>
    cases second : state'.scopes.mixin? state'.place.scope name with
    | none =>
      rw [first, second] at found
      cases found
    | some mixin' =>
      rw [first, second] at found
      have alike : mixin.hyphenated = mixin'.hyphenated := Option.some.inj found
      apply Concurs.report.bind
      intro _
      apply (respelling.bindArguments alike arguments pos).bind
      intro scope
      rw [file_alike alike]
      apply ((respelling.run_alike (body_alike alike)).inFile.inScope).withContent
      cases content with
      | none => rfl
      | some body => simp only [Statement.hyphenatedBlock, Option.map_some, ContentBlock.hyphenated,
          Statement.hyphenatedAll_again]

theorem content : Concurs self.content self.content := by
  apply Concurs.get_bind
  intro state state' same
  have stack := same.content
  cases first : state.content with
  | nil =>
    rw [first] at stack
    cases second : state'.content with
    | nil => exact .pure
    | cons => rw [second] at stack; cases stack
  | cons block outer =>
    rw [first] at stack
    cases second : state'.content with
    | nil => rw [second] at stack; cases stack
    | cons block' outer' =>
      rw [second, List.map_cons, List.map_cons, List.cons.injEq] at stack
      obtain ⟨blocks, rest⟩ := stack
      cases block with
      | none =>
        cases block' with
        | none => exact .pure
        | some block' => cases blocks
      | some block =>
        cases block' with
        | none => cases blocks
        | some block' =>
          obtain ⟨body, scope, file⟩ := block
          obtain ⟨body', scope', file'⟩ := block'
          have parts : Statement.hyphenatedAll body = Statement.hyphenatedAll body' ∧ scope = scope' ∧
              file = file' := by
            simpa only [Option.map_some, ContentBlock.hyphenated, Option.some.injEq, ContentBlock.mk.injEq] using blocks
          obtain ⟨bodies, rfl, rfl⟩ := parts
          refine Concurs.bind (.modified fun alike => { alike with content := rest }) fun _ => ?_
          apply Concurs.newScope.bind
          intro inner
          refine (respelling.run_alike bodies).inFile.inScope.andThen fun alike => { alike with content := ?_ }
          rw [List.map_cons, List.map_cons, blocks, alike.content]

theorem importTarget (pos : Position) (target : ImportTarget) :
    Concurs (self.importTarget pos target) (self.importTarget pos target.hyphenated) := by
  cases target with
  | css text => exact (respelling.text text).bind fun _ => .writeImport
  | sheet reference place =>
    apply Concurs.findImport.bind
    intro found
    cases found with
    | none => exact .writeImport
    | some sheet =>
      apply Concurs.report.bind
      intro _
      apply Concurs.bind
      · apply Concurs.modifyGet
        intro state state' same
        dsimp only
        rw [same.tree, same.imported]
        exact ⟨rfl, { same with tree := rfl, imported := rfl }⟩
      · exact fun source => (respelling.run_alike rfl).inSheet

theorem imports (pos : Position) (targets : List ImportTarget) :
    Concurs (self.imports pos targets) (self.imports pos (targets.map ImportTarget.hyphenated)) := by
  induction targets with
  | nil => exact .pure
  | cons target rest tail => exact (respelling.importTarget pos target).bind fun _ => tail

/-! Statements -/

theorem assignment (name : String) (value : Expr) (isDefault isGlobal : Bool) :
    Concurs (self.assignment name value isDefault isGlobal)
      (self.assignment (normalizeName name) value.hyphenated isDefault isGlobal) := by
  apply (respelling.eval value).bind
  intro value
  apply Concurs.modified
  intro state state' same
  refine { same with scopes := ?_ }
  rw [Scopes.assign_normalizeName, same.place, Scopes.hyphenated_assign, Scopes.hyphenated_assign, same.scopes]

omit respelling in
/-- What is defined closes over the scope that is current, whatever its name is written like. -/
theorem defineMixin (callable : Callable Statement) :
    Concurs (effect (modify fun state =>
        { state with scopes := state.scopes.defineMixin state.place.scope ⟨callable, state.place.scope⟩ }))
      (effect (modify fun state => { state with
        scopes := state.scopes.defineMixin state.place.scope ⟨{ Statement.hyphenatedCallable callable with
          name := normalizeName callable.name }, state.place.scope⟩ })) := by
  apply (Concurs.modified _).effect
  intro state state' same
  refine { same with scopes := ?_ }
  have again := Closure.hyphenated_again ⟨callable, state'.place.scope⟩
  rw [same.place, Scopes.hyphenated_defineMixin, Scopes.hyphenated_defineMixin, same.scopes]
  exact congrArg _ again.symm

omit respelling in
theorem defineFunction (callable : Callable Statement) :
    Concurs (effect (modify fun state =>
        { state with scopes := state.scopes.defineFunction state.place.scope ⟨callable, state.place.scope⟩ }))
      (effect (modify fun state => { state with
        scopes := state.scopes.defineFunction state.place.scope
          ⟨Statement.hyphenatedCallable callable, state.place.scope⟩ })) := by
  apply (Concurs.modified _).effect
  intro state state' same
  refine { same with scopes := ?_ }
  rw [same.place, Scopes.hyphenated_defineFunction, Scopes.hyphenated_defineFunction, same.scopes,
    Closure.hyphenated_function]

theorem message (kind : MessageKind) (value : Expr) (pos : Position) :
    Concurs (self.message kind value pos) (self.message kind value.hyphenated pos) := by
  apply (respelling.eval value).bind
  intro value
  split
  · exact Concurs.pure.bind fun text => .tell
  · exact Concurs.read.bind fun _ => Concurs.pure.bind fun text => .tell

theorem result (value : Expr) (pos : Position) :
    Concurs (self.result value pos) (self.result value.hyphenated pos) := by
  apply Concurs.get_bind
  intro state state' same
  rw [same.functionDepth]
  have given : Concurs (some <$> self.eval value) (some <$> self.eval value.hyphenated) := by
    rw [map_eq_pure_bind, map_eq_pure_bind]
    exact (respelling.eval value).bind fun _ => .pure
  split
  · exact Concurs.fail.bind fun _ => given
  · exact given

theorem runStatement (statement : Statement) :
    Concurs (self.runStatement statement) (self.runStatement statement.hyphenated) := by
  cases statement with
  | rule pos selector body => exact (respelling.rule selector body pos).written
  | declaration pos property value important nested =>
    exact (respelling.declaration property value important nested pos).written
  | directive pos name parameters body => exact (respelling.directive name parameters body pos).written
  | media pos query body => exact (respelling.media query body pos).written
  | assignment pos name value isDefault isGlobal => exact (respelling.assignment name value isDefault isGlobal).effect
  | mixin pos callable => exact defineMixin callable
  | function pos callable => exact defineFunction callable
  | inclusion pos name arguments content => exact (respelling.inclusion name arguments content pos).written
  | content pos => exact respelling.content.effect
  | result pos value => exact respelling.result value pos
  | branch pos clauses otherwise => exact respelling.branch clauses otherwise
  | forEach pos names items body =>
    apply (respelling.eval items).bind
    intro value
    rw [forEach_normalizeName]
    exact Concurs.congruence.forEach (respelling.innerBlock body) names _
  | forRange pos name first last inclusive body => exact respelling.forRange name first last inclusive body
  | whileTrue pos condition body =>
    exact respelling.whileTrue condition body self.budget
  | imports pos targets => exact (respelling.imports pos targets).effect
  | message pos kind value => exact (respelling.message kind value pos).effect
  | unsupported pos name => exact .fail
  | comment pos text => exact Concurs.comment.effect

theorem execStep (statement : Statement) :
    Concurs (self.execStep statement) (self.execStep statement.hyphenated) := by
  unfold Evaluator.execStep
  rw [Statement.pos_hyphenated]
  exact (respelling.runStatement statement).during (fun same => { same with statementPos := rfl })
    fun same inner => { inner with statementPos := same.statementPos }

end Respelling

/-- By induction on the depth: every evaluation does the same for names that are written in another way. -/
theorem respelling_evaluator (depth : Nat) : Respelling (evaluator depth) := by
  induction depth with
  | zero => exact ⟨fun _ => .throw, fun _ => .throw⟩
  | succ depth shallower => exact ⟨shallower.evalStep, shallower.execStep⟩

theorem Respelled.start (sheet : Sheet) (statements : List Statement) :
    Respelled (State.start sheet) (State.start { sheet with statements }) where
  tree := rfl
  scopes := rfl
  imported := rfl
  sheet := ⟨rfl, rfl, rfl⟩
  file := rfl
  source := rfl
  place := rfl
  content := rfl
  functionDepth := rfl
  propertyName := rfl
  statementPos := rfl

end Evaluation

open Evaluation

/-- In the names of variables and of mixins hyphens and underscores are the same. If two lists of statements are equal
once these names have hyphens only, they are evaluated alike: both fail, or both give the same tree and import the same
stylesheets, and so the same is compiled from them. -/
theorem Compiler.compileSheet_respelled (compiler : Compiler) (sheet : Sheet) {statements : List Statement}
    (same : Statement.hyphenatedAll sheet.statements = Statement.hyphenatedAll statements) :
    let first := evaluate compiler.environment sheet
    let second := evaluate compiler.environment { sheet with statements }
    first.1.isOk = second.1.isOk ∧
      (first.1.isOk = true → first.2.tree = second.2.tree ∧ first.2.imported = second.2.imported) ∧
      ∀ entry log, (compiler.compileSheet entry sheet log).result.toOption =
        (compiler.compileSheet entry { sheet with statements } log).result.toOption := by
  have agreed : Agreement (evaluate compiler.environment sheet)
      (evaluate compiler.environment { sheet with statements }) :=
    (respelling_evaluator depthLimit).run_alike same compiler.environment _ _ (.start sheet statements)
  unfold compileSheet
  generalize evaluate compiler.environment sheet = first,
    evaluate compiler.environment { sheet with statements } = second at agreed ⊢
  cases agreed with
  | error => exact ⟨rfl, nofun, fun _ _ => rfl⟩
  | @ok value after after' alike =>
    refine ⟨rfl, fun _ => ⟨alike.tree, alike.imported⟩, fun entry log => ?_⟩
    dsimp only [emit]
    rw [alike.tree, alike.imported]
    cases after'.tree.write compiler.options.format <;> rfl

/-- A variable, a parameter and a mixin that are defined with underscores, and used under the given names. -/
def usingNames (argument parameter mixin : String) : List Statement :=
  [.assignment ⟨1, 1⟩ "a_b" (.string [.text "c"] false) false false,
    .mixin ⟨1, 10⟩ ⟨"m_x", [⟨"p_q", none⟩], none,
      [.declaration ⟨1, 29⟩ [.text "x"] (some (.variable parameter ⟨1, 32⟩)) false []], "stdin"⟩,
    .rule ⟨1, 40⟩ [.text "d"] [.inclusion ⟨1, 44⟩ mixin ⟨[.variable argument ⟨1, 57⟩], [], none⟩ none]]

theorem Compiler.compileSheet_respelled_uses :
    let compiler : Compiler := ⟨{ style := .compressed }, .start [], none⟩
    let sheet := sheetOf (usingNames "a_b" "p_q" "m_x")
    let statements := usingNames "a-b" "p_q" "m-x"
    Statement.hyphenatedAll sheet.statements = Statement.hyphenatedAll statements ∧
      (compiler.compileSheet textEntry sheet []).css = .ok "d{x:c}" ∧
      (compiler.compileSheet textEntry sheet []).result.toOption =
        (compiler.compileSheet textEntry { sheet with statements } []).result.toOption := by
  intro compiler sheet statements
  have argument : normalizeName "a_b" = normalizeName "a-b" := by decide +kernel
  have mixin : normalizeName "m_x" = normalizeName "m-x" := by decide +kernel
  have same : Statement.hyphenatedAll sheet.statements = Statement.hyphenatedAll statements := by
    simp only [sheet, statements, sheetOf, usingNames, Statement.hyphenatedAll, Statement.hyphenated,
      Arguments.hyphenated, Expr.hyphenatedAll, Expr.hyphenated, argument, mixin]
  exact ⟨same, by decide +kernel, (compiler.compileSheet_respelled sheet same).2.2 textEntry []⟩

end Stylesheet
