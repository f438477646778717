import Stylesheet.Proofs.Seclusion

/-! Global variables and the bodies of blocks. The body of a rule, of a directive, of a mixin or of a function, and a
block handed to a mixin, run in a scope from which no assignment reaches the global scope, unless it is marked as a
global one. So does whatever they run. -/

namespace Stylesheet.Evaluation
open Evaluator

variable {environment : Environment} {root : Sheet} {outer task : Task} {state before after between entered : State}
  {body statements : List Statement} {file : String} {scope : Nat} {session : Session}

/-- The body of a block begins: that of a rule or of a directive, that of a function or of a mixin to which arguments
have been bound, or a block that was handed to a mixin. -/
inductive Begins (environment : Environment) :
    (outer : Task) → (state : State) → (body : List Statement) → (entered : State) → Prop
  | rule {state : State} {pos : Position} {selector : Template Expr} {body : List Statement} (selectors : Selectors)
    (outside : state.functionDepth = 0) :
    Begins environment (.statement (.rule pos selector body)) state body (state.inRule selectors pos)
  | directive {state : State} {pos : Position} {name : String} {template : Template Expr} {body : List Statement}
    (parameters : String) (outside : state.functionDepth = 0) :
    Begins environment (.statement (.directive pos name template (some body))) state body
      (state.inDirective name parameters pos)
  | media {state : State} {pos : Position} {query : Template Expr} {body : List Statement} (words : String)
    (outside : state.functionDepth = 0) :
    Begins environment (.statement (.media pos query body)) state body (state.inMedia words pos)
  | function {state between : State} {function : Closure} {arguments : Arguments Expr} {pos : Position}
    {depth scope : Nat}
    (bound : Yields ((evaluator depth).bindArguments function arguments pos) environment state scope between) :
    Begins environment (.call function) state function.callable.body
      { between.within function.callable.file scope with functionDepth := between.functionDepth + 1 }
  | mixin {state between : State} {mixin : Closure} {block : Option ContentBlock} {arguments : Arguments Expr}
    {pos : Position} {depth scope : Nat}
    (bound : Yields ((evaluator depth).bindArguments mixin arguments pos) environment state scope between) :
    Begins environment (.inclusion mixin block) state mixin.callable.body
      { between.within mixin.callable.file scope with content := block :: between.content }
  | content {state : State} {pos : Position} {block : ContentBlock} {outer : List (Option ContentBlock)}
    (handed : state.content = some block :: outer) :
    Begins environment (.statement (.content pos)) state block.body (state.inContent block outer)

theorem Yields.performs {α : Type} {action : Eval α} {value : α}
    (yields : Yields action environment before value after)
    (performs : AlongIn environment (Performs environment task) action) : Performs environment task before after := by
  have step := performs before
  rwa [yields] at step

/-! The scope of a body -/

section Scope

variable {self : Evaluator} {closure : Closure} {arguments : Arguments Expr} {pos : Position} {values : List Value}
  {named : List (String × Value)}

theorem confined_parameterScope (working : Working environment self)
    (yields : Yields (self.parameterScope closure pos values named) environment before scope after) :
    after.scopes.Confined scope := by
  simp only [parameterScope, yields_bind, yields_newScope] at yields
  obtain ⟨_, _, ⟨rfl, rfl⟩, _, middle, parameters, _, _, rest, given⟩ := yields
  obtain ⟨rfl, rfl⟩ := yields_pure.1 given
  have bound : Performs environment .expression _ middle :=
    parameters.performs (bindParameters_performs working _ _ _ _ _)
  have filled : Performs environment .expression middle after := rest.performs (bindRest_performs _ _ _ _ _)
  have outlasts := steady_outlasts.leads (bound.trans filled).leads
  exact outlasts.scopes.confined (.child _ _)

theorem confined_bindArguments (working : Working environment self)
    (yields : Yields (self.bindArguments closure arguments pos) environment before scope after) :
    after.scopes.Confined scope := by
  simp only [bindArguments, yields_bind] at yields
  obtain ⟨⟨values, named⟩, _, -, bound⟩ := yields
  dsimp only at bound
  split at bound
  · obtain ⟨_, _, refused, -⟩ := yields_bind.1 bound
    exact absurd refused yields_fail
  · exact confined_parameterScope working bound

end Scope

theorem Begins.confined (begins : Begins environment outer state body entered) :
    entered.scopes.Confined entered.place.scope := by
  cases begins with
  | rule | directive | media | content => exact .child _ _
  | function bound | mixin bound =>
    have confined := confined_bindArguments (working_evaluator environment _) bound
    exact confined

theorem Begins.reached (begins : Begins environment outer state body entered)
    (reached : Reached environment root outer state) : Reached environment root (.block body) entered := by
  cases begins with
  | rule selectors outside => exact .opens reached (.rule selectors outside)
  | directive parameters outside => exact .opens reached (.directive parameters outside)
  | media words outside => exact .opens reached (.media words outside)
  | function bound =>
    refine .opens (reached.performs ?_) (.function _ _ _)
    exact bound.performs (bindArguments_performs (working_evaluator environment _) _ _ _)
  | mixin bound =>
    refine .opens (reached.performs ?_) (.mixin _ _ _ _)
    exact bound.performs (bindArguments_performs (working_evaluator environment _) _ _ _)
  | content handed => exact .opens reached (.content handed)

/-! What is reached -/

theorem Reached.rooted (reached : Reached environment root task state) : state.scopes.Rooted := by
  induction reached with
  | start => exact Scopes.rooted_start
  | performs _ performs rooted => exact (steady_outlasts.leads performs.leads).scopes.rooted rooted
  | opens _ opens rooted =>
    cases opens with
    | rule | directive | media | content => exact (Scopes.Extends.child _ _ _).rooted rooted
    | _ => exact rooted

theorem WrittenIn.staysLocal (known : WrittenIn session.environment session.root state file statements)
    (stay : session.IsLocal) (within : state.lookups ⊆ session.lookups) : Statement.StaysLocal statements := by
  refine .of_one fun statement member => ?_
  obtain ⟨sheet, takes, -, stands⟩ := known.2 statement member
  have stays : Statement.StaysLocal sheet.statements := stay sheet (takes.mono within)
  exact fun _ _ _ _ inside => stays _ _ _ _ (inside.of_within (List.forall_mem_singleton.2 stands))

/-- Where no assignment is marked as a global one, an evaluation in a confined scope is secluded. -/
theorem Located.secluded (located : Located session.environment session.root state) (rooted : state.scopes.Rooted)
    (confined : state.scopes.Confined state.place.scope) (stay : session.IsLocal)
    (within : state.lookups ⊆ session.lookups) : session.Secluded state where
  rooted := rooted
  scope := confined
  closures closure holds := (located.closures closure holds).staysLocal stay within
  content handed member block here := (located.content handed member block here).staysLocal stay within
  sheet := located.sheet.mono within

/-- If no assignment in the stylesheets that take part is marked as a global one, the body of a rule, of a directive, of
a mixin or of a function, and a block handed to a mixin, leave the global variables as they are, whatever they run and
whether they fail or not. -/
theorem bodies_keep_globals (read : root.IsRead) (reached : Reached environment root outer state)
    (begins : Begins environment outer state body entered) (depth : Nat)
    (unmarked : ∀ sheet,
      TakesPart environment root (((evaluator depth).block body).outcome environment entered).2.lookups sheet →
        Statement.StaysLocal sheet.statements) :
    ∃ bindings, entered.scopes.globals = some bindings ∧
      (((evaluator depth).block body).outcome environment entered).2.scopes.globals = some bindings := by
  have began := begins.reached reached
  obtain ⟨located, known⟩ := began.located read
  let session : Session :=
    ⟨environment, root, (((evaluator depth).block body).outcome environment entered).2.lookups⟩
  have stay : session.IsLocal := unmarked
  have careful := Session.careful_evaluator stay depth
  have performs := block_performs careful.working body entered
  have within : entered.lookups ⊆ session.lookups := (steady_outlasts.leads performs.leads).lookups
  have secluded : session.Secluded entered := located.secluded began.rooted begins.confined stay within
  have written : WrittenIn session.environment session.root entered entered.file body := known
  have stays := written.staysLocal stay within
  have spares := Session.block_sparing careful stays [] entered
  obtain ⟨-, same⟩ := spares.spares (List.Subset.refl _) secluded nofun
  obtain ⟨global, present, -⟩ := began.rooted
  have bindings : entered.scopes.globals = some global.values := by rw [Scopes.globals, present]; rfl
  exact ⟨global.values, bindings, same.trans bindings⟩

/-! A rule in which a variable is shadowed -/

/-- Whether no assignment is marked as a global one, in statements that are no deeper than a bound. -/
def isLocal : (depth : Nat) → List Statement → Bool
  | 0, statements => statements.isEmpty
  | depth + 1, statements => statements.all fun statement =>
    (match statement with
    | .assignment _ _ _ _ isGlobal => !isGlobal
    | _ => true) && statement.blocks.all (isLocal depth)

theorem staysLocal_of_isLocal {depth : Nat} (found : isLocal depth statements = true) :
    Statement.StaysLocal statements := by
  induction depth generalizing statements with
  | zero =>
    obtain rfl := List.isEmpty_iff.1 found
    exact fun _ _ _ _ stands => stands.cases_nil
  | succ depth deeper =>
    refine .of_one fun statement member pos name value isDefault stands => ?_
    obtain ⟨own, inside⟩ := Bool.and_eq_true_iff.1 (List.all_eq_true.1 found statement member)
    rcases stands.cases_cons with rfl | ⟨body, block, stands⟩ | stands
    · cases own
    · exact deeper (List.all_eq_true.1 inside body block) pos name value isDefault stands
    · exact stands.cases_nil

def shadowingText : String :=
  "@function f($y: q) \x7b $x: $y; @return $x; \x7d $x: p; a \x7b $x: f(); @if $x \x7b $x: r; \x7d \x7d"

def shadowingSheet : Sheet :=
  { path := "stdin", source := shadowingText, directory := none, chain := ["stdin"]
    statements := statementsOf shadowingText "stdin" }

def ruleOf? : Statement → Option (Position × Template Expr × List Statement)
  | .rule pos selector body => some (pos, selector, body)
  | _ => none

theorem rule_mem {rule : Position × Template Expr × List Statement} (found : statements.findSome? ruleOf? = some rule) :
    .rule rule.1 rule.2.1 rule.2.2 ∈ statements := by
  obtain ⟨statement, member, known⟩ := List.exists_of_findSome?_eq_some found
  cases statement with
  | rule => cases known; exact member
  | _ => cases known

/-- The rule of the stylesheet. -/
def shadowingRule : Position × Template Expr × List Statement :=
  (shadowingSheet.statements.findSome? ruleOf?).getD (.start, [], [])

/-- The function and the variable are known where the rule begins. -/
def shadowingState : State :=
  { (evaluate plainEnvironment shadowingSheet).2 with statementPos := shadowingRule.1 }

/-- The text of a global variable. -/
def globalText? (scopes : Scopes) (name : String) : Option String :=
  scopes.globals.bind fun bindings => (bindings.lookup name).map (·.inspect 5)

private theorem shadowing_runs :
    let entered := shadowingState.inRule (Selectors.parse "a") shadowingRule.1
    let after := (((evaluator 12).block shadowingRule.2.2).outcome plainEnvironment entered).2
    ((Statement.parse shadowingText "stdin" false).isOk = true ∧
      (shadowingSheet.statements.findSome? ruleOf?).isSome = true ∧ isLocal 3 shadowingSheet.statements = true) ∧
    shadowingState.functionDepth = 0 ∧ after.lookups.isEmpty = true ∧ after.scopes.size = 7 ∧
      globalText? entered.scopes "x" = some "p" := by
  decide +kernel

/-- The rule sets the variable twice, once inside of a control directive, and the function sets its own. -/
theorem bodies_keep_globals_shadowing :
    let entered := shadowingState.inRule (Selectors.parse "a") shadowingRule.1
    let after := (((evaluator 12).block shadowingRule.2.2).outcome plainEnvironment entered).2
    shadowingSheet.IsRead ∧
      Reached plainEnvironment shadowingSheet
        (.statement (.rule shadowingRule.1 shadowingRule.2.1 shadowingRule.2.2)) shadowingState ∧
      Begins plainEnvironment (.statement (.rule shadowingRule.1 shadowingRule.2.1 shadowingRule.2.2)) shadowingState
        shadowingRule.2.2 entered ∧
      (∀ sheet, TakesPart plainEnvironment shadowingSheet after.lookups sheet →
        Statement.StaysLocal sheet.statements) ∧
      after.scopes.size = 7 ∧ globalText? entered.scopes "x" = some "p" ∧ globalText? after.scopes "x" = some "p" := by
  intro entered after
  obtain ⟨⟨parses, ruled, stays⟩, outside, unasked, size, known⟩ := shadowing_runs
  have read : shadowingSheet.IsRead := ⟨false, parse_eq_ok parses⟩
  have member : .rule shadowingRule.1 shadowingRule.2.1 shadowingRule.2.2 ∈ shadowingSheet.statements := by
    obtain ⟨rule, found⟩ := Option.isSome_iff_exists.1 ruled
    have same : shadowingRule = rule := by rw [shadowingRule, found]; rfl
    exact same ▸ rule_mem found
  have reached : Reached plainEnvironment shadowingSheet
      (.statement (.rule shadowingRule.1 shadowingRule.2.1 shadowingRule.2.2)) shadowingState :=
    .opens (reached_evaluate plainEnvironment shadowingSheet) (.statement _ member)
  have begins : Begins plainEnvironment (.statement (.rule shadowingRule.1 shadowingRule.2.1 shadowingRule.2.2))
      shadowingState shadowingRule.2.2 entered := .rule _ outside
  have unmarked : ∀ sheet, TakesPart plainEnvironment shadowingSheet after.lookups sheet →
      Statement.StaysLocal sheet.statements := by
    have none : after.lookups = [] := List.isEmpty_iff.1 unasked
    rw [none]
    intro sheet takes
    cases takes with
    | root => exact staysLocal_of_isLocal stays
    | imported _ asked => cases asked
  obtain ⟨bindings, first, last⟩ := bodies_keep_globals read reached begins 12 unmarked
  have same : globalText? after.scopes "x" = globalText? entered.scopes "x" := by
    rw [globalText?, globalText?, first, last]
  exact ⟨read, reached, begins, unmarked, size, known, same.trans known⟩

end Stylesheet.Evaluation
