import Stylesheet.Proofs.Origins
import Stylesheet.Proofs.ScopeChains
import Stylesheet.Proofs.Splicing.InPlace

/-! States from which no global variable is changed: the current scope is confined, and so is every scope in which a mixin,
a function or a block that may be run from there runs its body. Where no assignment is marked as a global one, an evaluator
keeps such states and the global variables in them, through control directives, calls, defaults, blocks handed to mixins
and imports. -/

namespace Stylesheet

namespace Statement

variable {statements inner body : List Statement} {statement : Statement}

theorem Within.of_within (all : ∀ statement ∈ inner, Within statements statement) (stands : Within inner statement) :
    Within statements statement := by
  induction stands with
  | here member => exact all _ member
  | deeper _ block member around => exact around.deeper block member

theorem Within.exists_one (stands : Within statements statement) : ∃ outer ∈ statements, Within [outer] statement := by
  induction stands with
  | here member => exact ⟨_, member, .here (.head _)⟩
  | deeper _ block member around =>
    obtain ⟨outer, first, inside⟩ := around
    exact ⟨outer, first, inside.deeper block member⟩

/-- No assignment among the statements, however deep inside of them, is marked as a global one. -/
def StaysLocal (statements : List Statement) : Prop :=
  ∀ pos name value isDefault, ¬ Within statements (.assignment pos name value isDefault true)

namespace StaysLocal

theorem one (stays : StaysLocal statements) (member : statement ∈ statements) : StaysLocal [statement] :=
  fun _ _ _ _ stands => stays _ _ _ _ (stands.of_within (List.forall_mem_singleton.2 (.here member)))

theorem of_one (stay : ∀ statement ∈ statements, StaysLocal [statement]) : StaysLocal statements := by
  intro pos name value isDefault stands
  obtain ⟨statement, member, inside⟩ := stands.exists_one
  exact stay statement member pos name value isDefault inside

theorem block (stays : StaysLocal [statement]) (member : body ∈ statement.blocks) : StaysLocal body :=
  fun _ _ _ _ stands => stays _ _ _ _ (stands.of_within fun _ inside => .deeper (.here (.head _)) member inside)

end StaysLocal

end Statement

namespace Evaluation
open Statement Evaluator

/-- Lookups and scopes are not forgotten, and the current scope is the same again. -/
structure Outlasts (before after : State) : Prop where
  lookups : before.lookups ⊆ after.lookups
  scopes : before.scopes.Extends after.scopes
  scope : after.place.scope = before.place.scope

namespace Outlasts

theorem still {before after : State} (lookups : after.lookups = before.lookups) (scopes : after.scopes = before.scopes)
    (scope : after.place.scope = before.place.scope) : Outlasts before after :=
  ⟨lookups ▸ List.Subset.refl _, scopes ▸ .refl _, scope⟩

theorem extended {before : State} {scopes : Scopes} (extended : before.scopes.Extends scopes) :
    Outlasts before { before with scopes } := ⟨List.Subset.refl _, extended, rfl⟩

theorem trans {before between after : State} (first : Outlasts before between) (second : Outlasts between after) :
    Outlasts before after :=
  ⟨fun _ member => second.lookups (first.lookups member), first.scopes.trans second.scopes,
    second.scope.trans first.scope⟩

end Outlasts

theorem steady_outlasts : Steady Outlasts where
  refl _ := .still rfl rfl rfl
  trans := .trans
  report _ _ := .still rfl rfl rfl
  push _ _ _ _ := .still rfl rfl rfl
  pushItem _ _ _ := .still rfl rfl rfl
  ruleMade _ _ _ _ _ := .still rfl rfl rfl
  newScope _ _ _ := .extended (.child _ _ _)
  declare _ _ _ _ := .extended (.declare _ _ _ _)
  assign _ _ _ _ _ := .extended (.assign _ _ _ _ _ _)
  defineMixin _ _ := .extended (.defineMixin _ _ _)
  defineFunction _ _ := .extended (.defineFunction _ _ _)
  lookup _ _ _ := ⟨List.subset_cons_self _ _, .refl _, rfl⟩
  importing _ _ _ := .still rfl rfl rfl
  atPlace inside := ⟨inside.lookups, inside.scopes, rfl⟩
  inScope inside := ⟨inside.lookups, inside.scopes, rfl⟩
  inFile inside := { inside with }
  inSheet inside := { inside with }
  inFunction inside := { inside with }
  inProperty inside := { inside with }
  atStatement inside := { inside with }
  withContent inside := { inside with }
  content _ inside := { inside with }

/-- A compilation with the imports that are looked up in it. -/
structure Session where
  environment : Environment
  root : Sheet
  lookups : List Lookup

namespace Session

variable (session : Session)

def Uses (sheet : Sheet) : Prop := TakesPart session.environment session.root session.lookups sheet

/-- No assignment in the stylesheets that are used is marked as a global one. -/
def IsLocal : Prop := ∀ sheet, session.Uses sheet → StaysLocal sheet.statements

/-- Nothing that runs here, or that may be run from here, changes a global variable. -/
structure Secluded (state : State) : Prop where
  rooted : state.scopes.Rooted
  scope : state.scopes.Confined state.place.scope
  closures : ∀ closure, state.scopes.Holds closure → StaysLocal closure.callable.body
  content : ∀ handed ∈ state.content, ∀ block ∈ handed, StaysLocal block.body
  sheet : session.Uses state.sheet

/-- From a secluded state the global variables stay as they are, as long as no other imports are looked up. The scopes
that the action owns are confined as well. -/
structure Spares (own : List Nat) (before after : State) : Prop extends Outlasts before after where
  spares : after.lookups ⊆ session.lookups → session.Secluded before → (∀ id ∈ own, before.scopes.Confined id) →
    session.Secluded after ∧ after.scopes.globals = before.scopes.globals

/-- In the environment of the session, an action spares the global variables. -/
abbrev Sparing {α : Type} (own : List Nat) (action : Eval α) : Prop :=
  AlongIn session.environment (session.Spares own) action

variable {session} {α β : Type} {own more : List Nat} {before between after entered inner : State} {scopes : Scopes}
  {task : Task} {statement : Statement} {statements body : List Statement}

theorem Secluded.extended (secluded : session.Secluded before) (extended : before.scopes.Extends scopes)
    (held : ∀ closure, scopes.Holds closure → StaysLocal closure.callable.body) :
    session.Secluded { before with scopes } :=
  { secluded with
    rooted := extended.rooted secluded.rooted, scope := extended.confined secluded.scope, closures := held }

namespace Spares

/-- What has nothing to do with variables, with what may be run, and with imports. -/
theorem still (lookups : after.lookups = before.lookups) (scopes : after.scopes = before.scopes)
    (scope : after.place.scope = before.place.scope) (content : after.content = before.content)
    (sheet : after.sheet = before.sheet) : session.Spares own before after where
  toOutlasts := .still lookups scopes scope
  spares _ secluded _ := by
    refine ⟨⟨?_, ?_, ?_, ?_, ?_⟩, congrArg Scopes.globals scopes⟩
    · exact scopes ▸ secluded.rooted
    · exact scopes ▸ scope ▸ secluded.scope
    · exact scopes ▸ secluded.closures
    · exact content ▸ secluded.content
    · exact sheet ▸ secluded.sheet

theorem trans (first : session.Spares own before between) (second : session.Spares own between after) :
    session.Spares own before after where
  toOutlasts := first.toOutlasts.trans second.toOutlasts
  spares within secluded confined := by
    obtain ⟨secluded', same⟩ := first.spares (fun _ member => within (second.lookups member)) secluded confined
    obtain ⟨secluded'', same'⟩ := second.spares within secluded' fun id member =>
      first.scopes.confined (confined id member)
    exact ⟨secluded'', same'.trans same⟩

theorem mono (spares : session.Spares own before after) (subset : own ⊆ more) : session.Spares more before after :=
  { spares with spares := fun within secluded confined =>
      spares.spares within secluded fun id member => confined id (subset member) }

/-- A change of the scopes that leaves the global variables as they are. -/
theorem extended (extended : before.scopes.Extends scopes)
    (held : ∀ closure, scopes.Holds closure → StaysLocal closure.callable.body ∨ before.scopes.Holds closure)
    (same : session.Secluded before → (∀ id ∈ own, before.scopes.Confined id) →
      scopes.globals = before.scopes.globals) : session.Spares own before { before with scopes } where
  toOutlasts := .extended extended
  spares _ secluded confined :=
    ⟨secluded.extended extended fun closure holds => (held closure holds).elim id (secluded.closures closure),
      same secluded confined⟩

/-- An owned scope may become the current one for a while. -/
theorem elsewhere {place back : Place} (member : place.scope ∈ own) (same : back.scope = before.place.scope)
    (spares : session.Spares own { before with place } inner) : session.Spares own before { inner with place := back } where
  toOutlasts := ⟨spares.lookups, spares.scopes, same⟩
  spares within secluded confined := by
    obtain ⟨secluded', globals⟩ := spares.spares within { secluded with scope := confined _ member } confined
    exact ⟨{ secluded' with scope := same ▸ spares.scopes.confined secluded.scope }, globals⟩

/-- What is never done in a secluded state need not be looked at. -/
theorem of_not (outlasts : Outlasts before after)
    (never : after.lookups ⊆ session.lookups → ¬ session.Secluded before) : session.Spares own before after :=
  { outlasts with spares := fun within secluded _ => absurd secluded (never within) }

/-- An action inside of a change that has nothing to do with variables, with what may be run, and with imports. -/
theorem inside (spares : session.Spares own entered inner) (begun : session.Spares own before entered)
    (left : session.Spares own inner after) : session.Spares own before after := (begun.trans spares).trans left

end Spares

theorem flows (session : Session) (own : List Nat) : Flows (session.Spares own) where
  refl _ := .still rfl rfl rfl rfl rfl
  trans := .trans
  report _ _ := .still rfl rfl rfl rfl rfl

/-- Only secluded states count, and in the others lookups and scopes are kept as well. -/
theorem sparing_of {action : Eval α} (performs : AlongIn session.environment (Performs session.environment task) action)
    (inside : ∀ before, session.Secluded before →
      session.Spares own before (action.outcome session.environment before).2) : session.Sparing own action := by
  intro before
  by_cases secluded : session.Secluded before
  · exact inside before secluded
  · exact .of_not (steady_outlasts.leads (performs before).leads) fun _ => secluded

/-! Scopes -/

theorem declare_sparing {scope : Nat} (member : scope ∈ own) (name : String) (value : Value) :
    session.Sparing own (declare scope name value) :=
  AlongIn.modify fun _ => .extended (.declare _ _ _ _) (fun _ holds => .inr holds.of_declare)
    fun secluded confined => Scopes.globals_declare secluded.rooted (confined scope member).inner name value

/-- A new scope is owned by what goes on with it. It is confined, unless it is that of a control directive somewhere
else. -/
theorem newScope_bind {parent : Nat} {semiGlobal : Bool} {next : Nat → Eval β}
    (inside : semiGlobal = false ∨ parent = before.place.scope)
    (rest : ∀ scope, session.Sparing (scope :: own) (next scope)) :
    session.Spares own before ((newScope parent semiGlobal >>= next).outcome session.environment before).2 := by
  have extended := Scopes.Extends.child before.scopes parent semiGlobal
  have spares := rest before.scopes.size { before with scopes := (before.scopes.child parent semiGlobal).2 }
  refine { (Outlasts.extended extended).trans spares.toOutlasts with spares := fun within secluded confined => ?_ }
  have fresh : (before.scopes.child parent semiGlobal).2.Confined before.scopes.size := by
    rcases inside with rfl | rfl
    · exact .child _ _
    · exact secluded.scope.child_around semiGlobal
  have entered := secluded.extended extended fun closure holds => secluded.closures closure holds.of_child
  obtain ⟨secluded', same⟩ := spares.spares within entered
    (List.forall_mem_cons.2 ⟨fresh, fun id member => extended.confined (confined id member)⟩)
  exact ⟨secluded', same.trans (Scopes.globals_child secluded.rooted parent semiGlobal)⟩

theorem newScope_sparing {parent : Nat} {next : Nat → Eval β}
    (rest : ∀ scope, session.Sparing (scope :: own) (next scope)) :
    session.Sparing own (newScope parent false >>= next) := fun _ => newScope_bind (.inl rfl) rest

theorem inScope_sparing {scope : Nat} {action : Eval α} (member : scope ∈ own)
    (inside : session.Sparing own action) : session.Sparing own (inScope scope action) :=
  inside.during fun _ _ spares => spares.elsewhere member rfl

/-! What is written goes elsewhere. -/

theorem push_sparing (container : Option Nat) (content : Css.Content) (pos : Position) :
    session.Sparing own (push container content pos) := fun _ => .still rfl rfl rfl rfl rfl

theorem pushItem_sparing (id : Nat) (item : Css.Item) : session.Sparing own (pushItem id item) :=
  fun _ => .still rfl rfl rfl rfl rfl

/-- A file, a function and a property around an action have nothing to do with variables either. -/
theorem inFile_sparing {file : String} {action : Eval α} (inside : session.Sparing own action) :
    session.Sparing own (inFile file action) :=
  inside.during fun _ _ spares => spares.inside (.still rfl rfl rfl rfl rfl) (.still rfl rfl rfl rfl rfl)

theorem inFunction_sparing {action : Eval α} (inside : session.Sparing own action) :
    session.Sparing own (inFunction action) :=
  inside.during fun _ _ spares => spares.inside (.still rfl rfl rfl rfl rfl) (.still rfl rfl rfl rfl rfl)

theorem inProperty_sparing {name : String} {action : Eval α} (inside : session.Sparing own action) :
    session.Sparing own (inProperty name action) :=
  inside.during fun _ _ spares => spares.inside (.still rfl rfl rfl rfl rfl) (.still rfl rfl rfl rfl rfl)

/-- The body of a new node runs in a scope of its own. -/
theorem inNode_sparing {holder : Option Nat} {content : Css.Content} {pos : Position} {parent : Nat}
    {place : Nat → Nat → Place} {action : Eval α} (placed : ∀ id scope, (place id scope).scope = scope)
    (inside : ∀ own, session.Sparing own action) :
    session.Sparing own (do
      let id ← push holder content pos
      let scope ← newScope parent false
      atPlace (place id scope) action) := by
  refine (session.flows own).bind (push_sparing holder content pos) fun id => newScope_sparing fun scope => ?_
  exact (inside _).during fun _ _ => .elsewhere (by rw [placed]; exact .head _) rfl

/-- An evaluator of which the expressions spare the global variables, and the statements that mark no assignment as a
global one. -/
structure Careful (session : Session) (evaluator : Evaluator) : Prop where
  working : Working session.environment evaluator
  traced : Keeps Traced evaluator
  eval : ∀ expr, session.Sparing [] (evaluator.eval expr)
  exec : ∀ statement, StaysLocal [statement] → session.Sparing [] (evaluator.exec statement)

section Parts

variable {self : Evaluator} (careful : session.Careful self)

include careful

theorem eval_sparing (own : List Nat) (expr : Expr) : session.Sparing own (self.eval expr) :=
  fun before => (careful.eval expr before).mono (List.nil_subset own)

theorem block_sparing (stays : StaysLocal body) (own : List Nat) : session.Sparing own (self.block body) :=
  block_along (session.flows own) fun _ member before =>
    (careful.exec _ (stays.one member) before).mono (List.nil_subset own)

theorem run_sparing (stays : StaysLocal body) (own : List Nat) : session.Sparing own (self.run body) :=
  (session.flows own).bind (block_sparing careful stays own) fun _ => (session.flows own).pure

theorem text_sparing (own : List Nat) (template : Template Expr) : session.Sparing own (self.text template) :=
  text_along (session.flows own) (eval_sparing careful own) template

/-! Calls -/

theorem bindParameters_sparing {scope : Nat} (member : scope ∈ own) (pos : Position) (parameters : List Parameter)
    (values : List Value) (named : List (String × Value)) :
    session.Sparing own (self.bindParameters scope pos parameters values named) := by
  have flows := session.flows own
  induction parameters generalizing values named with
  | nil => exact flows.pure
  | cons parameter rest tail =>
    cases values with
    | cons value values => exact flows.bind (declare_sparing member _ _) fun _ => tail values named
    | nil =>
      simp only [bindParameters]
      split
      · exact flows.bind (declare_sparing member _ _) fun _ => tail _ _
      · refine flows.bind (inScope_sparing member (eval_sparing careful own _)) fun _ => ?_
        exact flows.bind (declare_sparing member _ _) fun _ => tail _ _
      · exact flows.fail

omit careful in
theorem bindRest_sparing {scope : Nat} (member : scope ∈ own) (rest : Option String) (pos : Position)
    (values : List Value) (named : List (String × Value)) :
    session.Sparing own (bindRest rest scope pos values named) := by
  unfold bindRest
  split
  · exact declare_sparing member _ _
  · exact (session.flows own).fail
  · exact (session.flows own).pure

/-- The scope for the body of a mixin or of a function is owned by what goes on with it. -/
theorem bindArguments_sparing (closure : Closure) (arguments : Arguments Expr) (pos : Position) {next : Nat → Eval β}
    (rest : ∀ scope, session.Sparing (scope :: own) (next scope)) :
    session.Sparing own (self.bindArguments closure arguments pos >>= next) := by
  have flows := session.flows own
  have bound (values : List Value) (named : List (String × Value)) :
      session.Sparing own (self.parameterScope closure pos values named >>= next) := by
    have owned (scope : Nat) := session.flows (scope :: own)
    simp only [parameterScope, bind_assoc, pure_bind]
    refine newScope_sparing fun scope => ?_
    refine (owned scope).bind (bindParameters_sparing careful (.head _) pos _ values named) fun (values, named) => ?_
    exact (owned scope).bind (bindRest_sparing (.head _) _ pos values named) fun _ => rest scope
  simp only [bindArguments, bind_assoc]
  refine flows.bind (allArguments_along flows (eval_sparing careful own) arguments) fun (values, named) => ?_
  dsimp only
  split
  · rw [bind_assoc]
    exact flows.bind flows.fail fun _ => bound values named
  · exact bound values named

theorem callFunction_sparing {function : Closure} (stays : StaysLocal function.callable.body)
    (arguments : Arguments Expr) (pos : Position) :
    session.Sparing own (self.callFunction function arguments pos) := by
  refine (session.flows own).bind (session.flows own).reported fun _ => ?_
  refine bindArguments_sparing careful function arguments pos fun scope => ?_
  have flows := session.flows (scope :: own)
  refine flows.bind ?_ fun value => ?_
  · exact inScope_sparing (.head _) (inFile_sparing (inFunction_sparing (block_sparing careful stays _)))
  · split
    · exact checkResult_along flows _ pos
    · exact flows.fail

theorem call_sparing (name : String) (arguments : Arguments Expr) (pos : Position) :
    session.Sparing own (self.call name arguments pos) := by
  refine sparing_of (call_performs careful.working name arguments pos) fun before secluded => ?_
  have flows := session.flows own
  have eval := eval_sparing careful own
  rw [call, outcome_get_bind]
  split
  · next function known =>
    exact callFunction_sparing careful (secluded.closures function (Scopes.holds_function? known)) arguments pos before
  · dsimp only
    split
    · exact callIf_along flows eval arguments pos before
    · split
      · exact callNameQuery_along flows eval _ _ arguments pos before
      · exact callBuiltin_along flows eval _ arguments pos before
      · exact callPlain_along flows eval name arguments before

theorem evalStep_sparing (expr : Expr) : session.Sparing own (self.evalStep expr) :=
  evalStep_along (session.flows own) (eval_sparing careful own) (call_sparing careful) expr

/-! Control directives -/

theorem innerBlock_sparing (stays : StaysLocal body) (bound : List (String × Value)) :
    session.Sparing own (self.innerBlock bound body) := by
  refine .get_bind fun before => newScope_bind (.inr rfl) fun scope => ?_
  have flows := session.flows (scope :: own)
  refine flows.bind (flows.forIn (fun _ _ => ?_) bound _) fun _ => ?_
  · exact flows.bind (declare_sparing (.head _) _ _) fun _ => flows.pure
  · exact inScope_sparing (.head _) (block_sparing careful stays _)

/-! Output -/

theorem rule_sparing (stays : StaysLocal body) (selector : Template Expr) (pos : Position) :
    session.Sparing own (self.rule selector body pos) := by
  have flows := session.flows own
  refine flows.bind (text_sparing careful own selector) fun text => ?_
  refine flows.bind (resolved_along flows text pos) fun selectors => flows.bind flows.get fun state => ?_
  exact inNode_sparing (fun _ _ => rfl) (run_sparing careful stays)

theorem directive_sparing {block : Option (List Statement)} (stay : ∀ body ∈ block, StaysLocal body) (name : String)
    (parameters : Template Expr) (pos : Position) :
    session.Sparing own (self.directive name parameters block pos) := by
  have flows := session.flows own
  unfold Evaluator.directive
  split
  · exact flows.pure
  · refine flows.bind (text_sparing careful own parameters) fun text => flows.bind flows.get fun state => ?_
    cases block with
    | none => exact flows.bind (push_sparing _ _ _) fun _ => flows.pure
    | some body => exact inNode_sparing (fun _ _ => rfl) (run_sparing careful (stay body rfl))

theorem media_sparing (stays : StaysLocal body) (query : Template Expr) (pos : Position) :
    session.Sparing own (self.media query body pos) := by
  have flows := session.flows own
  refine flows.bind (text_sparing careful own query) fun text => flows.bind flows.get fun state => ?_
  refine flows.bind flows.reported fun _ => ?_
  exact inNode_sparing (fun _ _ => rfl) (run_sparing careful stays)

omit careful in
theorem declarationTarget_sparing (pos : Position) : session.Sparing own (declarationTarget pos) := by
  have flows := session.flows own
  refine flows.bind flows.get fun state => ?_
  dsimp only
  split
  · exact flows.pure
  · refine flows.bind (push_sparing _ _ _) fun id => ?_
    exact flows.bind (AlongIn.modify fun _ => .still rfl rfl rfl rfl rfl) fun _ => flows.pure
  · exact flows.pure
  · exact flows.fail

omit careful in
theorem declared_sparing (property : String) (value : Value) (important : Bool) (pos : Position) :
    session.Sparing own (declared property value important pos) := by
  have flows := session.flows own
  refine flows.bind flows.read fun _ => flows.bind flows.ofOperation fun css => ?_
  split
  · refine flows.bind (declarationTarget_sparing pos) fun target => flows.bind flows.span fun span => ?_
    exact pushItem_sparing _ _
  · exact flows.pure

theorem declaration_sparing {nested : List Statement} (stays : StaysLocal nested) (property : Template Expr)
    (value : Option Expr) (important : Bool) (pos : Position) :
    session.Sparing own (self.declaration property value important nested pos) := by
  have flows := session.flows own
  have inner {name : String} :
      session.Sparing own (if !nested.isEmpty then inProperty name (self.run nested) else pure ()) := by
    split
    · exact inProperty_sparing (run_sparing careful stays own)
    · exact flows.pure
  refine flows.bind (text_sparing careful own property) fun text => flows.bind flows.get fun state => ?_
  cases value with
  | some expr =>
    refine flows.bind (cssValue_along flows (eval_sparing careful own) expr) fun found => ?_
    exact flows.bind (declared_sparing _ _ _ _) fun _ => inner
  | none =>
    dsimp only
    split
    · exact flows.bind (declarationTarget_sparing pos) fun _ => inner
    · exact inner

omit careful in
theorem comment_sparing (text : Comment) (pos : Position) : session.Sparing own (comment text pos) := by
  have flows := session.flows own
  refine flows.bind flows.get fun state => ?_
  split
  · split
    · exact pushItem_sparing _ _
    · exact flows.bind (push_sparing _ _ _) fun _ => flows.pure
  · exact flows.pure

/-! What is written elsewhere -/

omit careful in
theorem withContent_sparing {block : Option ContentBlock} {action : Eval α} (stay : ∀ handed ∈ block, StaysLocal handed.body)
    (inside : session.Sparing own action) : session.Sparing own (withContent block action) := by
  intro before
  have spares := inside { before with content := block :: before.content }
  refine ⟨{ spares.toOutlasts with }, fun within secluded confined => ?_⟩
  obtain ⟨secluded', same⟩ := spares.spares within
    { secluded with content := List.forall_mem_cons.2 ⟨stay, secluded.content⟩ } confined
  exact ⟨{ secluded' with content := fun handed member => secluded'.content handed (List.mem_of_mem_tail member) }, same⟩

theorem inclusion_spares (secluded : session.Secluded before) {content : Option (List Statement)}
    (stay : ∀ body ∈ content, StaysLocal body) (name : String) (arguments : Arguments Expr) (pos : Position) :
    session.Spares own before ((self.inclusion name arguments content pos).outcome session.environment before).2 := by
  have flows := session.flows own
  rw [Evaluator.inclusion, outcome_get_bind]
  dsimp only
  split
  · exact flows.fail before
  · next mixin known =>
    have body := secluded.closures mixin (Scopes.holds_mixin? known)
    refine flows.bind flows.reported (fun _ => bindArguments_sparing careful mixin arguments pos fun scope => ?_) before
    refine withContent_sparing (fun handed member => ?_) (inScope_sparing (.head _) (inFile_sparing ?_))
    · obtain ⟨body, given, rfl⟩ := Option.map_eq_some_iff.1 member
      exact stay body given
    · exact run_sparing careful body _

theorem content_spares (secluded : session.Secluded before) :
    session.Spares own before (self.content.outcome session.environment before).2 := by
  rw [Evaluator.content, outcome_get_bind]
  split
  · next block outer handed =>
    obtain ⟨here, further⟩ := List.forall_mem_cons.1 (handed ▸ secluded.content)
    have ran : session.Sparing own (do
        let scope ← newScope block.scope false
        inScope scope (inFile block.file (self.run block.body))) :=
      newScope_sparing fun scope => inScope_sparing (.head _) (inFile_sparing (run_sparing careful (here block rfl) _))
    have spares := ran { before with content := outer }
    refine ⟨{ spares.toOutlasts with }, fun within _ confined => ?_⟩
    obtain ⟨secluded', same⟩ := spares.spares within { secluded with content := further } confined
    exact ⟨{ secluded' with content := List.forall_mem_cons.2 ⟨here, secluded'.content⟩ }, same⟩
  · exact (session.flows own).pure before

theorem runSheet_sparing {sheet : Sheet} (uses : session.Uses sheet) (stays : StaysLocal sheet.statements) :
    session.Sparing own (self.runSheet sheet) := by
  have flows := session.flows own
  refine flows.bind flows.reported fun _ => ?_
  refine flows.bind (AlongIn.modifyGet fun _ => .still rfl rfl rfl rfl rfl) fun source => ?_
  refine (run_sparing careful stays own).during fun state inner spares => ⟨{ spares.toOutlasts with }, ?_⟩
  intro within secluded confined
  obtain ⟨secluded', same⟩ := spares.spares within { secluded with sheet := uses } confined
  exact ⟨{ secluded' with sheet := secluded.sheet }, same⟩

omit careful in
theorem writeImport_sparing (parameters : String) (pos : Position) :
    session.Sparing own (writeImport parameters pos) := fun _ => .still rfl rfl rfl rfl rfl

theorem importTarget_sparing (stay : session.IsLocal) (pos : Position) (target : ImportTarget) :
    session.Sparing own (self.importTarget pos target) := by
  have performs : AlongIn session.environment (Performs session.environment (.statement (.imports pos [target])))
      (self.importTarget pos target) := importTarget_performs careful.working (.head _)
  have flows := session.flows own
  cases target with
  | css text => exact flows.bind (text_sparing careful own text) fun _ => writeImport_sparing _ pos
  | sheet reference place =>
    refine sparing_of performs fun before secluded => ?_
    by_cases listed : ⟨reference, place, before.file, before.sheet, before.functionDepth⟩ ∈ session.lookups
    · obtain ⟨result, events, found, -⟩ := findImport_performs session.environment pos (.head []) before
      have asked : session.Spares own before { before.asking reference place with log := events ++ before.log } :=
        ⟨⟨List.subset_cons_self _ _, .refl _, rfl⟩, fun _ _ _ => ⟨{ secluded with }, rfl⟩⟩
      rw [importTarget, outcome_bind, found]
      cases result with
      | error failure => exact asked
      | ok answer =>
        refine asked.trans ?_
        cases answer with
        | none => exact writeImport_sparing _ pos _
        | some sheet =>
          have importer : TakesPart session.environment session.root session.lookups before.sheet := secluded.sheet
          have uses : session.Uses sheet := .imported importer listed ⟨before, _, rfl, found⟩
          exact runSheet_sparing careful uses (stay sheet uses) _
    · have asks := importTarget_asks careful.traced pos place reference session.environment before
      exact .of_not (steady_outlasts.leads (performs before).leads) fun within _ => listed (within asks)

theorem imports_sparing (stay : session.IsLocal) (pos : Position) (targets : List ImportTarget) :
    session.Sparing own (self.imports pos targets) := by
  have flows := session.flows own
  induction targets with
  | nil => exact flows.pure
  | cons target rest tail => exact flows.bind (importTarget_sparing careful stay pos target) fun _ => tail

/-! Statements -/

omit careful in
theorem assignment_sparing (eval : ∀ expr, session.Sparing own (self.eval expr)) (name : String) (value : Expr)
    (isDefault : Bool) : session.Sparing own (self.assignment name value isDefault false) := by
  refine (session.flows own).bind (eval value) fun value => AlongIn.modify fun state => ?_
  exact .extended (.assign _ _ _ _ _ _) (fun _ holds => .inr holds.of_assign) fun secluded _ =>
    Scopes.globals_assign secluded.rooted secluded.scope name value isDefault

omit careful in
theorem defineMixin_spares {callable : Callable Statement} (stays : StaysLocal callable.body) (scope : Nat) :
    session.Spares own before
      { before with scopes := before.scopes.defineMixin scope ⟨callable, before.place.scope⟩ } := by
  refine .extended (.defineMixin _ _ _) (fun closure holds => ?_) fun _ _ => Scopes.globals_defineMixin _ _
  rcases holds.of_defineMixin with rfl | old
  · exact .inl stays
  · exact .inr old

omit careful in
theorem defineFunction_spares {callable : Callable Statement} (stays : StaysLocal callable.body) (scope : Nat) :
    session.Spares own before
      { before with scopes := before.scopes.defineFunction scope ⟨callable, before.place.scope⟩ } := by
  refine .extended (.defineFunction _ _ _) (fun closure holds => ?_) fun _ _ => Scopes.globals_defineFunction _ _
  rcases holds.of_defineFunction with rfl | old
  · exact .inl stays
  · exact .inr old

omit careful in
theorem effect_spares {action : Eval Unit}
    (spares : session.Spares own before (action.outcome session.environment before).2) :
    session.Spares own before ((effect action).outcome session.environment before).2 := by
  rw [effect, outcome_bind]
  rcases outcome : action.outcome session.environment before with ⟨result, after⟩
  rw [outcome] at spares
  cases result <;> exact spares

omit careful in
theorem written_spares {action : Eval Unit} (pos : Position)
    (spares : session.Spares own before (action.outcome session.environment before).2) :
    session.Spares own before ((written pos action).outcome session.environment before).2 := by
  refine effect_spares ?_
  obtain ⟨result, refused⟩ : ∃ result,
      (refuseInFunction pos).outcome session.environment before = (result, before) := by
    rw [refuseInFunction, outcome_get_bind]
    split <;> exact ⟨_, rfl⟩
  rw [outcome_bind, refused]
  cases result with
  | error failure => exact (session.flows own).refl before
  | ok => exact spares

theorem runStatement_sparing (stay : session.IsLocal) (stays : StaysLocal [statement]) :
    session.Sparing own (self.runStatement statement) := by
  have flows := session.flows own
  have eval := eval_sparing careful own
  have block {body : List Statement} (member : body ∈ statement.blocks) : StaysLocal body := stays.block member
  have performs := runStatement_performs careful.working statement
  cases statement with
  | rule pos selector body => exact fun before => written_spares pos (rule_sparing careful (block (.head _)) _ _ before)
  | declaration pos property value important nested =>
    exact fun before => written_spares pos (declaration_sparing careful (block (.head _)) _ _ _ _ before)
  | directive pos name parameters body =>
    refine fun before => written_spares pos (directive_sparing careful (fun body given => block ?_) _ _ _ before)
    exact Option.mem_toList.2 given
  | media pos query body => exact fun before => written_spares pos (media_sparing careful (block (.head _)) _ _ before)
  | assignment pos name value isDefault isGlobal =>
    cases isGlobal with
    | true => exact absurd (.here (.head _)) (stays pos name value isDefault)
    | false => exact effect_along flows (assignment_sparing eval name value isDefault)
  | mixin pos callable => exact effect_along flows (AlongIn.modify fun _ => defineMixin_spares (block (.head _)) _)
  | function pos callable => exact effect_along flows (AlongIn.modify fun _ => defineFunction_spares (block (.head _)) _)
  | inclusion pos name arguments content =>
    refine sparing_of performs fun before secluded => written_spares pos ?_
    exact inclusion_spares careful secluded (fun body given => block (Option.mem_toList.2 given)) _ _ _
  | content pos => exact sparing_of performs fun before secluded => effect_spares (content_spares careful secluded)
  | result pos value => exact result_along flows eval value pos
  | branch pos clauses otherwise =>
    exact branch_along flows eval otherwise clauses fun _ member => innerBlock_sparing careful (block member) []
  | forEach pos names items body =>
    exact flows.bind (eval items) fun _ => forEach_along flows (innerBlock_sparing careful (block (.head _))) names _
  | forRange pos name first last inclusive body =>
    exact forRange_along flows eval (innerBlock_sparing careful (block (.head _))) name first last inclusive
  | whileTrue pos condition body =>
    exact whileTrue_along flows eval (innerBlock_sparing careful (block (.head _))) condition _
  | imports pos targets => exact effect_along flows (imports_sparing careful stay pos targets)
  | message pos kind value => exact effect_along flows (message_along flows eval kind value pos)
  | unsupported pos name => exact flows.fail
  | comment pos text => exact effect_along flows (comment_sparing text pos)

end Parts

/-- By induction on the depth. -/
theorem careful_evaluator (stay : session.IsLocal) (depth : Nat) : session.Careful (evaluator depth) := by
  have working := working_evaluator session.environment
  have traced := steady_traced.evaluator
  induction depth with
  | zero => exact ⟨working 0, traced 0, fun _ => (session.flows []).throw, fun _ _ => (session.flows []).throw⟩
  | succ depth shallower =>
    refine ⟨working _, traced _, evalStep_sparing shallower, fun statement stays => ?_⟩
    exact (runStatement_sparing shallower stay stays).during fun _ _ spares =>
      spares.inside (.still rfl rfl rfl rfl rfl) (.still rfl rfl rfl rfl rfl)

end Session

end Evaluation

end Stylesheet
