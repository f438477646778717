import Stylesheet.Proofs.ImportChains
import Stylesheet.Proofs.Origins

/-! What runs away from home. A statement is run by the stylesheet that it is written in, unless it stands in the body
of a mixin or of a function, or in a block handed to a mixin: these are lent to whoever uses them. -/

namespace Stylesheet

namespace Statement

variable {statements body : List Statement} {outer statement : Statement}

/-- The bodies that a statement lets others run: that of the definition that it makes, or the block that it hands to a
mixin. -/
def lent : Statement → List (List Statement)
  | mixin _ callable | function _ callable => [callable.body]
  | inclusion _ _ _ handed => handed.toList
  | _ => []

theorem lent_subset (statement : Statement) : statement.lent ⊆ statement.blocks := by
  cases statement <;> simp [lent, blocks]

theorem Within.inside (around : Within statements outer) (block : body ∈ outer.blocks)
    (stands : Within body statement) : Within statements statement := by
  induction stands with
  | here member => exact around.deeper block member
  | deeper _ block' member outer => exact outer.deeper block' member

end Statement

namespace Evaluation

section Lending

variable {environment : Environment} {root : Sheet} {lookups more : List Lookup}
  {state entered before between after : State} {inner outer task : Task} {leave : State → State} {file : String}
  {statement : Statement} {statements body : List Statement}

variable (environment root)

/-- A stylesheet of this name lets others run a body. -/
def Lent (lookups : List Lookup) (file : String) (body : List Statement) : Prop :=
  ∃ sheet lender, TakesPart environment root lookups sheet ∧ sheet.path = file ∧
    Statement.Within sheet.statements lender ∧ body ∈ lender.lent

/-- What runs here is written in the current stylesheet, or in what was lent. -/
inductive Sourced (state : State) (statements : List Statement) : Prop
  | own (here : state.file = state.sheet.path)
    (stand : ∀ statement ∈ statements, Statement.Within state.sheet.statements statement) : Sourced state statements
  | lent {body : List Statement} (lent : Lent environment root state.lookups state.file body)
    (stand : ∀ statement ∈ statements, Statement.Within body statement) : Sourced state statements

def Task.Sourced (state : State) : Task → Prop
  | .expression => True
  | .call function => Lent environment root state.lookups function.callable.file function.callable.body
  | .inclusion mixin handed => Lent environment root state.lookups mixin.callable.file mixin.callable.body ∧
      ∀ block ∈ handed, Lent environment root state.lookups block.file block.body
  | .block statements => Evaluation.Sourced environment root state statements
  | .statement statement => Evaluation.Sourced environment root state [statement]

/-- What may still be run from elsewhere was lent. -/
structure Lending (state : State) : Prop where
  closures : ∀ closure, state.scopes.Holds closure →
    Lent environment root state.lookups closure.callable.file closure.callable.body
  content : ∀ handed ∈ state.content, ∀ block ∈ handed, Lent environment root state.lookups block.file block.body

variable {environment root}

theorem Lent.mono (lent : Lent environment root lookups file body) (subset : lookups ⊆ more) :
    Lent environment root more file body := by
  obtain ⟨sheet, lender, takes, rest⟩ := lent
  exact ⟨sheet, lender, takes.mono subset, rest⟩

namespace Sourced

theorem mono (sourced : Sourced environment root before statements) (lookups : before.lookups ⊆ after.lookups)
    (file : after.file = before.file) (sheet : after.sheet = before.sheet) :
    Sourced environment root after statements := by
  cases sourced with
  | own here stand => exact .own (by rw [file, sheet, here]) (sheet ▸ stand)
  | lent lent stand => exact .lent (file ▸ lent.mono lookups) stand

theorem one (sourced : Sourced environment root state statements) (member : statement ∈ statements) :
    Sourced environment root state [statement] := by
  cases sourced with
  | own here stand => exact .own here (List.forall_mem_singleton.2 (stand statement member))
  | lent lent stand => exact .lent lent (List.forall_mem_singleton.2 (stand statement member))

theorem block (sourced : Sourced environment root state [statement]) (member : body ∈ statement.blocks) :
    Sourced environment root state body := by
  cases sourced with
  | own here stand => exact .own here fun inner inside => (stand statement (.head _)).deeper member inside
  | lent lent stand => exact .lent lent fun inner inside => (stand statement (.head _)).deeper member inside

theorem of_lent (lent : Lent environment root state.lookups state.file body) : Sourced environment root state body :=
  .lent lent fun _ member => .here member

/-- A running statement lends what is written in the current file. -/
theorem lends (sourced : Sourced environment root state [statement])
    (takes : TakesPart environment root state.lookups state.sheet) (member : body ∈ statement.lent) :
    Lent environment root state.lookups state.file body := by
  cases sourced with
  | own here stand => exact ⟨state.sheet, statement, takes, here.symm, stand statement (.head _), member⟩
  | lent lent stand =>
    obtain ⟨sheet, lender, takes, path, within, around⟩ := lent
    have deeper := within.inside (lender.lent_subset around) (stand statement (.head _))
    exact ⟨sheet, statement, takes, path, deeper, member⟩

end Sourced

theorem Task.Sourced.mono (sourced : task.Sourced environment root before) (lookups : before.lookups ⊆ after.lookups)
    (file : after.file = before.file) (sheet : after.sheet = before.sheet) : task.Sourced environment root after := by
  cases task with
  | expression => trivial
  | call function => exact Lent.mono sourced lookups
  | inclusion mixin handed =>
    obtain ⟨body, handed⟩ := sourced
    exact ⟨body.mono lookups, fun block member => (handed block member).mono lookups⟩
  | block statements | statement statement => exact Evaluation.Sourced.mono sourced lookups file sheet

/-- What a task makes is its own, or lent. -/
theorem Opens.lending (opens : Opens environment inner outer state entered leave)
    (takes : TakesPart environment root state.lookups state.sheet) (lending : Lending environment root state)
    (sourced : outer.Sourced environment root state) :
    Lending environment root entered ∧ inner.Sourced environment root entered := by
  have block {statement : Statement} {body : List Statement} {state' : State}
      (sourced : Sourced environment root state [statement]) (member : body ∈ statement.blocks)
      (lookups : state'.lookups = state.lookups) (file : state'.file = state.file) (sheet : state'.sheet = state.sheet) :
      Sourced environment root state' body :=
    (sourced.block member).mono (lookups ▸ List.Subset.refl _) file sheet
  have child (parent : Nat) (semiGlobal : Bool) (closure : Closure)
      (holds : (state.scopes.child parent semiGlobal).2.Holds closure) :=
    lending.closures closure holds.of_child
  cases opens with
  | expression => exact ⟨lending, trivial⟩
  | default => exact ⟨{ lending with }, trivial⟩
  | call found => exact ⟨lending, lending.closures _ (Scopes.holds_function? found)⟩
  | function _ function scope => exact ⟨{ lending with }, .of_lent sourced⟩
  | statement _ member => exact ⟨{ lending with }, (Sourced.one sourced member).mono (List.Subset.refl _) rfl rfl⟩
  | @choice statement body _ scope member =>
    exact ⟨{ lending with }, block sourced (statement.choices_subset member) rfl rfl rfl⟩
  | rule selectors outside => exact ⟨{ lending with closures := child _ _ }, block sourced (.head _) rfl rfl rfl⟩
  | property name outside => exact ⟨{ lending with }, block sourced (.head _) rfl rfl rfl⟩
  | directive parameters outside => exact ⟨{ lending with closures := child _ _ }, block sourced (.head _) rfl rfl rfl⟩
  | media words outside => exact ⟨{ lending with closures := child _ _ }, block sourced (.head _) rfl rfl rfl⟩
  | @inclusion _ pos name arguments content mixin found outside =>
    refine ⟨lending, lending.closures mixin (Scopes.holds_mixin? found), fun block handed => ?_⟩
    obtain ⟨body, rfl, rfl⟩ := Option.map_eq_some_iff.1 handed
    exact Sourced.lends sourced takes (.head _)
  | mixin _ mixin block scope =>
    obtain ⟨body, handed⟩ := sourced
    exact ⟨{ lending with content := List.forall_mem_cons.2 ⟨handed, lending.content⟩ }, .of_lent body⟩
  | @content _ pos block outer handed =>
    obtain ⟨here, content⟩ := List.forall_mem_cons.1 (handed ▸ lending.content)
    exact ⟨{ lending with closures := child _ _, content }, .of_lent (here block rfl)⟩
  | @sheet _ pos place targets reference sheet target asked means =>
    exact ⟨{ lending with }, .own rfl fun _ member => .here member⟩

/-- Behind a task the same blocks are handed on as before it. -/
theorem Opens.lending_leave (opens : Opens environment inner outer state entered leave)
    (lending : Lending environment root state) (lookups : state.lookups ⊆ after.lookups)
    (inside : Lending environment root after) : Lending environment root (leave after) := by
  cases opens with
  | mixin => exact { inside with content := fun handed member => inside.content handed (List.mem_of_mem_tail member) }
  | @content _ pos block outer handed =>
    obtain ⟨here, -⟩ := List.forall_mem_cons.1 (handed ▸ lending.content)
    exact { inside with
      content := List.forall_mem_cons.2 ⟨fun block same => (here block same).mono lookups, inside.content⟩ }
  | expression | call | inclusion => exact inside
  | _ => exact { inside with }

theorem Performs.same_sheet (performs : Performs environment task before after) : after.sheet = before.sheet :=
  steady_sameSheet.leads performs.leads

theorem Performs.lookups_subset (performs : Performs environment task before after) :
    before.lookups ⊆ after.lookups :=
  (steady_traced.leads performs.leads).lookups.subset

/-- A running statement that makes a definition lends its body. -/
theorem Lending.defines (lending : Lending environment root state) (located : Located environment root state)
    (read : root.IsRead) (known : (Task.statement statement).Known environment root state)
    (sourced : Sourced environment root state [statement]) {callable : Callable Statement}
    (defines : statement.definition? = some callable) (lent : callable.body ∈ statement.lent) {scopes : Scopes}
    {scope : Nat} (held : ∀ closure, scopes.Holds closure → closure = ⟨callable, scope⟩ ∨ state.scopes.Holds closure) :
    Lending environment root { state with scopes } := by
  refine { lending with closures := fun closure holds => ?_ }
  rcases held closure holds with rfl | before
  · have body : Lent environment root state.lookups callable.file callable.body := by
      rw [known.stands.file_eq read defines]
      exact sourced.lends located.sheet lent
    exact body
  · exact lending.closures closure before

/-- By induction on what is done: only what a running statement lends is added. -/
theorem Performs.lending (read : root.IsRead) (performs : Performs environment task before after) :
    Reached environment root task before → Lending environment root before → task.Sourced environment root before →
      Lending environment root after := by
  induction performs with
  | refl => exact fun _ lending _ => lending
  | trans first _ one two =>
    intro reached lending sourced
    exact two (.performs reached first) (one reached lending sourced)
      (sourced.mono first.lookups_subset (first.same_file reached) first.same_sheet)
  | inside opens performs inside =>
    intro reached lending sourced
    obtain ⟨entered, inner⟩ := opens.lending (reached.located read).1.sheet lending sourced
    have lookups := performs.lookups_subset
    rw [opens.enter_lookups] at lookups
    exact opens.lending_leave lending lookups (inside (.opens reached opens) entered inner)
  | report | browser | directive | comment | commentItem | target | declaration =>
    exact fun _ lending _ => { lending with }
  | newScope =>
    exact fun _ lending _ => { lending with closures := fun closure holds => lending.closures closure holds.of_child }
  | declare =>
    exact fun _ lending _ => { lending with closures := fun closure holds => lending.closures closure holds.of_declare }
  | assign =>
    exact fun _ lending _ => { lending with closures := fun closure holds => lending.closures closure holds.of_assign }
  | defineMixin =>
    intro reached lending sourced
    obtain ⟨located, known⟩ := reached.located read
    exact lending.defines located read known sourced rfl (.head _) fun _ holds => holds.of_defineMixin
  | defineFunction =>
    intro reached lending sourced
    obtain ⟨located, known⟩ := reached.located read
    exact lending.defines located read known sourced rfl (.head _) fun _ holds => holds.of_defineFunction
  | lookup =>
    intro _ lending _
    exact {
      closures := fun closure holds => (lending.closures closure holds).mono (List.subset_cons_self _ _)
      content := fun handed member block here =>
        (lending.content handed member block here).mono (List.subset_cons_self _ _) }

/-- By induction on the course of an evaluation: what runs is written in the current stylesheet, or was lent. -/
theorem Reached.lending (read : root.IsRead) (reached : Reached environment root task state) :
    Lending environment root state ∧ task.Sourced environment root state := by
  induction reached with
  | start =>
    refine ⟨⟨fun closure holds => absurd holds (Scopes.not_holds_start closure), nofun⟩, ?_⟩
    exact .own rfl fun _ member => .here member
  | performs reached performs ih =>
    obtain ⟨lending, sourced⟩ := ih
    exact ⟨performs.lending read reached lending sourced,
      sourced.mono performs.lookups_subset (performs.same_file reached) performs.same_sheet⟩
  | opens reached opens ih =>
    obtain ⟨lending, sourced⟩ := ih
    exact opens.lending (reached.located read).1.sheet lending sourced

end Lending

end Evaluation

end Stylesheet
