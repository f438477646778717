import Stylesheet.Proofs.Splicing.Expressions

/-! Statements run alike, if the evaluator runs the blocks inside them alike. The same statement may stand in both
stylesheets, or one block inside it may hold the import. -/

namespace Stylesheet.Evaluation
open Splice Evaluator

variable {splice : Splice} {file : String}

theorem Follows.resolved {text : String} {pos pos' : Position} :
    Follows splice file Eq (resolved text pos) (resolved text pos') := by
  refine Follows.get_bind fun {state state'} alike => ?_
  rw [alike.place]
  dsimp only
  split
  · exact .pure rfl
  · split
    · exact .pure rfl
    · exact .fail

/-- A rule that is made for a declaration becomes the current rule of both states. -/
theorem Follows.declarationTarget {pos : Position} :
    Follows splice file Eq (declarationTarget pos) (declarationTarget pos) := by
  refine Follows.get_bind fun {state state'} alike => ?_
  rw [alike.place]
  dsimp only
  split
  · exact .pure rfl
  · refine Follows.push.bind_eq fun id => ?_
    refine Follows.bind_eq (Follows.modify (fun _ => ⟨List.suffix_rfl, rfl⟩) fun alike => ?_) fun _ => .pure rfl
    exact { alike with place := by rw [alike.place] }
  · exact .pure rfl
  · exact .fail

theorem Follows.declared {property : String} {value : Value} {important : Bool} {pos : Position} :
    Follows splice file Eq (declared property value important pos) (declared property value important pos) := by
  refine Follows.read.bind_eq fun _ => Follows.congruence.ofOperation.bind_eq fun css => ?_
  split
  · refine Follows.declarationTarget.bind_eq fun target => ?_
    exact Follows.span.bind (fun _ => Along.traces fun _ => steady_traced.itemPushed) fun _ => .pushItem rfl
  · exact .pure rfl

theorem Follows.comment {text : Comment} {pos : Position} :
    Follows splice file Eq (comment text pos) (comment text pos) := by
  refine Follows.get_bind fun {state state'} alike => ?_
  rw [alike.functionDepth, alike.place]
  split
  · split
    · exact .pushItem rfl
    · exact Follows.push.bind_eq fun _ => .pure rfl
  · exact .pure rfl

theorem Follows.refuseInFunction {pos : Position} :
    Follows splice file Eq (refuseInFunction pos) (refuseInFunction pos) := by
  refine Follows.get_bind fun alike => ?_
  rw [alike.functionDepth]
  split
  · exact .fail
  · exact .pure rfl

theorem Follows.effect {action action' : Eval Unit} (follows : Follows splice file Eq action action') :
    Follows splice file Eq (effect action) (effect action') :=
  follows.bind_eq fun _ => .pure rfl

theorem Follows.written {pos : Position} {action action' : Eval Unit}
    (follows : Follows splice file Eq action action') :
    Follows splice file Eq (written pos action) (written pos action') :=
  .effect (Follows.refuseInFunction.bind_eq fun _ => follows)

/-- Blocks that are handed to mixins are alike while the mixins run. -/
theorem Follows.withContent {block block' : Option ContentBlock} {action action' : Eval Unit}
    (alike : Option.Rel (BlockAlike splice) block block') (follows : Follows splice file Eq action action') :
    Follows splice file Eq (withContent block action) (withContent block' action') := by
  have dropped {one two : List (Option ContentBlock)}
      (content : List.Forall₂ (Option.Rel (BlockAlike splice)) one two) :
      List.Forall₂ (Option.Rel (BlockAlike splice)) one.tail two.tail := by
    cases content with
    | nil => exact .nil
    | cons _ rest => exact rest
  have inside : Follows splice file Eq
      (Evaluation.during (fun state => { state with content := block :: state.content })
        (fun _ after => { after with content := after.content.tail }) action)
      (Evaluation.during (fun state => { state with content := block' :: state.content })
        (fun _ after => { after with content := after.content.tail }) action') :=
    follows.during id steady_traced.withContent (fun _ _ => rfl)
      (fun outer => { outer with content := .cons alike outer.content })
      fun _ inner => { inner with content := dropped inner.content }
  exact inside

namespace Simulates

variable {first second : Evaluator} (simulates : Simulates splice first second)

include simulates

theorem innerBlock {body body' : List Statement} (inside : Spliced splice file body body')
    (bound : List (String × Value)) :
    Follows splice file Eq (first.innerBlock bound body) (second.innerBlock bound body') := by
  refine Follows.get_bind fun alike => ?_
  rw [alike.place]
  refine Follows.newScope.bind_eq fun scope => ?_
  exact (Follows.congruence.forIn (fun _ _ => Follows.declare.bind_eq fun _ => .pure rfl) bound _).bind_eq fun _ =>
    .inScope (simulates.block inside)

/-- Two clauses with the same condition and bodies that are alike. -/
def ClauseAlike (splice : Splice) (file : String) (first second : Expr × List Statement) : Prop :=
  first.1 = second.1 ∧ Spliced splice file first.2 second.2

theorem branch {otherwise otherwise' : Option (List Statement)} {clauses clauses' : List (Expr × List Statement)}
    (last : Option.Rel (Spliced splice file) otherwise otherwise')
    (alike : List.Forall₂ (ClauseAlike splice file) clauses clauses') :
    Follows splice file Eq (first.branch otherwise clauses) (second.branch otherwise' clauses') := by
  have end_alike : Follows splice file Eq (first.branch otherwise []) (second.branch otherwise' []) := by
    cases last with
    | none => exact .pure rfl
    | some inside => exact simulates.innerBlock inside []
  exact Follows.congruence.branch simulates.eval end_alike
    (alike.imp fun _ _ clause => ⟨clause.1, simulates.innerBlock clause.2 []⟩)

/-- The second loop may go on longer before it is cut short. -/
theorem whileTrue {body body' : List Statement} (inside : Spliced splice file body body') (condition : Expr)
    {rounds rounds' : Nat} (enough : rounds ≤ rounds') :
    Follows splice file Eq (first.whileTrue condition body rounds) (second.whileTrue condition body' rounds') := by
  induction rounds generalizing rounds' with
  | zero => exact .endless
  | succ rounds tail =>
    obtain ⟨rounds', rfl⟩ := Nat.exists_eq_add_of_lt enough
    refine (simulates.eval condition).bind_eq fun value => ?_
    split
    · refine (simulates.innerBlock inside []).bind_eq fun value => ?_
      split
      · exact .pure rfl
      · exact tail (Nat.le_add_right _ _)
    · exact .pure rfl

theorem rule {body body' : List Statement} (inside : Spliced splice file body body') (selector : Template Expr)
    (pos : Position) : Follows splice file Eq (first.rule selector body pos) (second.rule selector body' pos) := by
  refine (simulates.text selector).bind_eq fun text => Follows.resolved.bind_eq fun selectors => ?_
  refine Follows.get_bind fun alike => ?_
  rw [alike.place]
  exact Follows.push.bind_eq fun id => Follows.newScope.bind_eq fun scope => .atPlace (simulates.run inside)

omit simulates in
/-- A block of nested properties may be skipped if it is empty. -/
theorem inProperty_run (evaluator : Evaluator) (name : String) (nested : List Statement) :
    (if !nested.isEmpty then inProperty name (evaluator.run nested) else pure ()) =
      inProperty name (evaluator.run nested) := by
  cases nested with
  | nil => rfl
  | cons => rfl

theorem declaration {nested nested' : List Statement} (inside : Spliced splice file nested nested')
    (property : Template Expr) {value : Option Expr} (kept : value = none → nested.isEmpty = nested'.isEmpty)
    (important : Bool) (pos : Position) :
    Follows splice file Eq (first.declaration property value important nested pos)
      (second.declaration property value important nested' pos) := by
  refine (simulates.text property).bind_eq fun text => Follows.get_bind fun alike => ?_
  rw [alike.propertyName]
  dsimp only
  rw [inProperty_run, inProperty_run]
  cases value with
  | some value =>
    exact (Follows.congruence.cssValue simulates.eval value).bind_eq fun found => Follows.declared.bind_eq fun _ =>
      .inProperty (simulates.run inside)
  | none =>
    dsimp only
    rw [kept rfl]
    split
    · exact Follows.declarationTarget.bind_eq fun _ => .inProperty (simulates.run inside)
    · exact .inProperty (simulates.run inside)

theorem directive {body body' : Option (List Statement)} (inside : Option.Rel (Spliced splice file) body body')
    (name : String) (parameters : Template Expr) (pos : Position) :
    Follows splice file Eq (first.directive name parameters body pos) (second.directive name parameters body' pos) := by
  unfold Evaluator.directive
  split
  · exact .pure rfl
  · refine (simulates.text parameters).bind_eq fun text => Follows.get_bind fun alike => ?_
    rw [alike.place]
    cases inside with
    | none => exact Follows.push.bind_eq fun _ => .pure rfl
    | some inside =>
      exact Follows.push.bind_eq fun id => Follows.newScope.bind_eq fun scope => .atPlace (simulates.run inside)

theorem media {body body' : List Statement} (inside : Spliced splice file body body') (query : Template Expr)
    (pos : Position) : Follows splice file Eq (first.media query body pos) (second.media query body' pos) := by
  refine (simulates.text query).bind_eq fun text => Follows.get_bind fun alike => ?_
  rw [alike.place]
  refine Follows.report.bind_eq fun _ => Follows.push.bind_eq fun id => ?_
  exact Follows.newScope.bind_eq fun scope => .atPlace (simulates.run inside)

/-- The block keeps the file that it was written in. -/
theorem inclusion {content content' : Option (List Statement)}
    (inside : Option.Rel (Spliced splice file) content content') (name : String)
    (arguments : Arguments Expr) (pos : Position) :
    Follows splice file Eq (first.inclusion name arguments content pos)
      (second.inclusion name arguments content' pos) := by
  refine Follows.get_written fun {state state'} written alike => ?_
  have related := alike.scopes.mixin? state.place.scope name
  rw [← alike.place]
  generalize state.scopes.mixin? state.place.scope name = one,
    state'.scopes.mixin? state.place.scope name = two at related
  cases related with
  | none => exact .fail
  | some mixin =>
    have block : Option.Rel (BlockAlike splice)
        (content.map fun body => { body, scope := state.place.scope, file := state.file })
        (content'.map fun body => { body, scope := state.place.scope, file := state'.file }) := by
      cases inside with
      | none => exact .none
      | some inside => exact .some ⟨written ▸ inside, rfl⟩
    refine Follows.report.bind_eq fun _ => (simulates.bindArguments mixin arguments pos).bind_eq fun scope => ?_
    cases mixin with
    | mk inside => exact .withContent block (.inScope (.inFile (simulates.run inside)))

theorem content : Follows splice file Eq first.content second.content := by
  refine Follows.get_bind fun {state state'} alike => ?_
  have related := alike.content
  generalize state.content = one, state'.content = two at related
  cases related with
  | nil => exact .pure rfl
  | @cons head head' outer outer' block rest =>
    cases block with
    | none => exact .pure rfl
    | @some block block' same =>
      have body : Follows splice file Eq (do
          let scope ← newScope block.scope false
          inScope scope (inFile block.file (first.run block.body))) (do
          let scope ← newScope block'.scope false
          inScope scope (inFile block'.file (second.run block'.body))) := by
        rw [same.scope]
        exact Follows.newScope.bind_eq fun scope => .inScope (.inFile (simulates.run same.body))
      have inside : Follows splice file Eq
          (during (fun state => { state with content := outer })
            (fun _ after => { after with content := some block :: after.content }) _)
          (during (fun state => { state with content := outer' })
            (fun _ after => { after with content := some block' :: after.content }) _) :=
        body.during id (fun inner => ⟨inner.lookups, inner.file⟩) (fun _ _ => rfl)
          (fun outside => { outside with content := rest })
          fun _ inner => { inner with content := .cons (.some same) inner.content }
      exact inside

omit simulates in
theorem defineMixin {callable : Callable Statement} {body : List Statement}
    (inside : Spliced splice callable.file callable.body body) :
    Follows splice file Eq
      (modify fun state => { state with
        scopes := state.scopes.defineMixin state.place.scope ⟨callable, state.place.scope⟩ } : Eval PUnit)
      (modify fun state => { state with
        scopes := state.scopes.defineMixin state.place.scope ⟨{ callable with body }, state.place.scope⟩ }) :=
  .modify (fun state => steady_traced.defineMixin state callable) fun alike =>
    { alike with scopes := by rw [alike.place]; exact alike.scopes.defineMixin (.mk inside _) _ }

omit simulates in
theorem defineFunction {callable : Callable Statement} {body : List Statement}
    (inside : Spliced splice callable.file callable.body body) :
    Follows splice file Eq
      (modify fun state => { state with
        scopes := state.scopes.defineFunction state.place.scope ⟨callable, state.place.scope⟩ } : Eval PUnit)
      (modify fun state => { state with
        scopes := state.scopes.defineFunction state.place.scope ⟨{ callable with body }, state.place.scope⟩ }) :=
  .modify (fun state => steady_traced.defineFunction state callable) fun alike =>
    { alike with scopes := by rw [alike.place]; exact alike.scopes.defineFunction (.mk inside _) _ }

theorem assignment (name : String) (value : Expr) (isDefault isGlobal : Bool) :
    Follows splice file Eq (first.assignment name value isDefault isGlobal)
      (second.assignment name value isDefault isGlobal) :=
  (simulates.eval value).bind_eq fun value =>
    .modify (fun state => steady_traced.assign state name value isDefault isGlobal) fun alike =>
      { alike with scopes := by rw [alike.place]; exact alike.scopes.assign _ _ _ _ _ }

omit simulates in
theorem tell (kind : MessageKind) (text : String) (pos : Position) :
    Follows splice file Eq (tell kind text pos) (tell kind text pos) := by
  refine Follows.get_bind fun _ => ?_
  cases kind with
  | warn => exact .report
  | debug => exact .report
  | error => exact .fail

theorem message (kind : MessageKind) (value : Expr) (pos : Position) :
    Follows splice file Eq (first.message kind value pos) (second.message kind value pos) := by
  refine (simulates.eval value).bind_eq fun value => ?_
  split
  · exact (Follows.pure rfl).bind_eq fun text => tell kind text pos
  · exact Follows.read.bind_eq fun _ => (Follows.pure rfl).bind_eq fun text => tell kind text pos

theorem result (value : Expr) (pos : Position) :
    Follows splice file Eq (first.result value pos) (second.result value pos) := by
  refine Follows.get_bind fun alike => ?_
  rw [alike.functionDepth]
  split
  · exact Follows.fail.bind_eq fun _ => (simulates.eval value).bind_eq fun _ => .pure rfl
  · exact (simulates.eval value).bind_eq fun _ => .pure rfl

end Simulates

end Stylesheet.Evaluation
