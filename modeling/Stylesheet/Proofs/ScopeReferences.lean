import Stylesheet.Proofs.Origins
import Stylesheet.Proofs.ScopeChains
import Stylesheet.Proofs.Splicing.InPlace

/-! Where the numbers of scopes are kept: in the scopes inside of them, with the mixins and the functions that were defined
in them, and with the blocks that were handed to mixins there. Every evaluation leaves each of these numbers to a scope. A
scope that no number leads to is out of reach: whatever is evaluated, calls included, it stays as it is. -/

namespace Stylesheet

namespace Scopes

variable {scopes : Scopes} {id other : Nat} {name : String}

/-- The scopes on the way out are the first one and those that are around another one. -/
theorem mem_chainFrom {steps : Nat} (member : other ∈ scopes.chainFrom steps id) :
    other = id ∨ ∃ (inner : Nat) (scope : Scope), scopes[inner]? = some scope ∧ scope.parent = some other := by
  induction steps generalizing id with
  | zero => cases member
  | succ steps further =>
    rw [chainFrom] at member
    split at member
    · next scope present =>
      rcases List.mem_cons.1 member with same | behind
      · exact .inl same
      · cases around : scope.parent with
        | none =>
          rw [around] at behind
          cases behind
        | some outer =>
          rw [around] at behind
          rcases further behind with same | found
          · exact .inr ⟨id, scope, present, around.trans (congrArg some same.symm)⟩
          · exact .inr found
    · cases member

theorem mem_of_holder? {ids : List Nat} {semiGlobal : Bool} {holder : Nat}
    (found : scopes.holder? name semiGlobal ids = some holder) : holder ∈ ids := by
  induction ids generalizing semiGlobal with
  | nil => cases found
  | cons id rest further =>
    rw [holder?] at found
    split at found
    · cases found
    · split at found
      · split at found
        · cases found
          exact .head _
        · cases found
      · split at found
        · cases found
          exact .head _
        · exact .tail _ (further found)

end Scopes

namespace Evaluation
open Evaluator

variable {α β : Type} {environment : Environment} {apart own more : List Nat} {before between after entered inner : State}
  {target : Nat}

/-- A state keeps the number of a scope. -/
inductive State.Refers (state : State) : Nat → Prop
  | around {inner outer : Nat} {scope : Scope} (present : state.scopes[inner]? = some scope)
    (inside : scope.parent = some outer) : Refers state outer
  | closure {closure : Closure} (held : state.scopes.Holds closure) : Refers state closure.scope
  | content {block : ContentBlock} (handed : some block ∈ state.content) : Refers state block.scope

/-- A scope is there, and it is none of those that are set apart. -/
def State.Offers (apart : List Nat) (state : State) (id : Nat) : Prop := id < state.scopes.size ∧ id ∉ apart

/-- Every number that is kept leads to a scope, and none leads to a scope that is set apart. -/
structure State.Connected (apart : List Nat) (state : State) : Prop where
  offers : ∀ id, state.Refers id → state.Offers apart id
  global : state.Offers apart Scopes.globalId
  present : ∀ id ∈ apart, id < state.scopes.size

/-- The way from one state to another that leaves the scopes alone that are set apart. -/
structure Respects (apart : List Nat) (before after : State) : Prop where
  connected : after.Connected apart
  same : ∀ id ∈ apart, after.scopes[id]? = before.scopes[id]?
  grows : before.scopes.size ≤ after.scopes.size
  scope : after.place.scope = before.place.scope

/-- From a connected state, what is set apart is left alone, if the scopes that an action owns are not among it. -/
def Avoids (apart own : List Nat) (before after : State) : Prop :=
  before.Connected apart → (∀ id ∈ own, before.Offers apart id) → Respects apart before after

/-- With the scopes that it owns, an action leaves alone what is set apart. -/
abbrev Avoiding (environment : Environment) (apart own : List Nat) (action : Eval α) : Prop :=
  AlongIn environment (Avoids apart own) action

/-- An action leaves alone what is set apart, if it runs in another scope. -/
abbrev AvoidingHere (environment : Environment) (apart : List Nat) (action : Eval α) : Prop :=
  AlongIn environment (fun before after => Avoids apart [before.place.scope] before after) action

namespace State

theorem connected_start (sheet : Sheet) : (State.start sheet).Connected [] where
  offers id refers := by
    cases refers with
    | @around _ _ scope present inside =>
      obtain rfl : scope = Scope.empty none false := by
        simpa [State.start, Scopes.start] using Array.mem_of_getElem? present
      cases inside
    | closure held => exact absurd held (Scopes.not_holds_start _)
    | content handed => cases handed
  global := ⟨Nat.one_pos, List.not_mem_nil⟩
  present _ member := absurd member List.not_mem_nil

theorem Refers.still {id : Nat} (refers : after.Refers id) (scopes : after.scopes = before.scopes)
    (content : ∀ block, some block ∈ after.content → some block ∈ before.content) : before.Refers id := by
  cases refers with
  | around present inside => exact .around (scopes ▸ present) inside
  | closure held => exact .closure (scopes ▸ held)
  | content handed => exact .content (content _ handed)

/-- A new scope keeps the number of the one that it is inside of. -/
theorem Refers.of_child {id parent : Nat} {semiGlobal : Bool}
    (refers : ({ before with scopes := (before.scopes.child parent semiGlobal).2 } : State).Refers id) :
    before.Refers id ∨ id = parent := by
  cases refers with
  | @around inner _ scope present inside =>
    have present : (before.scopes.child parent semiGlobal).2[inner]? = some scope := present
    rw [Scopes.child, Array.getElem?_push] at present
    split at present
    · cases present
      cases inside
      exact .inr rfl
    · exact .inl (.around present inside)
  | closure holds => exact .inl (.closure holds.of_child)
  | content handed => exact .inl (.content handed)

theorem Refers.of_modify {id : Nat} {change : Scope → Scope} (parent : ∀ scope, (change scope).parent = scope.parent)
    (refers : ({ before with scopes := Array.modify before.scopes target change } : State).Refers id) :
    before.Refers id ∨
      ∃ closure, Scopes.Holds (Array.modify before.scopes target change) closure ∧ closure.scope = id := by
  cases refers with
  | @around inner _ scope present inside =>
    have present : (Array.modify before.scopes target change)[inner]? = some scope := present
    rw [Array.getElem?_modify] at present
    split at present
    · obtain ⟨old, found, rfl⟩ := Option.map_eq_some_iff.1 present
      exact .inl (.around found ((parent old).symm.trans inside))
    · exact .inl (.around present inside)
  | closure holds => exact .inr ⟨_, holds, rfl⟩
  | content handed => exact .inl (.content handed)

theorem Offers.grows {id : Nat} (offers : before.Offers apart id) (grows : before.scopes.size ≤ after.scopes.size) :
    after.Offers apart id := ⟨Nat.lt_of_lt_of_le offers.1 grows, offers.2⟩

/-- The only other numbers that are kept now are those of scopes that may be used. -/
theorem Connected.changed (connected : before.Connected apart) (grows : before.scopes.size ≤ after.scopes.size)
    (refers : ∀ id, after.Refers id → before.Refers id ∨ before.Offers apart id) : after.Connected apart where
  offers id kept := by
    have offered : before.Offers apart id := (refers id kept).elim (connected.offers id) fun offered => offered
    exact offered.grows grows
  global := connected.global.grows grows
  present id member := Nat.lt_of_lt_of_le (connected.present id member) grows

theorem Connected.child {parent : Nat} (connected : before.Connected apart) (offered : before.Offers apart parent)
    (semiGlobal : Bool) :
    ({ before with scopes := (before.scopes.child parent semiGlobal).2 } : State).Connected apart := by
  refine connected.changed (by simp [Scopes.child]) fun id refers => ?_
  rcases refers.of_child with known | rfl
  · exact .inl known
  · exact .inr offered

/-- A scope that was just made is known nowhere, so that it can be set apart. -/
theorem Connected.childApart {parent : Nat} (connected : before.Connected []) (offered : before.Offers [] parent)
    (semiGlobal : Bool) :
    ({ before with scopes := (before.scopes.child parent semiGlobal).2 } : State).Connected [before.scopes.size] := by
  have present := connected.child offered semiGlobal
  refine ⟨fun id refers => ⟨(present.offers id refers).1, fun same => ?_⟩, ⟨present.global.1, fun same => ?_⟩, ?_⟩
  · have older : id < before.scopes.size := by
      rcases refers.of_child with known | rfl
      · exact (connected.offers id known).1
      · exact offered.1
    exact Nat.lt_irrefl _ (List.mem_singleton.1 same ▸ older)
  · exact Nat.lt_irrefl _ (List.mem_singleton.1 same ▸ connected.global.1)
  · exact List.forall_mem_singleton.2 (by simp [Scopes.child])

theorem Connected.declared (connected : before.Connected apart) (target : Nat) (name : String) (value : Value) :
    ({ before with scopes := before.scopes.declare target name value } : State).Connected apart := by
  refine connected.changed (Nat.le_of_eq Array.size_modify.symm) fun id refers => ?_
  rw [Scopes.declare] at refers
  rcases refers.of_modify (by exact fun _ => rfl) with known | ⟨closure, holds, rfl⟩
  · exact .inl known
  · exact .inl (.closure (Scopes.Holds.of_declare holds))

end State

namespace Avoids

/-- What has nothing to do with scopes. -/
theorem still (scopes : after.scopes = before.scopes) (content : after.content = before.content)
    (scope : after.place.scope = before.place.scope) : Avoids apart own before after := by
  intro connected _
  refine ⟨connected.changed (scopes ▸ Nat.le_refl _) fun id refers => .inl ?_, fun _ _ => by rw [scopes], ?_, scope⟩
  · exact refers.still scopes fun block handed => content ▸ handed
  · exact scopes ▸ Nat.le_refl _

theorem trans (first : Avoids apart own before between) (second : Avoids apart own between after) :
    Avoids apart own before after := by
  intro connected owned
  have here := first connected owned
  have there := second here.connected fun id member => (owned id member).grows here.grows
  exact ⟨there.connected, fun id member => (there.same id member).trans (here.same id member),
    Nat.le_trans here.grows there.grows, there.scope.trans here.scope⟩

theorem mono (avoids : Avoids apart own before after) (subset : own ⊆ more) : Avoids apart more before after :=
  fun connected owned => avoids connected fun id member => owned id (subset member)

/-- A scope whose number is kept need not be owned. -/
theorem of_refers {id : Nat} (refers : before.Refers id) (avoids : Avoids apart (id :: own) before after) :
    Avoids apart own before after :=
  fun connected owned => avoids connected (List.forall_mem_cons.2 ⟨connected.offers id refers, owned⟩)

/-- An action to which a block is handed, or of which one is taken back. -/
theorem handing (avoids : Avoids apart more entered inner) (subset : more ⊆ own) (entering : entered.scopes = before.scopes)
    (handed : ∀ block, some block ∈ entered.content → some block ∈ before.content ∨ block.scope ∈ own)
    (leaving : after.scopes = inner.scopes)
    (handed' : ∀ block, some block ∈ after.content → some block ∈ inner.content ∨ before.Refers block.scope)
    (scope : inner.place.scope = entered.place.scope → after.place.scope = before.place.scope) :
    Avoids apart own before after := by
  intro connected owned
  have within : entered.Connected apart := by
    refine connected.changed (entering ▸ Nat.le_refl _) fun id refers => ?_
    cases refers with
    | around present inside => exact .inl (.around (entering ▸ present) inside)
    | closure held => exact .inl (.closure (entering ▸ held))
    | content given => exact (handed _ given).imp .content (owned _)
  have respects := avoids within fun id member => (owned id (subset member)).grows (entering ▸ Nat.le_refl _)
  have grows : before.scopes.size ≤ inner.scopes.size := entering ▸ respects.grows
  refine ⟨respects.connected.changed (leaving ▸ Nat.le_refl _) fun id refers => ?_, fun id member => ?_, ?_, ?_⟩
  · cases refers with
    | around present inside => exact .inl (.around (leaving ▸ present) inside)
    | closure held => exact .inl (.closure (leaving ▸ held))
    | content given => exact (handed' _ given).imp .content fun refers => (connected.offers _ refers).grows grows
  · rw [leaving, respects.same id member, entering]
  · exact leaving ▸ grows
  · exact scope respects.scope

/-- An action inside of a change that has nothing to do with scopes but for the current one. -/
theorem inside (avoids : Avoids apart more entered inner) (subset : more ⊆ own)
    (entering : entered.scopes = before.scopes ∧ entered.content = before.content)
    (leaving : after.scopes = inner.scopes ∧ after.content = inner.content)
    (scope : inner.place.scope = entered.place.scope → after.place.scope = before.place.scope) :
    Avoids apart own before after :=
  avoids.handing subset entering.1 (fun _ handed => .inl (entering.2 ▸ handed)) leaving.1
    (fun _ handed => .inl (leaving.2 ▸ handed)) scope

/-- A change of one scope that may be used. -/
theorem modified {change : Scope → Scope}
    (offered : before.Connected apart → (∀ id ∈ own, before.Offers apart id) → before.Offers apart target)
    (parent : ∀ scope, (change scope).parent = scope.parent)
    (held : ∀ closure, Scopes.Holds (Array.modify before.scopes target change) closure →
      before.scopes.Holds closure ∨ closure.scope ∈ own) :
    Avoids apart own before { before with scopes := Array.modify before.scopes target change } := by
  intro connected owned
  have grows : before.scopes.size ≤ (Array.modify before.scopes target change).size :=
    Nat.le_of_eq Array.size_modify.symm
  refine ⟨connected.changed grows fun id refers => ?_, fun id member => ?_, grows, rfl⟩
  · rcases refers.of_modify parent with known | ⟨closure, holds, rfl⟩
    · exact .inl known
    · exact (held closure holds).imp .closure (owned _)
  · have other : target ≠ id := by
      rintro rfl
      exact (offered connected owned).2 member
    exact (Array.getElem?_modify ..).trans (if_neg other)

theorem declared (offered : before.Connected apart → (∀ id ∈ own, before.Offers apart id) → before.Offers apart target)
    (name : String) (value : Value) :
    Avoids apart own before { before with scopes := before.scopes.declare target name value } :=
  .modified offered (fun _ => rfl) fun _ holds => .inl holds.of_declare

/-- An assignment changes the global scope, the current one, or one that is around another one. -/
theorem assigned (name : String) (value : Value) (isDefault isGlobal : Bool) :
    Avoids apart [before.place.scope] before
      { before with scopes := before.scopes.assign before.place.scope name value isDefault isGlobal } := by
  unfold Scopes.assign
  dsimp only
  split
  · split
    · exact .still rfl rfl rfl
    · exact .declared (fun connected _ => connected.global) _ _
  · split
    · exact .still rfl rfl rfl
    · refine .declared (fun connected owned => ?_) _ _
      have current := owned _ (.head _)
      cases found : before.scopes.holder? name true (before.scopes.chain before.place.scope) with
      | none => exact current
      | some holder =>
        rcases Scopes.mem_chainFrom (Scopes.mem_of_holder? found) with same | ⟨_, _, present, inside⟩
        · exact same ▸ current
        · exact connected.offers holder (.around present inside)

end Avoids

theorem flows_avoids (apart own : List Nat) : Flows (Avoids apart own) where
  refl _ := .still rfl rfl rfl
  trans := .trans
  report _ _ := .still rfl rfl rfl

theorem flows_here (apart : List Nat) :
    Flows fun before after => Avoids apart [before.place.scope] before after where
  refl _ := .still rfl rfl rfl
  trans first second connected owned := by
    have here := first connected owned
    have there := second here.connected fun id member => by
      rw [here.scope] at member
      exact (owned id member).grows here.grows
    exact ⟨there.connected, fun id member => (there.same id member).trans (here.same id member),
      Nat.le_trans here.grows there.grows, there.scope.trans here.scope⟩
  report _ _ := .still rfl rfl rfl

/-! Scopes -/

theorem declare_avoiding {scope : Nat} (member : scope ∈ own) (name : String) (value : Value) :
    Avoiding environment apart own (declare scope name value) :=
  AlongIn.modify fun _ => .declared (fun _ owned => owned scope member) name value

/-- A new scope inside of an owned one is owned by what goes on with it. -/
theorem newScope_avoiding {parent : Nat} {semiGlobal : Bool} {next : Nat → Eval β} (member : parent ∈ own)
    (rest : ∀ scope, Avoiding environment apart (scope :: own) (next scope)) :
    Avoiding environment apart own (newScope parent semiGlobal >>= next) := by
  intro before connected owned
  have grows : before.scopes.size ≤ (before.scopes.child parent semiGlobal).2.size := by simp [Scopes.child]
  have respects := rest before.scopes.size _ (connected.child (owned parent member) semiGlobal) <| List.forall_mem_cons.2
    ⟨⟨by simp [Scopes.child], fun among => Nat.lt_irrefl _ (connected.present _ among)⟩,
      fun id member => (owned id member).grows grows⟩
  refine ⟨respects.connected, fun id among => ?_, Nat.le_trans grows respects.grows, respects.scope⟩
  have older := connected.present id among
  calc
    _ = (before.scopes.child parent semiGlobal).2[id]? := respects.same id among
    _ = before.scopes[id]? := by rw [Scopes.child, Array.getElem?_push_lt older, Array.getElem?_eq_getElem older]

theorem inScope_avoiding {scope : Nat} {action : Eval α} (member : scope ∈ own)
    (inside : AvoidingHere environment apart action) : Avoiding environment apart own (inScope scope action) :=
  inside.during fun _ _ avoids => avoids.inside (List.forall_mem_singleton.2 member) ⟨rfl, rfl⟩ ⟨rfl, rfl⟩ fun _ => rfl

theorem atPlace_avoiding {place : Place} {action : Eval α} (member : place.scope ∈ own)
    (inside : AvoidingHere environment apart action) : Avoiding environment apart own (atPlace place action) :=
  inside.during fun _ _ avoids => avoids.inside (List.forall_mem_singleton.2 member) ⟨rfl, rfl⟩ ⟨rfl, rfl⟩ fun _ => rfl

/-! What is written goes elsewhere. -/

theorem push_avoiding (container : Option Nat) (content : Css.Content) (pos : Position) :
    Avoiding environment apart own (push container content pos) := fun _ => .still rfl rfl rfl

theorem pushItem_avoiding (id : Nat) (item : Css.Item) : Avoiding environment apart own (pushItem id item) :=
  fun _ => .still rfl rfl rfl

/-- A file around an action has nothing to do with scopes. -/
theorem inFile_avoiding {file : String} {action : Eval α} (inside : AvoidingHere environment apart action) :
    AvoidingHere environment apart (inFile file action) :=
  inside.during fun _ _ avoids => avoids.inside (List.Subset.refl _) ⟨rfl, rfl⟩ ⟨rfl, rfl⟩ fun same => same

theorem inFunction_avoiding {action : Eval α} (inside : AvoidingHere environment apart action) :
    AvoidingHere environment apart (inFunction action) :=
  inside.during fun _ _ avoids => avoids.inside (List.Subset.refl _) ⟨rfl, rfl⟩ ⟨rfl, rfl⟩ fun same => same

theorem inProperty_avoiding {name : String} {action : Eval α} (inside : AvoidingHere environment apart action) :
    AvoidingHere environment apart (inProperty name action) :=
  inside.during fun _ _ avoids => avoids.inside (List.Subset.refl _) ⟨rfl, rfl⟩ ⟨rfl, rfl⟩ fun same => same

/-- The body of a new node runs in a new scope. -/
theorem inNode_avoiding {holder : Option Nat} {content : Css.Content} {pos : Position} {parent : Nat}
    {place : Nat → Nat → Place} {action : Eval α} (member : parent ∈ own)
    (placed : ∀ id scope, (place id scope).scope = scope) (inside : AvoidingHere environment apart action) :
    Avoiding environment apart own (do
      let id ← push holder content pos
      let scope ← newScope parent false
      atPlace (place id scope) action) := by
  refine (flows_avoids apart own).bind (push_avoiding holder content pos) fun id => newScope_avoiding member fun scope => ?_
  exact atPlace_avoiding (by rw [placed]; exact .head _) inside

/-- An evaluator whose expressions own nothing, and whose statements own the current scope alone. -/
structure Respectful (environment : Environment) (apart : List Nat) (evaluator : Evaluator) : Prop where
  eval : ∀ expr, Avoiding environment apart [] (evaluator.eval expr)
  exec : ∀ statement, AvoidingHere environment apart (evaluator.exec statement)

section Parts

variable {self : Evaluator} (respectful : Respectful environment apart self)

include respectful

theorem eval_avoiding (own : List Nat) (expr : Expr) : Avoiding environment apart own (self.eval expr) :=
  fun before => (respectful.eval expr before).mono (List.nil_subset own)

theorem eval_here (expr : Expr) : AvoidingHere environment apart (self.eval expr) :=
  fun before => (respectful.eval expr before).mono (List.nil_subset _)

theorem block_here (body : List Statement) : AvoidingHere environment apart (self.block body) :=
  block_along (flows_here apart) fun statement _ => respectful.exec statement

theorem run_here (body : List Statement) : AvoidingHere environment apart (self.run body) :=
  run_along (flows_here apart) fun statement _ => respectful.exec statement

theorem text_here (template : Template Expr) : AvoidingHere environment apart (self.text template) :=
  text_along (flows_here apart) (eval_here respectful) template

/-! Calls -/

theorem bindParameters_avoiding {scope : Nat} (member : scope ∈ own) (pos : Position) (parameters : List Parameter)
    (values : List Value) (named : List (String × Value)) :
    Avoiding environment apart own (self.bindParameters scope pos parameters values named) := by
  have flows := flows_avoids apart own
  induction parameters generalizing values named with
  | nil => exact flows.pure
  | cons parameter rest tail =>
    cases values with
    | cons value values => exact flows.bind (declare_avoiding member _ _) fun _ => tail values named
    | nil =>
      simp only [bindParameters]
      split
      · exact flows.bind (declare_avoiding member _ _) fun _ => tail _ _
      · refine flows.bind (inScope_avoiding member (eval_here respectful _)) fun _ => ?_
        exact flows.bind (declare_avoiding member _ _) fun _ => tail _ _
      · exact flows.fail

omit respectful in
theorem bindRest_avoiding {scope : Nat} (member : scope ∈ own) (rest : Option String) (pos : Position)
    (values : List Value) (named : List (String × Value)) :
    Avoiding environment apart own (bindRest rest scope pos values named) := by
  unfold bindRest
  split
  · exact declare_avoiding member _ _
  · exact (flows_avoids apart own).fail
  · exact (flows_avoids apart own).pure

/-- The scope for the body of a mixin or of a function is owned by what goes on with it. -/
theorem bindArguments_avoiding {closure : Closure} (member : closure.scope ∈ own) (arguments : Arguments Expr)
    (pos : Position) {next : Nat → Eval β} (rest : ∀ scope, Avoiding environment apart (scope :: own) (next scope)) :
    Avoiding environment apart own (self.bindArguments closure arguments pos >>= next) := by
  have flows := flows_avoids apart own
  have bound (values : List Value) (named : List (String × Value)) :
      Avoiding environment apart own (self.parameterScope closure pos values named >>= next) := by
    have owned (scope : Nat) := flows_avoids apart (scope :: own)
    simp only [parameterScope, bind_assoc, pure_bind]
    refine newScope_avoiding member fun scope => ?_
    refine (owned scope).bind (bindParameters_avoiding respectful (.head _) pos _ values named) fun left => ?_
    exact (owned scope).bind (bindRest_avoiding (.head _) _ pos left.1 left.2) fun _ => rest scope
  simp only [bindArguments, bind_assoc]
  refine flows.bind (allArguments_along flows (eval_avoiding respectful own) arguments) fun given => ?_
  split
  · rw [bind_assoc]
    exact flows.bind flows.fail fun _ => bound given.1 given.2
  · exact bound given.1 given.2

theorem callFunction_avoiding {function : Closure} (member : function.scope ∈ own) (arguments : Arguments Expr)
    (pos : Position) : Avoiding environment apart own (self.callFunction function arguments pos) := by
  refine (flows_avoids apart own).bind (flows_avoids apart own).reported fun _ => ?_
  refine bindArguments_avoiding respectful member arguments pos fun scope => ?_
  have flows := flows_avoids apart (scope :: own)
  refine flows.bind ?_ fun value => ?_
  · exact inScope_avoiding (.head _) (inFile_avoiding (inFunction_avoiding (block_here respectful _)))
  · split
    · exact checkResult_along flows _ pos
    · exact flows.fail

theorem call_avoiding (name : String) (arguments : Arguments Expr) (pos : Position) :
    Avoiding environment apart own (self.call name arguments pos) := by
  refine .get_bind fun before => ?_
  have flows := flows_avoids apart own
  have eval := eval_avoiding respectful own
  split
  · next function known =>
    refine .of_refers (.closure (Scopes.holds_function? known)) ?_
    exact callFunction_avoiding respectful (.head _) arguments pos before
  · dsimp only
    split
    · exact callIf_along flows eval arguments pos before
    · split
      · exact callNameQuery_along flows eval _ _ arguments pos before
      · exact callBuiltin_along flows eval _ arguments pos before
      · exact callPlain_along flows eval name arguments before

theorem evalStep_avoiding (expr : Expr) : Avoiding environment apart own (self.evalStep expr) :=
  evalStep_along (flows_avoids apart own) (eval_avoiding respectful own) (call_avoiding respectful) expr

/-! Control directives -/

theorem innerBlock_here (bound : List (String × Value)) (body : List Statement) :
    AvoidingHere environment apart (self.innerBlock bound body) := by
  refine .get_bind fun before => ?_
  have own : Avoiding environment apart [before.place.scope] (newScope before.place.scope true >>= fun scope => do
      for entry in bound do declare scope entry.1 entry.2
      inScope scope (self.block body)) := by
    refine newScope_avoiding (.head _) fun scope => ?_
    have flows := flows_avoids apart (scope :: [before.place.scope])
    refine flows.bind (flows.forIn (fun _ _ => ?_) bound _) fun _ => ?_
    · exact flows.bind (declare_avoiding (.head _) _ _) fun _ => flows.pure
    · exact inScope_avoiding (.head _) (block_here respectful body)
  exact own before

/-! Output -/

theorem rule_here (selector : Template Expr) (body : List Statement) (pos : Position) :
    AvoidingHere environment apart (self.rule selector body pos) := by
  have flows := flows_here apart
  refine flows.bind (text_here respectful selector) fun text => ?_
  refine flows.bind (resolved_along flows text pos) fun selectors => .get_bind fun before => ?_
  exact inNode_avoiding (.head []) (fun _ _ => rfl) (run_here respectful body) before

theorem directive_here (name : String) (parameters : Template Expr) (block : Option (List Statement)) (pos : Position) :
    AvoidingHere environment apart (self.directive name parameters block pos) := by
  have flows := flows_here apart
  unfold Evaluator.directive
  split
  · exact flows.pure
  · refine flows.bind (text_here respectful parameters) fun text => .get_bind fun before => ?_
    cases block with
    | none => exact (flows_avoids apart _).bind (push_avoiding _ _ _) (fun _ => (flows_avoids apart _).pure) before
    | some body => exact inNode_avoiding (.head []) (fun _ _ => rfl) (run_here respectful body) before

theorem media_here (query : Template Expr) (body : List Statement) (pos : Position) :
    AvoidingHere environment apart (self.media query body pos) := by
  have flows := flows_here apart
  refine flows.bind (text_here respectful query) fun text => .get_bind fun before => ?_
  have own := flows_avoids apart [before.place.scope]
  exact own.bind own.reported (fun _ => inNode_avoiding (.head []) (fun _ _ => rfl) (run_here respectful body)) before

omit respectful in
theorem declarationTarget_here (pos : Position) : AvoidingHere environment apart (declarationTarget pos) := by
  have flows := flows_here apart
  refine flows.bind flows.get fun state => ?_
  dsimp only
  split
  · exact flows.pure
  · refine flows.bind (fun before => push_avoiding _ _ _ before) fun id => ?_
    exact flows.bind (AlongIn.modify fun _ => .still rfl rfl rfl) fun _ => flows.pure
  · exact flows.pure
  · exact flows.fail

omit respectful in
theorem declared_here (property : String) (value : Value) (important : Bool) (pos : Position) :
    AvoidingHere environment apart (declared property value important pos) := by
  have flows := flows_here apart
  refine flows.bind flows.read fun _ => flows.bind flows.ofOperation fun css => ?_
  split
  · refine flows.bind (declarationTarget_here pos) fun target => flows.bind flows.span fun span => ?_
    exact fun before => pushItem_avoiding _ _ before
  · exact flows.pure

theorem declaration_here (property : Template Expr) (value : Option Expr) (important : Bool) (nested : List Statement)
    (pos : Position) : AvoidingHere environment apart (self.declaration property value important nested pos) := by
  have flows := flows_here apart
  have inner {name : String} :
      AvoidingHere environment apart (if !nested.isEmpty then inProperty name (self.run nested) else pure ()) := by
    split
    · exact inProperty_avoiding (run_here respectful nested)
    · exact flows.pure
  refine flows.bind (text_here respectful property) fun text => flows.bind flows.get fun state => ?_
  cases value with
  | some expr =>
    refine flows.bind (cssValue_along flows (eval_here respectful) expr) fun found => ?_
    exact flows.bind (declared_here _ _ _ _) fun _ => inner
  | none =>
    dsimp only
    split
    · exact flows.bind (declarationTarget_here pos) fun _ => inner
    · exact inner

omit respectful in
theorem comment_here (text : Comment) (pos : Position) : AvoidingHere environment apart (comment text pos) := by
  have flows := flows_here apart
  refine flows.bind flows.get fun state => ?_
  split
  · split
    · exact fun before => pushItem_avoiding _ _ before
    · exact flows.bind (fun before => push_avoiding _ _ _ before) fun _ => flows.pure
  · exact flows.pure

/-! What is written elsewhere -/

omit respectful in
theorem withContent_avoiding {block : Option ContentBlock} {action : Eval α}
    (owned : ∀ handed ∈ block, handed.scope ∈ own) (inside : Avoiding environment apart own action) :
    Avoiding environment apart own (withContent block action) := by
  intro before
  refine (inside { before with content := block :: before.content }).handing (List.Subset.refl _) rfl
    (fun handed member => ?_) rfl (fun handed member => .inl (List.mem_of_mem_tail member)) fun same => same
  rcases List.mem_cons.1 member with given | outer
  · exact .inr (owned handed given.symm)
  · exact .inl outer

theorem inclusion_here (name : String) (arguments : Arguments Expr) (content : Option (List Statement)) (pos : Position) :
    AvoidingHere environment apart (self.inclusion name arguments content pos) := by
  refine .get_bind fun before => ?_
  split
  · exact (flows_here apart).fail before
  · next mixin known =>
    refine .of_refers (.closure (Scopes.holds_mixin? known)) ?_
    have flows := flows_avoids apart [mixin.scope, before.place.scope]
    refine flows.bind flows.reported (fun _ => bindArguments_avoiding respectful (.head _) arguments pos fun scope => ?_) before
    refine withContent_avoiding (fun handed member => ?_) ?_
    · obtain ⟨body, -, rfl⟩ := Option.map_eq_some_iff.1 member
      exact .tail _ (.tail _ (.head _))
    · exact inScope_avoiding (.head _) (inFile_avoiding (run_here respectful _))

theorem content_here : AvoidingHere environment apart self.content := by
  refine .get_bind fun before => ?_
  split
  · next block outer handed =>
    have first : some block ∈ before.content := handed ▸ .head _
    have ran : Avoiding environment apart [block.scope, before.place.scope] (do
        let scope ← newScope block.scope false
        inScope scope (inFile block.file (self.run block.body))) :=
      newScope_avoiding (.head _) fun scope => inScope_avoiding (.head _) (inFile_avoiding (run_here respectful _))
    refine .of_refers (.content first) ?_
    refine (ran { before with content := outer }).handing (List.Subset.refl _) rfl
      (fun other member => .inl (handed ▸ .tail _ member)) rfl (fun other member => ?_) fun same => same
    rcases List.mem_cons.1 member with given | later
    · cases given
      exact .inr (.content first)
    · exact .inl later
  · exact (flows_here apart).pure before

theorem runSheet_here (sheet : Sheet) : AvoidingHere environment apart (self.runSheet sheet) := by
  have flows := flows_here apart
  refine flows.bind flows.reported fun _ => ?_
  refine flows.bind (AlongIn.modifyGet fun _ => .still rfl rfl rfl) fun source => ?_
  exact (run_here respectful sheet.statements).during fun _ _ avoids =>
    avoids.inside (List.Subset.refl _) ⟨rfl, rfl⟩ ⟨rfl, rfl⟩ fun same => same

omit respectful in
theorem writeImport_here (parameters : String) (pos : Position) :
    AvoidingHere environment apart (writeImport parameters pos) := fun _ => .still rfl rfl rfl

theorem importTarget_here (pos : Position) (target : ImportTarget) :
    AvoidingHere environment apart (self.importTarget pos target) := by
  have flows := flows_here apart
  cases target with
  | css text => exact flows.bind (text_here respectful text) fun _ => writeImport_here _ pos
  | sheet reference place =>
    have found : AvoidingHere environment apart (findImport reference place) :=
      flows.bind (AlongIn.modify fun _ => .still rfl rfl rfl) fun _ => askHook_along flows reference place
    refine flows.bind found fun sheet => ?_
    cases sheet with
    | none => exact writeImport_here _ pos
    | some sheet => exact runSheet_here respectful sheet

theorem imports_here (pos : Position) (targets : List ImportTarget) :
    AvoidingHere environment apart (self.imports pos targets) := by
  have flows := flows_here apart
  induction targets with
  | nil => exact flows.pure
  | cons target rest tail => exact flows.bind (importTarget_here respectful pos target) fun _ => tail

/-! Statements -/

omit respectful in
theorem written_here {action : Eval Unit} (pos : Position) (inside : AvoidingHere environment apart action) :
    AvoidingHere environment apart (written pos action) := by
  have flows := flows_here apart
  exact effect_along flows (flows.bind (refuseInFunction_along flows pos) fun _ => inside)

/-- What is defined here is kept with the number of the current scope. -/
theorem runStatement_here (statement : Statement) : AvoidingHere environment apart (self.runStatement statement) := by
  have flows := flows_here apart
  have eval := eval_here respectful
  have inner := innerBlock_here respectful
  cases statement with
  | rule pos selector body => exact written_here pos (rule_here respectful _ _ _)
  | declaration pos property value important nested => exact written_here pos (declaration_here respectful _ _ _ _ _)
  | directive pos name parameters body => exact written_here pos (directive_here respectful _ _ _ _)
  | media pos query body => exact written_here pos (media_here respectful _ _ _)
  | assignment pos name value isDefault isGlobal =>
    exact effect_along flows (flows.bind (eval value) fun _ => AlongIn.modify fun _ => .assigned _ _ _ _)
  | mixin pos callable =>
    refine effect_along flows (AlongIn.modify fun _ => .modified (fun _ owned => owned _ (.head _)) (fun _ => rfl) ?_)
    intro closure holds
    rcases Scopes.Holds.of_defineMixin holds with rfl | old
    · exact .inr (.head _)
    · exact .inl old
  | function pos callable =>
    refine effect_along flows (AlongIn.modify fun _ => .modified (fun _ owned => owned _ (.head _)) (fun _ => rfl) ?_)
    intro closure holds
    rcases Scopes.Holds.of_defineFunction holds with rfl | old
    · exact .inr (.head _)
    · exact .inl old
  | inclusion pos name arguments content => exact written_here pos (inclusion_here respectful _ _ _ _)
  | content pos => exact effect_along flows (content_here respectful)
  | result pos value => exact result_along flows eval value pos
  | branch pos clauses otherwise => exact branch_along flows eval otherwise clauses fun body _ => inner [] body
  | forEach pos names items body =>
    exact flows.bind (eval items) fun _ => forEach_along flows (fun bound => inner bound body) names _
  | forRange pos name first last inclusive body =>
    exact forRange_along flows eval (fun bound => inner bound body) name first last inclusive
  | whileTrue pos condition body => exact whileTrue_along flows eval (fun bound => inner bound body) condition _
  | imports pos targets => exact effect_along flows (imports_here respectful pos targets)
  | message pos kind value => exact effect_along flows (message_along flows eval kind value pos)
  | unsupported pos name => exact flows.fail
  | comment pos text => exact effect_along flows (comment_here text pos)

end Parts

/-- By induction on the depth. -/
theorem respectful_evaluator (environment : Environment) (apart : List Nat) (depth : Nat) :
    Respectful environment apart (evaluator depth) := by
  induction depth with
  | zero => exact ⟨fun _ => (flows_avoids apart []).throw, fun _ => (flows_here apart).throw⟩
  | succ depth shallower =>
    refine ⟨evalStep_avoiding shallower, fun statement => ?_⟩
    exact (runStatement_here shallower statement).during fun _ _ avoids =>
      avoids.inside (List.Subset.refl _) ⟨rfl, rfl⟩ ⟨rfl, rfl⟩ fun same => same

/-- Wherever the evaluation of a stylesheet ends, the numbers that are kept lead to scopes. -/
theorem connected_evaluate (environment : Environment) (sheet : Sheet) :
    (evaluate environment sheet).2.Connected [] := by
  have start := State.connected_start sheet
  have run := run_here (respectful_evaluator environment [] depthLimit) sheet.statements (State.start sheet)
  exact (run start (List.forall_mem_singleton.2 start.global)).connected

end Evaluation

end Stylesheet
