import Stylesheet.Scope

/-! Assignments and the global scope. A scope is confined if, on the way out of it, there is one that belongs to no
control directive before the global scope is reached. An assignment in a confined scope never changes a variable of the
global scope, and a scope stays confined whatever is declared and defined. -/

namespace Stylesheet.Scopes

variable {scopes before between after : Scopes} {id parent : Nat} {name : String} {value : Value} {closure : Closure}

/-- The variables of the global scope. -/
def globals (scopes : Scopes) : Option (Bindings Value) := scopes[globalId]?.map (·.values)

/-- Nothing is around the global scope. -/
def Rooted (scopes : Scopes) : Prop := ∃ scope, scopes[globalId]? = some scope ∧ scope.parent = none

/-- There is a scope around a scope. -/
def Inner (scopes : Scopes) (id : Nat) : Prop := ∃ scope, scopes[id]? = some scope ∧ scope.parent.isSome = true

inductive Confined (scopes : Scopes) : Nat → Prop
  | here {id : Nat} {scope : Scope} (present : scopes[id]? = some scope) (inner : scope.parent.isSome = true)
    (apart : scope.semiGlobal = false) : Confined scopes id
  | around {id outer : Nat} {scope : Scope} (present : scopes[id]? = some scope) (inside : scope.parent = some outer)
    (confined : Confined scopes outer) : Confined scopes id

/-- The scopes stay, each inside of the same one. -/
def Extends (before after : Scopes) : Prop :=
  ∀ (id : Nat) (scope : Scope), before[id]? = some scope →
    ∃ later, after[id]? = some later ∧ later.parent = scope.parent ∧ later.semiGlobal = scope.semiGlobal

namespace Extends

theorem refl (scopes : Scopes) : scopes.Extends scopes := fun _ scope present => ⟨scope, present, rfl, rfl⟩

theorem trans (first : before.Extends between) (second : between.Extends after) : before.Extends after := by
  intro id scope present
  obtain ⟨middle, found, parent, semiGlobal⟩ := first id scope present
  obtain ⟨last, found, parent', semiGlobal'⟩ := second id middle found
  exact ⟨last, found, parent'.trans parent, semiGlobal'.trans semiGlobal⟩

theorem child (scopes : Scopes) (parent : Nat) (semiGlobal : Bool) :
    scopes.Extends (scopes.child parent semiGlobal).2 := by
  intro id scope present
  obtain ⟨small, rfl⟩ := Array.getElem?_eq_some_iff.1 present
  exact ⟨_, by simp only [Scopes.child, Array.getElem?_push_lt small], rfl, rfl⟩

theorem modify (scopes : Scopes) (id : Nat) {change : Scope → Scope}
    (keeps : ∀ scope, (change scope).parent = scope.parent ∧ (change scope).semiGlobal = scope.semiGlobal) :
    scopes.Extends (Array.modify scopes id change) := by
  intro other scope present
  rw [Array.getElem?_modify, present]
  split
  · exact ⟨_, rfl, keeps scope⟩
  · exact ⟨_, rfl, rfl, rfl⟩

theorem declare (scopes : Scopes) (id : Nat) (name : String) (value : Value) :
    scopes.Extends (scopes.declare id name value) := modify scopes id fun _ => ⟨rfl, rfl⟩

theorem assign (scopes : Scopes) (id : Nat) (name : String) (value : Value) (isDefault isGlobal : Bool) :
    scopes.Extends (scopes.assign id name value isDefault isGlobal) := by
  unfold Scopes.assign
  dsimp only
  split
  · split
    · exact .refl scopes
    · exact .declare _ _ _ _
  · split
    · exact .refl scopes
    · exact .declare _ _ _ _

theorem defineMixin (scopes : Scopes) (id : Nat) (closure : Closure) :
    scopes.Extends (scopes.defineMixin id closure) := modify scopes id fun _ => ⟨rfl, rfl⟩

theorem defineFunction (scopes : Scopes) (id : Nat) (closure : Closure) :
    scopes.Extends (scopes.defineFunction id closure) := modify scopes id fun _ => ⟨rfl, rfl⟩

theorem rooted (extended : before.Extends after) (rooted : before.Rooted) : after.Rooted := by
  obtain ⟨scope, present, outermost⟩ := rooted
  obtain ⟨later, found, parent, -⟩ := extended _ scope present
  exact ⟨later, found, parent.trans outermost⟩

theorem confined (extended : before.Extends after) (confined : before.Confined id) : after.Confined id := by
  induction confined with
  | here present inner apart =>
    obtain ⟨later, found, parent, semiGlobal⟩ := extended _ _ present
    exact .here found (by rw [parent, inner]) (semiGlobal.trans apart)
  | around present inside _ outer =>
    obtain ⟨later, found, parent, -⟩ := extended _ _ present
    exact .around found (parent.trans inside) outer

end Extends

theorem rooted_start : start.Rooted := ⟨_, rfl, rfl⟩

theorem Rooted.nonempty (rooted : scopes.Rooted) : 0 < scopes.size := by
  obtain ⟨scope, present, -⟩ := rooted
  exact (Array.getElem?_eq_some_iff.1 present).1

theorem Inner.ne_globalId (inner : scopes.Inner id) (rooted : scopes.Rooted) : id ≠ globalId := by
  rintro rfl
  obtain ⟨scope, present, around⟩ := inner
  obtain ⟨global, found, outermost⟩ := rooted
  cases present.symm.trans found
  rw [outermost] at around
  cases around

theorem child_last (scopes : Scopes) (parent : Nat) (semiGlobal : Bool) :
    (scopes.child parent semiGlobal).2[scopes.size]? = some (Scope.empty (some parent) semiGlobal) :=
  Array.getElem?_push_size

namespace Confined

theorem inner (confined : scopes.Confined id) : scopes.Inner id := by
  cases confined with
  | here present inner => exact ⟨_, present, inner⟩
  | around present inside => exact ⟨_, present, by rw [inside]; rfl⟩

theorem child (scopes : Scopes) (parent : Nat) : (scopes.child parent false).2.Confined scopes.size :=
  .here (child_last scopes parent false) rfl rfl

/-- Control directives run in scopes that are as confined as the one around them. -/
theorem child_around (confined : scopes.Confined parent) (semiGlobal : Bool) :
    (scopes.child parent semiGlobal).2.Confined scopes.size :=
  .around (child_last scopes parent semiGlobal) rfl ((Extends.child scopes parent semiGlobal).confined confined)

end Confined

/-! The variable that an assignment changes -/

/-- Behind a scope that belongs to no control directive, the global scope does not count. -/
theorem inner_of_holder?_false {ids : List Nat} {holder : Nat} (found : scopes.holder? name false ids = some holder) :
    scopes.Inner holder := by
  induction ids with
  | nil => cases found
  | cons id rest further =>
    rw [holder?] at found
    split at found
    · cases found
    · next scope present =>
      split at found
      · simp at found
      · next around =>
        split at found
        · cases found
          exact ⟨scope, present, by simpa [Option.isSome_iff_ne_none] using around⟩
        · exact further found

/-- By induction on the way out to the scope that belongs to no control directive. -/
theorem Confined.inner_of_holder? (confined : scopes.Confined id) {steps : Nat} {semiGlobal : Bool} {holder : Nat}
    (found : scopes.holder? name semiGlobal (scopes.chainFrom steps id) = some holder) : scopes.Inner holder := by
  induction confined generalizing steps semiGlobal with
  | @here id scope present inner apart =>
    cases steps with
    | zero => cases found
    | succ steps =>
      have nested : scope.parent.isNone = false := by simpa using inner
      rw [chainFrom, present] at found
      simp only [holder?, present, nested, apart, Bool.and_false, Bool.false_eq_true, if_false] at found
      split at found
      · cases found
        exact ⟨scope, present, inner⟩
      · exact inner_of_holder?_false found
  | @around id outer scope present inside confined further =>
    cases steps with
    | zero => cases found
    | succ steps =>
      rw [chainFrom, present] at found
      simp only [holder?, present, inside, Option.isNone_some, Bool.false_eq_true, if_false, Option.map_some,
        Option.getD_some] at found
      split at found
      · cases found
        exact ⟨scope, present, by rw [inside]; rfl⟩
      · exact further found

/-! What leaves the global variables as they are -/

theorem globals_child (rooted : scopes.Rooted) (parent : Nat) (semiGlobal : Bool) :
    (scopes.child parent semiGlobal).2.globals = scopes.globals := by
  simp only [globals, child, globalId, Array.getElem?_push_lt rooted.nonempty, Array.getElem?_eq_getElem rooted.nonempty]

theorem globals_modify {change : Scope → Scope} (keeps : id = globalId → ∀ scope, (change scope).values = scope.values) :
    globals (Array.modify scopes id change) = scopes.globals := by
  rw [globals, globals, Array.getElem?_modify]
  split
  · next here => cases found : scopes[globalId]? <;> simp [keeps here]
  · rfl

theorem globals_declare (rooted : scopes.Rooted) (inner : scopes.Inner id) (name : String) (value : Value) :
    (scopes.declare id name value).globals = scopes.globals :=
  globals_modify fun here => absurd here (inner.ne_globalId rooted)

theorem globals_defineMixin (id : Nat) (closure : Closure) :
    (scopes.defineMixin id closure).globals = scopes.globals := globals_modify fun _ _ => rfl

theorem globals_defineFunction (id : Nat) (closure : Closure) :
    (scopes.defineFunction id closure).globals = scopes.globals := globals_modify fun _ _ => rfl

/-- An assignment that is not marked as global stays inside of a confined scope. -/
theorem globals_assign (rooted : scopes.Rooted) (confined : scopes.Confined id) (name : String) (value : Value)
    (isDefault : Bool) : (scopes.assign id name value isDefault false).globals = scopes.globals := by
  rw [assign, if_neg Bool.false_ne_true]
  split
  · rfl
  · refine globals_declare rooted ?_ name value
    cases found : scopes.holder? name true (scopes.chain id) with
    | none => exact confined.inner
    | some holder => exact confined.inner_of_holder? found

end Stylesheet.Scopes
