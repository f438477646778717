import Mathlib.Data.List.Basic
import Stylesheet.Proofs.ScopeReferences

/-! Arguments of mixins and functions that have no parameter for what is left over. The arguments that are given decide
alone whether there are too many of them or some that have no name here. The others are defaults: each is evaluated in the
new scope, in which nothing but the parameters before it is bound. -/

namespace Stylesheet

/-- The form of a parameter's name that names of arguments are compared with. -/
def Parameter.key (parameter : Parameter) : String := normalizeName parameter.name

namespace Bindings

variable {α : Type} {bindings : Bindings α} {name other : String} {value : α}

theorem set_of_notMem (absent : name ∉ bindings.map (·.1)) : bindings.set name value = bindings ++ [(name, value)] := by
  induction bindings with
  | nil => rfl
  | cons first rest later =>
    obtain ⟨here, behind⟩ := not_or.1 (List.mem_cons.not.1 absent)
    rw [Bindings.set, if_neg (Ne.symm here), later behind, List.cons_append]

theorem keys_eraseP (bindings : Bindings α) (name : String) :
    (bindings.eraseP (·.1 == name)).map (·.1) = (bindings.map (·.1)).erase name := by
  induction bindings with
  | nil => rfl
  | cons first rest later =>
    rw [List.eraseP_cons, List.map_cons, List.erase_cons]
    cases first.1 == name with
    | true => rfl
    | false => exact congrArg (first.1 :: ·) later

theorem eraseP_of_lookup_none (missing : bindings.lookup name = none) : bindings.eraseP (·.1 == name) = bindings := by
  refine List.eraseP_of_forall_not fun entry member same => ?_
  have other := List.lookup_eq_none_iff.1 missing entry member
  simp_all

theorem lookup_eraseP (different : name ≠ other) :
    (bindings.eraseP (·.1 == other)).lookup name = bindings.lookup name := by
  induction bindings with
  | nil => rfl
  | cons first rest later =>
    rw [List.eraseP_cons]
    cases same : first.1 == other with
    | true => rw [cond_true, List.lookup_cons, beq_eq_false_iff_ne.2 (beq_iff_eq.1 same ▸ different)]
    | false => rw [cond_false, List.lookup_cons, List.lookup_cons, later]

end Bindings

namespace Evaluation
open Evaluator

variable {environment : Environment} {self : Evaluator} {closure : Closure} {scope : Nat} {pos : Position}
  {parameter : Parameter} {parameters : List Parameter} {values : List Value} {named bound all : Bindings Value}
  {rest : List (Parameter × Option Value)} {value : Value} {before between after state : State}

/-- The scope for a body, with what is bound in it. -/
def scopeFor (closure : Closure) (bound : Bindings Value) : Scope :=
  { Scope.empty (some closure.scope) false with values := bound }

/-- The arguments that are given for parameters: one at the place of the parameter, or else one with its name. -/
def given (parameters : List Parameter) (values : List Value) (named : Bindings Value) :
    List (Parameter × Option Value) :=
  parameters.mapIdx fun i parameter => (parameter, values[i]?.or (named.lookup parameter.key))

/-- The arguments that have none of the names. -/
def unnamed (parameters : List Parameter) (named : Bindings Value) : Bindings Value :=
  parameters.foldl (fun named parameter => named.eraseP (·.1 == parameter.key)) named

/-- There is a new scope inside of another one. -/
def State.opened (state : State) (outer : Nat) : State := { state with scopes := (state.scopes.child outer false).2 }

def State.declared (state : State) (scope : Nat) (parameter : Parameter) (value : Value) : State :=
  { state with scopes := state.scopes.declare scope parameter.name value }

/-- Parameters are bound in a scope one after another: each to the argument that is given, or else to its default. There
the earlier parameters are bound, and nothing else. -/
inductive Fills (self : Evaluator) (environment : Environment) (closure : Closure) (scope : Nat) :
    List (Parameter × Option Value) → Bindings Value → State → Bindings Value → State → Prop
  | done {bound : Bindings Value} {state : State} : Fills self environment closure scope [] bound state bound state
  | argument {parameter : Parameter} {value : Value} {rest : List (Parameter × Option Value)} {bound all : Bindings Value}
    {state after : State}
    (later : Fills self environment closure scope rest (bound ++ [(parameter.key, value)])
      (state.declared scope parameter value) all after) :
    Fills self environment closure scope ((parameter, some value) :: rest) bound state all after
  | default {parameter : Parameter} {default : Expr} {value : Value} {rest : List (Parameter × Option Value)}
    {bound all : Bindings Value} {state inner after : State} (known : parameter.default = some default)
    (here : state.scopes[scope]? = some (scopeFor closure bound))
    (evaluated : Yields (self.eval default) environment { state with place.scope := scope } value inner)
    (later : Fills self environment closure scope rest (bound ++ [(parameter.key, value)])
      (({ inner with place.scope := state.place.scope } : State).declared scope parameter value) all after) :
    Fills self environment closure scope ((parameter, none) :: rest) bound state all after

/-- While parameters are bound, nothing else knows of their scope. -/
structure Filling (closure : Closure) (scope : Nat) (bound : Bindings Value) (state : State) : Prop where
  connected : state.Connected [scope]
  holds : state.scopes[scope]? = some (scopeFor closure bound)

/-! Arguments that are left over -/

theorem erase_within {name : String} {names keys : List String} (absent : name ∉ keys) :
    ((names.erase name).Nodup ∧ ∀ other ∈ names.erase name, other ∈ keys) ↔
      names.Nodup ∧ ∀ other ∈ names, other ∈ name :: keys := by
  constructor
  · rintro ⟨distinct, within⟩
    by_cases among : name ∈ names
    · have parts := List.perm_cons_erase among
      refine ⟨parts.nodup_iff.2 (List.nodup_cons.2 ⟨fun again => absent (within name again), distinct⟩), fun other member => ?_⟩
      exact List.mem_cons.2 ((List.mem_cons.1 (parts.mem_iff.1 member)).imp_right (within other))
    · rw [List.erase_of_not_mem among] at distinct within
      exact ⟨distinct, fun other member => .tail _ (within other member)⟩
  · rintro ⟨distinct, within⟩
    refine ⟨distinct.erase name, fun other member => ?_⟩
    obtain ⟨different, member⟩ := distinct.mem_erase_iff.1 member
    exact (List.mem_cons.1 (within other member)).resolve_left different

/-- By induction on the parameters: each takes one name away. -/
theorem unnamed_eq_nil_iff (distinct : (parameters.map Parameter.key).Nodup) :
    unnamed parameters named = [] ↔
      (named.map (·.1)).Nodup ∧ ∀ name ∈ named.map (·.1), name ∈ parameters.map Parameter.key := by
  induction parameters generalizing named with
  | nil =>
    change named = [] ↔ _
    constructor
    · rintro rfl
      exact ⟨.nil, fun _ member => member⟩
    · exact fun none => List.map_eq_nil_iff.1 (List.eq_nil_iff_forall_not_mem.2 fun name member =>
        List.not_mem_nil (none.2 name member))
  | cons parameter rest later =>
    obtain ⟨absent, distinct⟩ := List.nodup_cons.1 distinct
    change unnamed rest (named.eraseP (·.1 == parameter.key)) = [] ↔ _
    rw [later distinct, Bindings.keys_eraseP, List.map_cons, erase_within absent]

/-! The arguments that are given -/

theorem given_cons_cons (parameter : Parameter) (parameters : List Parameter) (value : Value) (values : List Value)
    (named : Bindings Value) :
    given (parameter :: parameters) (value :: values) named = (parameter, some value) :: given parameters values named := by
  rw [given, List.mapIdx_cons]
  rfl

theorem given_nil (parameters : List Parameter) (named : Bindings Value) :
    given parameters [] named = parameters.map fun parameter => (parameter, named.lookup parameter.key) := by
  apply List.ext_getElem?
  simp [given]

theorem keys_given (parameters : List Parameter) (values : List Value) (named : Bindings Value) :
    (given parameters values named).map (·.1.key) = parameters.map Parameter.key := by
  apply List.ext_getElem?
  simp [given, Function.comp_def]

/-- The argument for one parameter is none for the others. -/
theorem given_eraseP {name : String} (absent : name ∉ parameters.map Parameter.key) :
    given parameters [] (named.eraseP (·.1 == name)) = given parameters [] named := by
  rw [given_nil, given_nil]
  refine List.map_congr_left fun parameter member => ?_
  have different : parameter.key ≠ name := by
    rintro rfl
    exact absent (List.mem_map_of_mem member)
  rw [Bindings.lookup_eraseP different]

/-! Parameters that are bound -/

namespace Filling

theorem opened (connected : state.Connected []) (around : closure.scope < state.scopes.size) :
    Filling closure state.scopes.size [] (state.opened closure.scope) :=
  ⟨connected.childApart ⟨around, List.not_mem_nil⟩ false, Scopes.child_last _ _ _⟩

theorem declared (filling : Filling closure scope bound state) (fresh : parameter.key ∉ bound.map (·.1)) :
    Filling closure scope (bound ++ [(parameter.key, value)]) (state.declared scope parameter value) := by
  refine ⟨filling.connected.declared scope parameter.name value, ?_⟩
  rw [State.declared, Scopes.declare, Array.getElem?_modify, if_pos rfl, filling.holds]
  exact congrArg (fun bound => some (scopeFor closure bound)) (Bindings.set_of_notMem fresh)

/-- A default does not know of the scope in which it is evaluated, but for what is bound there. -/
theorem evaluated (respectful : Respectful environment [scope] self) (filling : Filling closure scope bound state)
    {default : Expr} (yields : Yields (self.eval default) environment { state with place.scope := scope } value after) :
    Filling closure scope bound { after with place.scope := state.place.scope } := by
  have entered : ({ state with place.scope := scope } : State).Connected [scope] :=
    filling.connected.changed (Nat.le_refl _) fun id refers => .inl (refers.still rfl fun _ handed => handed)
  have respects := respectful.eval default _ entered fun _ member => absurd member List.not_mem_nil
  rw [yields] at respects
  refine ⟨respects.connected.changed (Nat.le_refl _) fun id refers => .inl (refers.still rfl fun _ handed => handed), ?_⟩
  exact (respects.same scope (.head _)).trans filling.holds

end Filling

@[simp] theorem fills_nil : Fills self environment closure scope [] bound state all after ↔ all = bound ∧ after = state := by
  constructor
  · intro fills
    cases fills
    exact ⟨rfl, rfl⟩
  · rintro ⟨rfl, rfl⟩
    exact .done

theorem fills_argument : Fills self environment closure scope ((parameter, some value) :: rest) bound state all after ↔
    Fills self environment closure scope rest (bound ++ [(parameter.key, value)]) (state.declared scope parameter value)
      all after := by
  constructor
  · intro fills
    cases fills with
    | argument later => exact later
  · exact .argument

theorem fills_default {default : Expr} (known : parameter.default = some default)
    (here : state.scopes[scope]? = some (scopeFor closure bound)) :
    Fills self environment closure scope ((parameter, none) :: rest) bound state all after ↔
      ∃ value inner, Yields (self.eval default) environment { state with place.scope := scope } value inner ∧
        Fills self environment closure scope rest (bound ++ [(parameter.key, value)])
          (({ inner with place.scope := state.place.scope } : State).declared scope parameter value) all after := by
  constructor
  · intro fills
    cases fills with
    | default known' _ evaluated later =>
      cases known.symm.trans known'
      exact ⟨_, _, evaluated, later⟩
  · rintro ⟨value, inner, evaluated, later⟩
    exact .default known here evaluated later

/-- By induction on the parameters, of which the earlier ones are bound already. -/
theorem yields_bindParameters (respectful : Respectful environment [scope] self) {left : List Value × Bindings Value}
    (filling : Filling closure scope bound state)
    (distinct : (bound.map (·.1) ++ parameters.map Parameter.key).Nodup) :
    Yields (self.bindParameters scope pos parameters values named) environment state left after ↔
      left = (values.drop parameters.length, unnamed (parameters.drop values.length) named) ∧
        ∃ all, Fills self environment closure scope (given parameters values named) bound state all after := by
  induction parameters generalizing values named bound state with
  | nil => simp [bindParameters, given, unnamed]
  | cons parameter rest later =>
    have fresh : parameter.key ∉ bound.map (·.1) := fun among =>
      (List.nodup_append.1 distinct).2.2 _ among _ (.head _) rfl
    have distinct' (value : Value) :
        ((bound ++ [(parameter.key, value)]).map (·.1) ++ rest.map Parameter.key).Nodup := by
      simpa using distinct
    have declared {next : Eval (List Value × Bindings Value)} {value : Value} {before : State} :
        Yields (declare scope parameter.name value >>= fun _ => next) environment before left after ↔
          Yields next environment (before.declared scope parameter value) left after := by
      simp only [declare, yields_bind, yields_modify, exists_const, exists_eq_left]
      rfl
    cases values with
    | cons value values =>
      rw [bindParameters, declared, given_cons_cons, later (filling.declared fresh) (distinct' value)]
      simp only [fills_argument]
      rfl
    | nil =>
      have only : parameter.key ∉ rest.map Parameter.key := (List.nodup_cons.1 (List.nodup_append.1 distinct).2.1).1
      have step : given (parameter :: rest) [] named = (parameter, named.lookup parameter.key) :: given rest [] named := by
        rw [given_nil, given_nil, List.map_cons]
      have key : normalizeName parameter.name = parameter.key := rfl
      rw [bindParameters, step, key]
      cases argument : named.lookup parameter.key with
      | some value =>
        dsimp only
        rw [declared, later (filling.declared fresh) (distinct' value), given_eraseP only, List.drop_nil, List.drop_nil]
        simp only [fills_argument]
        rfl
      | none =>
        cases known : parameter.default with
        | none =>
          refine iff_of_false yields_fail ?_
          rintro ⟨-, all, fills⟩
          cases fills with
          | default known' => exact Option.some_ne_none _ (known'.symm.trans known)
        | some default =>
          have all' : unnamed (parameter :: rest) named = unnamed rest named :=
            congrArg (unnamed rest) (Bindings.eraseP_of_lookup_none argument)
          dsimp only
          simp only [yields_bind, inScope, yields_during, declare, yields_modify]
          rw [List.length_nil, List.drop_zero, all', List.drop_nil]
          constructor
          · rintro ⟨value, _, ⟨inner, evaluated, rfl⟩, _, _, rfl, bound⟩
            obtain ⟨same, all, fills⟩ :=
              (later ((filling.evaluated respectful evaluated).declared fresh) (distinct' value)).1 bound
            refine ⟨?_, all, (fills_default known filling.holds).2 ⟨value, inner, evaluated, fills⟩⟩
            simpa using same
          · rintro ⟨same, all, fills⟩
            obtain ⟨value, inner, evaluated, fills⟩ := (fills_default known filling.holds).1 fills
            refine ⟨value, _, ⟨inner, evaluated, rfl⟩, (), _, rfl, ?_⟩
            refine (later ((filling.evaluated respectful evaluated).declared fresh) (distinct' value)).2 ⟨?_, all, fills⟩
            simpa using same

namespace Fills

theorem scope_eq (fills : Fills self environment closure scope rest bound state all after) :
    after.place.scope = state.place.scope := by
  induction fills with
  | done => rfl
  | argument _ later => exact later
  | default _ _ _ _ later => exact later

/-- Every parameter is bound, in order, and to the argument that is given for it if there is one. -/
theorem bindings (fills : Fills self environment closure scope rest bound state all after) :
    ∃ more, all = bound ++ more ∧
      List.Forall₂ (fun slot binding => binding.1 = slot.1.key ∧ ∀ value ∈ slot.2, binding.2 = value) rest more := by
  induction fills with
  | done => exact ⟨[], (List.append_nil _).symm, .nil⟩
  | @argument parameter value _ _ _ _ _ _ later =>
    obtain ⟨more, rfl, matched⟩ := later
    refine ⟨(parameter.key, value) :: more, by simp, .cons ⟨rfl, fun other same => ?_⟩ matched⟩
    exact Option.some.inj same
  | @default parameter _ value _ _ _ _ _ _ _ _ _ _ later =>
    obtain ⟨more, rfl, matched⟩ := later
    exact ⟨(parameter.key, value) :: more, by simp, .cons ⟨rfl, fun _ none => absurd none.symm (Option.some_ne_none _)⟩ matched⟩

theorem filling (fills : Fills self environment closure scope rest bound state all after)
    (respectful : Respectful environment [scope] self) (filling : Filling closure scope bound state)
    (distinct : (bound.map (·.1) ++ rest.map (·.1.key)).Nodup) : Filling closure scope all after := by
  induction fills with
  | done => exact filling
  | argument _ later =>
    have fresh := fun among => (List.nodup_append.1 distinct).2.2 _ among _ (.head _) rfl
    exact later (filling.declared fresh) (by simpa using distinct)
  | default _ _ evaluated _ later =>
    have fresh := fun among => (List.nodup_append.1 distinct).2.2 _ among _ (.head _) rfl
    exact later ((filling.evaluated respectful evaluated).declared fresh) (by simpa using distinct)

end Fills

/-! Calls -/

theorem keys_keywords {arguments : List (String × Expr)}
    (yields : Yields (self.keywords arguments) environment before named after) :
    named.map (·.1) = arguments.map fun argument => normalizeName argument.1 := by
  induction arguments generalizing before named with
  | nil =>
    obtain ⟨rfl, -⟩ := yields_keywords_nil.1 yields
    rfl
  | cons argument rest later =>
    obtain ⟨value, _, others, -, evaluated, rfl⟩ := yields_keywords_cons.1 yields
    exact congrArg (normalizeName argument.1 :: ·) (later evaluated)

theorem yields_bindRest {left : Bindings Value} :
    Yields (bindRest none scope pos values left) environment state () after ↔ left = [] ∧ after = state := by
  cases left with
  | nil => simp [bindRest]
  | cons first rest => exact iff_of_false yields_fail fun both => List.cons_ne_nil _ _ both.1

theorem yields_parameterScope (respectful : Respectful environment [state.scopes.size] self)
    (connected : state.Connected []) (around : closure.scope < state.scopes.size) (fixed : closure.callable.rest = none)
    (distinct : (closure.callable.parameters.map Parameter.key).Nodup) :
    Yields (self.parameterScope closure pos values named) environment state scope after ↔
      scope = state.scopes.size ∧ unnamed (closure.callable.parameters.drop values.length) named = [] ∧
      ∃ bound, Fills self environment closure state.scopes.size (given closure.callable.parameters values named) []
        (state.opened closure.scope) bound after := by
  have parameters {left : List Value × Bindings Value} {after : State} :=
    @yields_bindParameters environment self closure state.scopes.size pos closure.callable.parameters values named []
      after _ respectful left (.opened connected around) distinct
  simp only [parameterScope, yields_bind, yields_newScope, fixed, yields_pure]
  constructor
  · rintro ⟨_, _, ⟨rfl, rfl⟩, left, _, bound, _, _, rest, rfl, rfl⟩
    obtain ⟨rfl, fills⟩ := parameters.1 bound
    obtain ⟨none, rfl⟩ := yields_bindRest.1 rest
    exact ⟨rfl, none, fills⟩
  · rintro ⟨rfl, none, fills⟩
    exact ⟨_, _, ⟨rfl, rfl⟩, _, _, parameters.2 ⟨rfl, fills⟩, (), _, yields_bindRest.2 ⟨none, rfl⟩, rfl, rfl⟩

theorem yields_bindArguments {arguments : Arguments Expr} (fixed : closure.callable.rest = none)
    (evaluated : Yields (self.allArguments arguments) environment before (values, named) between) :
    Yields (self.bindArguments closure arguments pos) environment before scope after ↔
      values.length ≤ closure.callable.parameters.length ∧
        Yields (self.parameterScope closure pos values named) environment between scope after := by
  rw [bindArguments, yields_bind]
  have only (rest : List Value × List (String × Value) → State → Prop) :
      (∃ given inner, Yields (self.allArguments arguments) environment before given inner ∧ rest given inner) ↔
        rest (values, named) between := by
    constructor
    · rintro ⟨given, inner, again, further⟩
      obtain ⟨rfl, rfl⟩ := evaluated.unique again
      exact further
    · exact fun further => ⟨_, _, evaluated, further⟩
  rw [only]
  dsimp only
  rw [fixed]
  by_cases few : values.length ≤ closure.callable.parameters.length
  · rw [if_neg (by simpa using few)]
    exact (and_iff_right few).symm
  · rw [if_pos (by simpa using few)]
    refine iff_of_false (fun yields => ?_) fun both => few both.1
    obtain ⟨_, _, failed, -⟩ := yields_bind.1 yields
    exact yields_fail failed

/-- Where all arguments are evaluated, a call of a mixin or a function binds them all or fails. The numbers of scopes that
the state keeps lead to scopes: so it is at the start of a stylesheet, and every evaluation keeps it so. -/
theorem arguments_bound_exactly {depth : Nat} {arguments : Arguments Expr} {middle : State}
    (connected : before.Connected []) (known : before.scopes.Holds closure) (fixed : closure.callable.rest = none)
    (distinct : (closure.callable.parameters.map Parameter.key).Nodup) (plain : arguments.rest = none)
    (positional : Yields (arguments.positional.mapM (evaluator depth).eval) environment before values middle)
    (keyword : Yields ((evaluator depth).keywords arguments.keyword) environment middle named between) :
    let names := arguments.keyword.map fun argument => normalizeName argument.1
    let parameters := closure.callable.parameters
    let bind := (evaluator depth).bindArguments closure arguments pos
    let fills := Fills (evaluator depth) environment closure between.scopes.size (given parameters values named) []
      (between.opened closure.scope)
    ((∃ scope after, Yields bind environment before scope after) ↔
      values.length ≤ parameters.length ∧ names.Nodup ∧
      (∀ name ∈ names, name ∈ (parameters.drop values.length).map Parameter.key) ∧
      ∃ bound after, fills bound after) ∧
    ∀ scope after, Yields bind environment before scope after →
      scope = between.scopes.size ∧ after.place.scope = before.place.scope ∧
      ∃ bound, fills bound after ∧ after.scopes[scope]? = some (scopeFor closure bound) ∧
        List.Forall₂ (fun slot binding => binding.1 = slot.1.key ∧ ∀ value ∈ slot.2, binding.2 = value)
          (given parameters values named) bound := by
  intro names parameters bind fills
  have respectful (apart : List Nat) := respectful_evaluator environment apart depth
  have evaluated : Yields ((evaluator depth).allArguments arguments) environment before (values, named) between := by
    simp only [allArguments, plain, yields_bind, yields_pure]
    exact ⟨_, _, positional, _, _, keyword, rfl, rfl⟩
  have respects := allArguments_along (flows_avoids [] []) (respectful []).eval arguments before connected
    fun _ member => absurd member List.not_mem_nil
  rw [evaluated] at respects
  have around : closure.scope < between.scopes.size :=
    Nat.lt_of_lt_of_le (connected.offers _ (.closure known)).1 respects.grows
  have distinct' : ((parameters.drop values.length).map Parameter.key).Nodup :=
    distinct.sublist ((List.drop_sublist _ _).map _)
  have yields {scope : Nat} {after : State} : Yields bind environment before scope after ↔
      values.length ≤ parameters.length ∧ scope = between.scopes.size ∧
        (names.Nodup ∧ ∀ name ∈ names, name ∈ (parameters.drop values.length).map Parameter.key) ∧
        ∃ bound, fills bound after := by
    rw [yields_bindArguments fixed evaluated,
      yields_parameterScope (respectful _) respects.connected around fixed distinct, unnamed_eq_nil_iff distinct',
      keys_keywords keyword]
  constructor
  · constructor
    · rintro ⟨scope, after, bound⟩
      obtain ⟨few, -, ⟨different, among⟩, bound, filled⟩ := yields.1 bound
      exact ⟨few, different, among, bound, after, filled⟩
    · rintro ⟨few, different, among, bound, after, filled⟩
      exact ⟨_, after, yields.2 ⟨few, rfl, ⟨different, among⟩, bound, filled⟩⟩
  · intro scope after bound
    obtain ⟨-, rfl, -, bound, filled⟩ := yields.1 bound
    obtain ⟨_, rfl, matched⟩ := filled.bindings
    have filling := filled.filling (respectful _) (.opened respects.connected around) (by rwa [keys_given])
    exact ⟨rfl, filled.scope_eq.trans respects.scope, bound, filled, filling.holds, matched⟩

/-- A function whose parameters are bound in the three ways by `f(x, $b-c: y)`. -/
def mixedText : String := "@function f($a, $b_c: p, $c: $a) \x7b @return $c; \x7d"

def mixedSheet : Sheet :=
  { path := "stdin", source := mixedText, directory := none, chain := ["stdin"]
    statements := statementsOf mixedText "stdin" }

/-- The function is known. -/
def mixedState : State := (evaluate plainEnvironment mixedSheet).2

def mixedArguments : Arguments Expr :=
  ⟨[.literal (.string "x" false)], [("b-c", .literal (.string "y" false))], none⟩

/-- What is bound in a scope that was made, as texts. -/
def boundTexts : Except Failure Nat × State → List (String × String)
  | (.ok scope, after) => ((after.scopes[scope]?.map (·.values)).getD []).map fun entry => (entry.1, entry.2.inspect 5)
  | (.error _, _) => []

private theorem mixed_runs :
    ((mixedState.scopes.function? Scopes.globalId "f").map fun closure =>
      (closure.callable.rest, closure.callable.parameters.map Parameter.key,
        boundTexts (((evaluator 3).bindArguments closure mixedArguments .start).outcome plainEnvironment mixedState))) =
      some (none, ["a", "b-c", "c"], [("a", "x"), ("b-c", "y"), ("c", "x")]) := by
  decide +kernel

theorem arguments_bound_mixed :
    ∃ closure scope after bound, mixedState.scopes.function? Scopes.globalId "f" = some closure ∧
      Yields ((evaluator 3).bindArguments closure mixedArguments .start) plainEnvironment mixedState scope after ∧
      scope = mixedState.scopes.size ∧ after.scopes[scope]? = some (scopeFor closure bound) ∧
      bound.map (fun entry => (entry.1, entry.2.inspect 5)) = [("a", "x"), ("b-c", "y"), ("c", "x")] := by
  obtain ⟨closure, found, facts⟩ := Option.map_eq_some_iff.1 mixed_runs
  obtain ⟨fixed, facts⟩ := Prod.mk.inj facts
  obtain ⟨keys, texts⟩ := Prod.mk.inj facts
  have exactly := @arguments_bound_exactly plainEnvironment closure .start [.string "x" false]
    [(normalizeName "b-c", .string "y" false)] mixedState mixedState 3 mixedArguments mixedState
    (connected_evaluate plainEnvironment mixedSheet) (Scopes.holds_function? found) fixed (keys ▸ by decide) rfl rfl rfl
  rcases ran : ((evaluator 3).bindArguments closure mixedArguments .start).outcome plainEnvironment mixedState
    with ⟨result, after⟩
  rw [ran] at texts
  cases result with
  | error failure => cases texts
  | ok scope =>
    obtain ⟨new, -, bound, -, holds, -⟩ := exactly.2 scope after ran
    rw [boundTexts, holds] at texts
    exact ⟨closure, scope, after, bound, found, ran, new, holds, texts⟩

end Evaluation

end Stylesheet
