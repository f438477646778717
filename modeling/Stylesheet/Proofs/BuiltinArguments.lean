import Mathlib.Data.List.Basic
import Stylesheet.Proofs.Context
import Stylesheet.Proofs.ImportedText

/-! Arguments of built-in functions. A function takes for each of its parameters the last argument with that name, or
else the one at that place. What was given before is overwritten, and nobody is told. -/

namespace Stylesheet.Evaluation
open Evaluator

variable {environment : Environment} {self : Evaluator} {builtin : Builtin} {arguments : Arguments Expr}
  {name key : String} {pos : Position} {values : List Value} {named earlier : List (String × Value)} {value : Value}
  {before middle after : State}

/-- For each parameter the last argument with its name, or else the one at its place. -/
def taken (parameters : List String) (values : List Value) (named : List (String × Value)) : List (Option Value) :=
  parameters.mapIdx fun i parameter => (named.reverse.lookup parameter).or values[i]?

theorem length_taken (parameters : List String) (values : List Value) (named : List (String × Value)) :
    (taken parameters values named).length = parameters.length := by
  simp [taken]

theorem slots_eq_taken (fixed : builtin.variadic = false) (values : List Value) :
    slots builtin values = taken builtin.parameters values [] := by
  apply List.ext_getElem?
  intro i
  by_cases inside : i < builtin.parameters.length <;> simp [slots, taken, fixed, inside]

/-- One more argument takes the place of those before it. -/
theorem taken_concat {parameters : List String} (distinct : parameters.Nodup) (among : key ∈ parameters) :
    taken parameters values (named ++ [(key, value)]) =
      (taken parameters values named).set (parameters.idxOf key) (some value) := by
  have inside := List.idxOf_lt_length_iff.2 among
  apply List.ext_getElem?
  intro i
  rw [List.getElem?_set, length_taken]
  by_cases here : parameters.idxOf key = i
  · subst here
    simp [taken, inside]
  · rw [if_neg here, taken, taken, List.getElem?_mapIdx, List.getElem?_mapIdx]
    cases found : parameters[i]? with
    | none => rfl
    | some parameter =>
      have different : parameter ≠ key := by
        rintro rfl
        obtain ⟨bound, rfl⟩ := List.getElem?_eq_some_iff.1 found
        exact here (distinct.idxOf_getElem i bound)
      rw [List.reverse_concat, Option.map_some, Option.map_some, List.lookup_cons, beq_eq_false_iff_ne.2 different]

/-- What is known of the functions in the table. -/
theorem table_facts : ∀ entry ∈ Builtin.table,
    entry.2.parameters.Nodup ∧ entry.1 ≠ "if" ∧ (nameQuery? entry.1).isNone = true := by
  decide +kernel

theorem facts_of_named? (known : Builtin.named? key = some builtin) :
    builtin.parameters.Nodup ∧ key ≠ "if" ∧ nameQuery? key = none := by
  obtain ⟨front, back, same, -⟩ := List.lookup_eq_some_iff.1 known
  obtain ⟨distinct, plain, noQuery⟩ := table_facts (key, builtin) (same ▸ List.mem_append_right _ (.head _))
  exact ⟨distinct, plain, Option.isNone_iff_eq_none.1 noQuery⟩

/-- By induction on the arguments that go by name. -/
theorem yields_fillByName {arguments : List (String × Expr)} (distinct : builtin.parameters.Nodup)
    (among : ∀ argument ∈ arguments, normalizeName argument.1 ∈ builtin.parameters)
    (evaluated : Yields (self.keywords arguments) environment before named after) :
    Yields (self.fillByName builtin pos arguments (taken builtin.parameters values earlier)) environment before
      (taken builtin.parameters values (earlier ++ named)) after := by
  induction arguments generalizing before named earlier with
  | nil =>
    obtain ⟨rfl, rfl⟩ := yields_keywords_nil.1 evaluated
    rw [List.append_nil]
    exact yields_pure.2 ⟨rfl, rfl⟩
  | cons argument rest later =>
    obtain ⟨here, behind⟩ := List.forall_mem_cons.1 among
    obtain ⟨value, between, others, first, further, rfl⟩ := yields_keywords_cons.1 evaluated
    have index : builtin.parameters.idxOf? (normalizeName argument.1) =
        some (builtin.parameters.idxOf (normalizeName argument.1)) :=
      List.findIdx?_eq_some_iff_findIdx_eq.2 ⟨List.idxOf_lt_length_iff.2 here, rfl⟩
    rw [fillByName, index, yields_bind]
    refine ⟨value, between, first, ?_⟩
    rw [← taken_concat distinct here, List.append_cons earlier _ others]
    exact later behind further

/-- Whatever a call of a function with a fixed list of parameters gives twice, by place and by name or by name alone: it
is the function itself that runs, with the last of the arguments that are given for each parameter. -/
theorem builtin_takes_last_arguments (plain : before.scopes.function? before.place.scope name = none)
    (known : Builtin.named? (normalizeName name) = some builtin) (fixed : builtin.variadic = false)
    (positional : Yields (self.positional arguments) environment before values middle)
    (few : values.length ≤ builtin.parameters.length)
    (among : ∀ argument ∈ arguments.keyword, normalizeName argument.1 ∈ builtin.parameters)
    (keyword : Yields (self.keywords arguments.keyword) environment middle named after) :
    (self.call name arguments pos).outcome environment before =
      (runBuiltin builtin pos (taken builtin.parameters values named)).outcome environment after := by
  obtain ⟨distinct, conditional, noQuery⟩ := facts_of_named? known
  have filled := @yields_fillByName environment self builtin pos values named [] middle after arguments.keyword distinct
    among keyword
  rw [← slots_eq_taken fixed] at filled
  rw [call, outcome_get_bind, plain]
  dsimp only
  rw [if_neg conditional, noQuery, known]
  dsimp only
  rw [callBuiltin, positional.bind, fixed]
  dsimp only
  rw [if_neg (by simpa using few), filled.bind]
  rfl

/-- The one parameter of a function is given at its place and twice by its name. -/
def repeatedArguments : Arguments Expr :=
  ⟨[.literal (.string "a" true)],
    [("string", .literal (.string "b" true)), ("string", .literal (.string "c" true))], none⟩

def repeatedText : String := "a \x7b b: unquote(\"a\", $string: \"b\", $string: \"c\"); \x7d"

def repeatedSheet : Sheet :=
  { path := "stdin", source := repeatedText, directory := none, chain := ["stdin"]
    statements := statementsOf repeatedText "stdin" }

/-- The first two arguments are lost. -/
theorem unquote_takes_last :
    ((evaluator 3).call "unquote" repeatedArguments ⟨1, 8⟩).outcome plainEnvironment (State.start repeatedSheet) =
      (.ok (.string "c" false), State.start repeatedSheet) := by
  have key : normalizeName "unquote" = "unquote" := by decide +kernel
  have known : Builtin.named? (normalizeName "unquote") = some (Builtin.fixed ["string"] Builtin.unquote) := by
    rw [key]
    rfl
  have takes := @builtin_takes_last_arguments plainEnvironment (evaluator 3) _ repeatedArguments "unquote" ⟨1, 8⟩
    [.string "a" true] [(normalizeName "string", .string "b" true), (normalizeName "string", .string "c" true)]
    (State.start repeatedSheet) (State.start repeatedSheet) (State.start repeatedSheet) rfl known rfl rfl (by decide)
    (by decide +kernel) rfl
  rw [takes]
  have string : normalizeName "string" = "string" := by decide +kernel
  rw [string]
  rfl

/-- Such a call is parsed, evaluated and written as if nothing else had been given. -/
theorem repeated_arguments_accepted :
    (Statement.parse repeatedText "stdin" false).isOk = true ∧
      (evaluate plainEnvironment repeatedSheet).1.isOk = true ∧
      ((evaluate plainEnvironment repeatedSheet).2.tree.write ⟨.compressed, 5, "", "", false⟩).toOption.map (·.css) =
        some "a\x7bb:c\x7d" := by
  decide +kernel

end Stylesheet.Evaluation
