import Stylesheet.Proofs.ImportSearch
import Stylesheet.Proofs.Importing

/-! The imports that an evaluation runs. Beside the evaluator stands one whose import statements write down what they
mean before they do anything else, and that keeps no record otherwise. Where an evaluation goes well, both leave the same
state, so the record of the evaluator has every import that is run, once and in its turn, and nothing else. -/

namespace Stylesheet

/-- The name of the stylesheet that a reference means: the hook says it, or else it is the first file that is there.
A reference that is left to the browser has none. -/
def Import.identifier? (search : ImportSearch) (importer : Sheet) (reference : String) : Option String :=
  let located := if isCssReference reference then none else locate? search importer reference
  match search.hook with
  | none => located
  | some hook =>
    match hook reference importer.path with
    | .accepted path _ _ => some path
    | .failed _ _ _ => none
    | .declined => located

namespace Evaluation
open Evaluator

variable {α β : Type} {environment : Environment} {before between after : State}

def Lookup.identifier? (search : ImportSearch) (lookup : Lookup) : Option String :=
  Import.identifier? search lookup.importer lookup.reference

/-! What a reference means has the name that is recorded. -/

section Names

variable {reference path source : String} {pos : Position} {sheet : Sheet} {found : Option Sheet}

theorem path_load (yields : Yields (load path source pos) environment before sheet after) : sheet.path = path := by
  simp only [load, yields_bind, yields_get, and_assoc, exists_and_left, exists_eq_left] at yields
  split at yields
  · exact absurd yields not_yields_failImport
  · obtain ⟨_, _, _, read⟩ := yields_bind.1 yields
    split at read
    · rw [(yields_pure.1 read).1]
    · exact absurd read yields_throw

theorem path_findSheet (yields : Yields (findSheet reference pos) environment before found after) :
    (if Import.isCssReference reference then none
      else Import.locate? environment.search before.sheet reference) = found.map (·.path) := by
  unfold findSheet at yields
  split at yields
  · next outside =>
    rw [if_pos outside, (yields_pure.1 yields).1]
    rfl
  · next own =>
    rw [if_neg own]
    simp only [yields_bind, yields_read, yields_get, and_assoc, exists_and_left, exists_eq_left] at yields
    split at yields
    · exact absurd yields not_yields_failImport
    · next path located =>
      obtain ⟨_, _, _, found⟩ := yields_bind.1 yields
      split at found
      · obtain ⟨loaded, _, read, last⟩ := yields_bind.1 found
        rw [located, (yields_pure.1 last).1, Option.map_some, path_load read]
      · exact absurd found not_yields_failImport

theorem path_findImport (yields : Yields (findImport reference pos) environment before found after) :
    Import.identifier? environment.search before.sheet reference = found.map (·.path) := by
  have asked : Yields (askHook reference pos) environment (before.asking reference pos) found after := yields
  simp only [askHook, yields_bind, yields_read, and_assoc, exists_and_left, exists_eq_left] at asked
  unfold Import.identifier?
  cases hooked : environment.search.hook with
  | none =>
    rw [hooked] at asked
    have searched := path_findSheet asked
    exact searched
  | some hook =>
    rw [hooked] at asked
    obtain ⟨state, _, here, asked⟩ := yields_bind.1 asked
    obtain ⟨rfl, rfl⟩ := yields_get.1 here
    dsimp only [State.asking] at asked ⊢
    cases answer : hook reference before.sheet.path with
    | accepted path source sourceMap =>
      rw [answer] at asked
      obtain ⟨_, _, _, loads⟩ := yields_bind.1 asked
      obtain ⟨loaded, _, read, last⟩ := yields_bind.1 loads
      rw [(yields_pure.1 last).1, Option.map_some, path_load read]
    | failed line column message =>
      rw [answer] at asked
      exact absurd asked not_yields_failImport
    | declined =>
      rw [answer] at asked
      obtain ⟨_, _, told, searched⟩ := yields_bind.1 asked
      rw [yields_report.1 told] at searched
      have found := path_findSheet searched
      exact found

/-- The search for an import changes nothing but the log and the list of lookups. -/
theorem found_findImport (yields : Yields (findImport reference pos) environment before found after) :
    after.sheet = before.sheet ∧ after.imported = before.imported ∧
      after.lookups = ⟨reference, pos, before.file, before.sheet, before.functionDepth⟩ :: before.lookups := by
  obtain ⟨result, events, outcome, -⟩ :=
    askHook_searches reference pos environment (before.asking reference pos) _ (.refl _)
  rw [← outcome_findImport, yields] at outcome
  rw [(Prod.mk.inj outcome).2]
  exact ⟨rfl, rfl, rfl⟩

end Names

/-! The evaluator whose import statements write down what they import -/

/-- An import is written down, and with it the name of the stylesheet that it means. -/
def State.noting (state : State) (search : ImportSearch) (reference : String) (place : Position) : State :=
  { state with
    lookups := ⟨reference, place, state.file, state.sheet, state.functionDepth⟩ :: state.lookups
    imported := (Import.identifier? search state.sheet reference).toList ++ state.imported }

/-- Runs a stylesheet of which nothing is recorded. -/
def Evaluator.runUnrecorded (self : Evaluator) (sheet : Sheet) : Eval Unit := do
  report (.importing sheet.path)
  let source ← modifyGet fun state =>
    let (source, tree) := state.tree.addSource sheet.path sheet.source
    (source, { state with tree })
  inSheet sheet source (self.run sheet.statements)

/-- An import is written down before it is searched for. -/
def noting : Importing := fun self pos reference place => do
  let search := (← read).search
  modify fun state => state.noting search reference place
  match ← askHook reference place with
  | some sheet => self.runUnrecorded sheet
  | none => writeImport ("\"" ++ reference ++ "\"") pos

/-- One action goes well just if the other one does, and then both give the same and leave the same state. -/
def Tallies (first second : Eval α) : Prop :=
  ∀ environment before value after,
    Yields first environment before value after ↔ Yields second environment before value after

namespace Tallies

theorem refl (action : Eval α) : Tallies action action := fun _ _ _ _ => .rfl

theorem bind {first second : Eval α} {next next' : α → Eval β} (tallies : Tallies first second)
    (rest : ∀ value, Tallies (next value) (next' value)) : Tallies (first >>= next) (second >>= next') := by
  intro environment before result after
  rw [yields_bind, yields_bind]
  exact exists_congr fun value => exists_congr fun between =>
    and_congr (tallies environment before value between) (rest value environment between result after)

theorem during {enter : State → State} {restore : State → State → State} {first second : Eval α}
    (inside : Tallies first second) :
    Tallies (Evaluation.during enter restore first) (Evaluation.during enter restore second) := by
  intro environment before value after
  rw [yields_during, yields_during]
  exact exists_congr fun inner => and_congr_left' (inside environment (enter before) value inner)

theorem andThen {change : State → State} {first second : Eval α} (inside : Tallies first second) :
    Tallies (Evaluation.andThen first change) (Evaluation.andThen second change) :=
  @during α id (fun _ => change) first second inside

/-- The statements of a stylesheet begin in one state, whether its name is recorded when it is run or was written down
before. -/
theorem runSheet {first second : Evaluator} (run : ∀ statements, Tallies (first.run statements) (second.run statements))
    (sheet : Sheet) (environment : Environment) (before : State) (value : Unit) (after : State) :
    Yields (first.runSheet sheet) environment before value after ↔
      Yields (second.runUnrecorded sheet) environment { before with imported := sheet.path :: before.imported } value
        after := by
  let added := before.tree.addSource sheet.path sheet.source
  let begun : State := { before with
    log := .importing sheet.path :: before.log, tree := added.2, imported := sheet.path :: before.imported }
  have ran : Tallies (inSheet sheet added.1 (first.run sheet.statements))
      (inSheet sheet added.1 (second.run sheet.statements)) := (run sheet.statements).during
  exact ran environment begun value after

/-- The search finds the stylesheet of the name that is written down. -/
theorem importSheet {first second : Evaluator}
    (run : ∀ statements, Tallies (first.run statements) (second.run statements)) (pos : Position) (reference : String)
    (place : Position) :
    Tallies (first.importTarget pos (.sheet reference place)) (noting second pos reference place) := by
  intro environment before value after
  obtain ⟨result, events, asked, noted⟩ := askHook_searches reference place environment
    (before.asking reference place) (before.noting environment.search reference place) (.refl _)
  have searched : (noting second pos reference place).outcome environment before =
      (askHook reference place >>= fun found => match found with
        | some sheet => second.runUnrecorded sheet
        | none => writeImport ("\"" ++ reference ++ "\"") pos).outcome environment
        (before.noting environment.search reference place) := rfl
  rw [← outcome_findImport] at asked
  rw [Yields, Yields, importTarget, searched, outcome_bind, outcome_bind, asked, noted]
  cases result with
  | error failure => exact ⟨nofun, nofun⟩
  | ok found =>
    have name : Import.identifier? environment.search before.sheet reference = found.map (·.path) :=
      path_findImport asked
    unfold State.noting
    rw [name]
    cases found with
    | none => exact .rfl
    | some sheet => exact runSheet run sheet environment _ value after

/-- What both evaluators do goes well in the same way. -/
theorem accord : Accord Tallies noting where
  pure := .refl _
  bind := .bind
  get := .refl _
  read := .refl _
  endless := .refl _
  fail := .refl _
  modifyGet _ := .refl _
  during _ _ := .during
  andThen inside _ := .andThen inside
  importSheet run _ := .importSheet run _ _ _

end Tallies

/-- An evaluation goes well just if one does that writes down its imports as they are run, and both leave the same
state: what has been looked up and imported is what is written down. -/
theorem evaluate_noting (environment : Environment) (root : Sheet) (state : State) :
    evaluate environment root = (.ok (), state) ↔ noting.evaluate environment root = (.ok (), state) :=
  Tallies.accord.run (Tallies.accord.evaluator depthLimit) root.statements environment (State.start root) () state

end Evaluation

end Stylesheet
