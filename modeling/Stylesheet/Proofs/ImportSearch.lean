import Stylesheet.Proofs.Runs

/-! The search for an imported stylesheet. What is found depends on the stylesheet that imports and on nothing else that
an evaluation changes, and the search changes nothing but the log and the list of lookups. -/

namespace Stylesheet.Evaluation

variable {α β : Type}

/-- Two stylesheets from which the same is imported. Their texts may differ. -/
structure SameImporter (first second : Sheet) : Prop where
  path : first.path = second.path
  directory : first.directory = second.directory
  chain : first.chain = second.chain

theorem SameImporter.refl (sheet : Sheet) : SameImporter sheet sheet := ⟨rfl, rfl, rfl⟩

theorem SameImporter.locate? {first second : Sheet} (same : SameImporter first second) (search : ImportSearch)
    (reference : String) : Import.locate? search first reference = Import.locate? search second reference := by
  simp only [Import.locate?, Import.paths, Import.roots, same.directory]

theorem SameImporter.loop? {first second : Sheet} (same : SameImporter first second) (path : String) :
    Import.loop? first path = Import.loop? second path := by
  simp only [Import.loop?, same.chain]

/-- From states with the same importer two actions have the same result and report the same events, and that is all. -/
def Searches (first second : Eval α) : Prop :=
  ∀ environment before before', SameImporter before.sheet before'.sheet → ∃ result events,
    first.outcome environment before = (result, { before with log := events ++ before.log }) ∧
      second.outcome environment before' = (result, { before' with log := events ++ before'.log })

namespace Searches

theorem pure {value : α} : Searches (Pure.pure value) (Pure.pure value) :=
  fun _ _ _ _ => ⟨.ok value, [], rfl, rfl⟩

theorem throw {failure : Failure} :
    Searches (MonadExcept.throw failure : Eval α) (MonadExcept.throw failure) :=
  fun _ _ _ _ => ⟨.error failure, [], rfl, rfl⟩

theorem report {event : LogEvent} : Searches (Evaluation.report event) (Evaluation.report event) :=
  fun _ _ _ _ => ⟨.ok (), [event], rfl, rfl⟩

theorem bind {first second : Eval α} {next next' : α → Eval β} (searches : Searches first second)
    (rest : ∀ value, Searches (next value) (next' value)) : Searches (first >>= next) (second >>= next') := by
  intro environment before before' same
  obtain ⟨result, events, one, two⟩ := searches environment before before' same
  rw [outcome_bind, outcome_bind, one, two]
  cases result with
  | error failure => exact ⟨.error failure, events, rfl, rfl⟩
  | ok value =>
    obtain ⟨last, later, one, two⟩ := rest value environment { before with log := events ++ before.log }
      { before' with log := events ++ before'.log } same
    refine ⟨last, later ++ events, one.trans ?_, two.trans ?_⟩
    · simp only [List.append_assoc]
    · simp only [List.append_assoc]

theorem read_bind {next next' : Environment → Eval β}
    (rest : ∀ environment, Searches (next environment) (next' environment)) :
    Searches (MonadReader.read >>= next) (MonadReader.read >>= next') :=
  fun environment => rest environment environment

theorem get_bind {next next' : State → Eval β}
    (rest : ∀ {state state'}, SameImporter state.sheet state'.sheet → Searches (next state) (next' state')) :
    Searches (MonadState.get >>= next) (MonadState.get >>= next') :=
  fun environment before before' same => rest same environment before before' same

end Searches

theorem failImport_searches {pos : Position} {error : ImportError} :
    Searches (failImport pos error : Eval α) (failImport pos error) :=
  .get_bind fun same => by rw [same.path]; exact .throw

theorem load_searches (path source : String) (pos : Position) :
    Searches (load path source pos) (load path source pos) := by
  refine .get_bind fun same => ?_
  dsimp only
  rw [same.loop?, same.chain]
  split
  · exact failImport_searches
  · refine Searches.report.bind fun _ => ?_
    split
    · exact .pure
    · exact .throw

theorem findSheet_searches (reference : String) (pos : Position) :
    Searches (findSheet reference pos) (findSheet reference pos) := by
  unfold findSheet
  split
  · exact .pure
  · refine .read_bind fun environment => .get_bind fun same => ?_
    rw [same.locate?]
    split
    · exact failImport_searches
    · refine Searches.report.bind fun _ => ?_
      split
      · exact (load_searches _ _ pos).bind fun _ => .pure
      · exact failImport_searches

theorem askHook_searches (reference : String) (pos : Position) :
    Searches (askHook reference pos) (askHook reference pos) := by
  refine .read_bind fun environment => ?_
  split
  · exact findSheet_searches reference pos
  · refine .get_bind fun same => ?_
    rw [same.path]
    split
    · exact Searches.report.bind fun _ => (load_searches _ _ pos).bind fun _ => .pure
    · exact failImport_searches
    · exact Searches.report.bind fun _ => findSheet_searches reference pos

/-! What is found was loaded for the same importer. -/

section Found

variable {environment : Environment} {before after : State} {reference : String} {pos : Position} {sheet : Sheet}

theorem not_yields_failImport {error : ImportError} {value : α} :
    ¬ Yields (failImport pos error) environment before value after := by
  simp [failImport]

theorem loaded_findSheet (yields : Yields (findSheet reference pos) environment before (some sheet) after) :
    ∃ path source between, between.sheet = before.sheet ∧
      Yields (load path source pos) environment between sheet after := by
  unfold findSheet at yields
  split at yields
  · cases (yields_pure.1 yields).1
  · simp only [yields_bind, yields_read, yields_get, and_assoc, exists_and_left, exists_eq_left] at yields
    split at yields
    · exact absurd yields not_yields_failImport
    · simp only [yields_bind, yields_report, exists_eq_left] at yields
      obtain ⟨-, yields⟩ := yields
      split at yields
      · obtain ⟨loaded, _, read, last⟩ := yields_bind.1 yields
        obtain ⟨same, rfl⟩ := yields_pure.1 last
        cases same
        refine ⟨_, _, _, ?_, read⟩
        rfl
      · exact absurd yields not_yields_failImport

theorem loaded_askHook (yields : Yields (askHook reference pos) environment before (some sheet) after) :
    ∃ path source between, between.sheet = before.sheet ∧
      Yields (load path source pos) environment between sheet after := by
  simp only [askHook, yields_bind, yields_read, and_assoc, exists_and_left, exists_eq_left] at yields
  split at yields
  · exact loaded_findSheet yields
  · simp only [yields_bind, yields_get, and_assoc, exists_and_left, exists_eq_left] at yields
    split at yields
    · simp only [yields_bind, yields_report, exists_eq_left] at yields
      obtain ⟨-, loaded, _, read, last⟩ := yields
      obtain ⟨same, rfl⟩ := yields_pure.1 last
      cases same
      refine ⟨_, _, _, ?_, read⟩
      rfl
    · exact absurd yields not_yields_failImport
    · simp only [yields_bind, yields_report, exists_eq_left] at yields
      obtain ⟨-, yields⟩ := yields
      obtain ⟨path, source, between, same, read⟩ := loaded_findSheet yields
      exact ⟨path, source, between, same, read⟩

end Found

/-- The state in which an import is searched for. -/
def State.asking (state : State) (reference : String) (pos : Position) : State :=
  { state with lookups := ⟨reference, pos, state.file, state.sheet, state.functionDepth⟩ :: state.lookups }

theorem outcome_findImport (reference : String) (pos : Position) (environment : Environment) (before : State) :
    (findImport reference pos).outcome environment before =
      (askHook reference pos).outcome environment (before.asking reference pos) := rfl

end Stylesheet.Evaluation
