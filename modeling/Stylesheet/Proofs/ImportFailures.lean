import Stylesheet.Proofs.IncludedFiles
import Stylesheet.Proofs.Lending
import Stylesheet.Proofs.VariablePlaces

/-! Where imports fail. The failure of an import names the stylesheet that runs the import, with the place of the
reference in the text that the import is written in. A mixin, a function or a block handed to a mixin may be run by
another stylesheet than the one that it is written in; all other statements are run by their own. -/

namespace Stylesheet

open Grammar

/-! References in a text -/

/-- A reference stands in a text with quotes around it. -/
def Refers (text : String) (reference : String) (pos : Position) : Prop :=
  ∃ quote, (quote = '"' ∨ quote = '\'') ∧ Occurs text.toList (quote :: reference.toList ++ [quote]) pos

instance (text reference : String) (pos : Position) : Decidable (Refers text reference pos) :=
  decidable_of_iff (Occurs text.toList ('"' :: reference.toList ++ ['"']) pos ∨
      Occurs text.toList ('\'' :: reference.toList ++ ['\'']) pos) <| by
    simp only [Refers, or_and_right, exists_or, exists_eq_left]

/-- A string of a text stands there with its quotes. -/
theorem Token.Cites.refers {text reference : String} {pos : Position} {token : Token}
    (cites : token.Cites reference pos) (member : token ∈ (lex text).tokens) : Refers text reference pos := by
  obtain ⟨rfl, quote, kind⟩ := cites
  have whole : Occurs text.toList text.toList Position.start := ⟨[], [], by simp, rfl⟩
  obtain ⟨occurs, suits⟩ := lex_occurs whole member
  rw [kind] at suits
  obtain ⟨isQuote, spelled⟩ := suits
  exact ⟨quote, isQuote, spelled ▸ occurs⟩

/-! What an import fails with -/

namespace Evaluation
open Evaluator

variable {α β : Type} {environment : Environment} {before after state entered : State} {root importer sheet : Sheet}
  {reference file : String} {place pos : Position} {error : ImportError} {failure : Failure}

/-- The search for the stylesheet that a reference means ends with a failure. -/
def Refuses (environment : Environment) (importer : Sheet) (reference : String) (place : Position)
    (failure : Failure) : Prop :=
  ∃ before after, before.sheet = importer ∧
    (findImport reference place).outcome environment before = (.error failure, after)

/-- A hook that fails for a reference says where. -/
def HookPlaces (environment : Environment) (importer : Sheet) (reference : String) (pos : Position)
    (error : ImportError) : Prop :=
  ∃ hook message, environment.search.hook = some hook ∧
    hook reference importer.path = .failed pos.line pos.column message ∧ pos.line ≠ 0 ∧ error = .hookFailed message

/-- What a failure tells about the import that it is one of, if it is one of an import. -/
def Places (environment : Environment) (importer : Sheet) (reference : String) (place : Position) : Failure → Prop
  | .badImport error pos file =>
    file = importer.path ∧ (pos = place ∨ HookPlaces environment importer reference pos error)
  | _ => True

/-- In the stylesheet that imports, an action can only fail with failures of a kind. -/
def FailsWith (environment : Environment) (importer : Sheet) (kind : Failure → Prop) (action : Eval α) : Prop :=
  ∀ before failure after, before.sheet = importer → action.outcome environment before = (.error failure, after) →
    kind failure

namespace FailsWith

variable {kind : Failure → Prop} {action : Eval α}

theorem pure {value : α} : FailsWith environment importer kind (Pure.pure value : Eval α) := by
  rintro before failure after - ⟨⟩

theorem throw (of : kind failure) : FailsWith environment importer kind (throw failure : Eval α) := by
  rintro before _ after - ⟨⟩
  exact of

theorem get_bind {next : State → Eval α}
    (rest : ∀ state, state.sheet = importer → FailsWith environment importer kind (next state)) :
    FailsWith environment importer kind (get >>= next) :=
  fun before failure after same fails => rest before same before failure after same fails

theorem read_bind {next : Environment → Eval α} (rest : FailsWith environment importer kind (next environment)) :
    FailsWith environment importer kind (read >>= next) := rest

theorem report_bind {event : LogEvent} (rest : FailsWith environment importer kind action) :
    FailsWith environment importer kind (report event >>= fun _ => action) :=
  fun before failure after same fails => rest { before with log := event :: before.log } failure after same fails

theorem map {f : α → β} (first : FailsWith environment importer kind action) :
    FailsWith environment importer kind (do return f (← action)) := by
  intro before failure after same fails
  rw [outcome_bind] at fails
  rcases outcome : action.outcome environment before with ⟨result, between⟩
  rw [outcome] at fails
  cases result with
  | ok value => cases fails
  | error other =>
    cases fails
    exact first _ _ _ same outcome

theorem failImport (of : kind (.badImport error pos importer.path)) :
    FailsWith environment importer kind (failImport pos error : Eval α) :=
  get_bind fun _ same => throw (same ▸ of)

end FailsWith

theorem load_failsWith (path source : String) (place : Position) :
    FailsWith environment importer (Places environment importer reference place) (load path source place) := by
  refine .get_bind fun _ _ => ?_
  dsimp only
  split
  · exact .failImport ⟨rfl, .inl rfl⟩
  · refine .report_bind ?_
    split
    · exact .pure
    · exact .throw trivial

theorem findSheet_failsWith (reference : String) (place : Position) :
    FailsWith environment importer (Places environment importer reference place) (findSheet reference place) := by
  unfold findSheet
  split
  · exact .pure
  · refine .read_bind (.get_bind fun _ _ => ?_)
    split
    · exact .failImport ⟨rfl, .inl rfl⟩
    · refine .report_bind ?_
      split
      · exact (load_failsWith _ _ place).map
      · exact .failImport ⟨rfl, .inl rfl⟩

/-- The place in a failure of an import is that of the reference, unless the hook gives another one. -/
theorem askHook_failsWith (reference : String) (place : Position) :
    FailsWith environment importer (Places environment importer reference place) (askHook reference place) := by
  refine .read_bind ?_
  split
  · exact findSheet_failsWith reference place
  · next hook asked =>
    refine .get_bind fun state same => ?_
    split
    · exact .report_bind (load_failsWith _ _ place).map
    · next line column message answer =>
      refine .failImport ⟨rfl, ?_⟩
      split
      · exact .inl rfl
      · next given => exact .inr ⟨hook, message, asked, same ▸ answer, given, rfl⟩
    · exact .report_bind (findSheet_failsWith reference place)

theorem Refuses.places (refuses : Refuses environment importer reference place failure) :
    Places environment importer reference place failure := by
  obtain ⟨before, after, same, fails⟩ := refuses
  rw [outcome_findImport] at fails
  exact askHook_failsWith reference place (before.asking reference place) failure after same fails

/-! Every failure of an import comes from the last import that was looked up. -/

/-- If an action fails at an import, this is the last one that was looked up. -/
def Blames (environment : Environment) (action : Eval α) : Prop :=
  ∀ before error pos file after, action.outcome environment before = (.error (.badImport error pos file), after) →
    ∃ lookup, after.lookups.head? = some lookup ∧
      Refuses environment lookup.importer lookup.reference lookup.pos (.badImport error pos file)

namespace Blames

theorem of_ok {action : Eval α}
    (succeeds : ∀ before, ∃ value after, action.outcome environment before = (.ok value, after)) :
    Blames environment action := by
  intro before error pos file after fails
  obtain ⟨value, between, same⟩ := succeeds before
  rw [same] at fails
  cases fails

theorem bind {action : Eval α} {next : α → Eval β} (first : Blames environment action)
    (rest : ∀ value, Blames environment (next value)) : Blames environment (action >>= next) := by
  intro before error pos file after fails
  rw [outcome_bind] at fails
  rcases outcome : action.outcome environment before with ⟨result, between⟩
  rw [outcome] at fails
  cases result with
  | ok value => exact rest value between error pos file after fails
  | error other =>
    cases fails
    exact first _ _ _ _ _ outcome

/-- What is put back after an action leaves the lookups. -/
theorem during {enter : State → State} {restore : State → State → State} {action : Eval α}
    (restored : ∀ state inner, (restore state inner).lookups = inner.lookups) (inside : Blames environment action) :
    Blames environment (Evaluation.during enter restore action) := by
  intro before error pos file after fails
  obtain ⟨failed, rfl⟩ := Prod.mk.inj fails
  rw [restored]
  exact inside (enter before) error pos file _ (Prod.ext failed rfl)

theorem andThen {action : Eval α} {change : State → State} (same : ∀ state, (change state).lookups = state.lookups)
    (first : Blames environment action) : Blames environment (Evaluation.andThen action change) :=
  @during α environment id (fun _ => change) action (fun _ inner => same inner) first

theorem findImport (reference : String) (place : Position) :
    Blames environment (Evaluation.findImport reference place) := by
  intro before error pos file after fails
  obtain ⟨result, events, found, -⟩ :=
    askHook_searches reference place environment (before.asking reference place) _ (.refl _)
  have same := fails.symm.trans found
  cases same
  exact ⟨_, rfl, before, _, rfl, fails⟩

theorem importSheet {self : Evaluator} (run : ∀ statements, Blames environment (self.run statements))
    (write : ∀ parameters, Blames environment (writeImport parameters pos)) (reference : String) (place : Position) :
    Blames environment (self.importTarget pos (.sheet reference place)) := by
  refine (findImport reference place).bind fun found => ?_
  cases found with
  | none => exact write _
  | some sheet =>
    refine bind (.of_ok fun _ => ⟨_, _, rfl⟩) fun _ => bind (.of_ok fun _ => ⟨_, _, rfl⟩) fun source => ?_
    exact during (fun _ _ => rfl) (run sheet.statements)

end Blames

theorem upkeep_blames (environment : Environment) : Upkeep (Blames environment) where
  pure := .of_ok fun _ => ⟨_, _, rfl⟩
  bind := .bind
  get := .of_ok fun _ => ⟨_, _, rfl⟩
  read := .of_ok fun _ => ⟨_, _, rfl⟩
  endless := by rintro _ before error pos file after ⟨⟩
  fail := by rintro _ _ _ before error pos file after ⟨⟩
  modifyGet _ := .of_ok fun _ => ⟨_, _, rfl⟩
  during _ restored := .during fun state inner => (restored state inner).lookups
  andThen first same := .andThen (fun inner => (same inner).lookups) first
  importSheet run write := .importSheet run write _ _

/-- An evaluation that fails at an import was running it, and the import was refused. -/
theorem blames_evaluate (fails : evaluate environment root = (.error (.badImport error pos file), state)) :
    ∃ lookup, Asked environment root lookup ∧
      Refuses environment lookup.importer lookup.reference lookup.pos (.badImport error pos file) := by
  obtain ⟨lookup, last, refuses⟩ := (upkeep_blames environment).run depthLimit root.statements _ _ _ _ _ fails
  have asked := asked_evaluate environment root lookup
  rw [fails] at asked
  exact ⟨lookup, asked (List.mem_of_mem_head? last), refuses⟩

/-! The stylesheet that an import is written in -/

/-- A statement stands in a body that its stylesheet lends to whoever uses it. -/
def Lends (sheet : Sheet) (statement : Statement) : Prop :=
  ∃ lender body, Statement.Within sheet.statements lender ∧ body ∈ lender.lent ∧ Statement.Within body statement

/-- A statement is one of a stylesheet that takes part in a compilation, and a reference that it imports stands in the
text of this stylesheet. -/
structure WrittenAt (environment : Environment) (root : Sheet) (lookups : List Lookup) (sheet : Sheet)
    (statement : Statement) (reference : String) (place : Position) : Prop where
  takes : TakesPart environment root lookups sheet
  within : Statement.Within sheet.statements statement
  refers : ∃ indented, Statement.parse sheet.source sheet.path indented = .ok sheet.statements ∧
    Refers (Statement.parsedText sheet.source indented) reference place

theorem WrittenAt.of_within {lookups : List Lookup} {statement : Statement} (read : root.IsRead)
    (takes : TakesPart environment root lookups sheet) (within : Statement.Within sheet.statements statement)
    (target : .sheet reference place ∈ statement.targets) :
    WrittenAt environment root lookups sheet statement reference place := by
  obtain ⟨indented, parsed⟩ := takes.isRead read
  have own := Statement.takenFrom_parse parsed statement within
  obtain ⟨token, member, cites⟩ := own.targets _ target reference place rfl
  exact ⟨takes, within, indented, parsed, cites.refers member⟩

/-- An import is written in the stylesheet that runs it, or another one lends it. -/
theorem Reached.written {targets : List ImportTarget} (read : root.IsRead)
    (reached : Reached environment root (.statement (.imports pos targets)) state)
    (target : .sheet reference place ∈ targets) :
    ∃ sheet, WrittenAt environment root state.lookups sheet (.imports pos targets) reference place ∧
      sheet.path = state.file ∧ (sheet = state.sheet ∨ Lends sheet (.imports pos targets)) := by
  obtain ⟨located, -⟩ := reached.located read
  obtain ⟨-, sourced⟩ := reached.lending read
  cases sourced with
  | own here stand =>
    exact ⟨state.sheet, .of_within read located.sheet (stand _ (.head _)) target, here.symm, .inl rfl⟩
  | @lent body lent stand =>
    obtain ⟨sheet, lender, takes, path, around, handed⟩ := lent
    have within := around.inside (lender.lent_subset handed) (stand _ (.head _))
    exact ⟨sheet, .of_within read takes within target, path, .inr ⟨lender, body, around, handed, stand _ (.head _)⟩⟩

end Evaluation

open Evaluation

variable {compiler : Compiler} {source : Except FileFault String} {listed : List String} {outcome : Outcome}
  {error : ImportError} {pos : Position} {file : String}

namespace Compiler

/-- A compilation that fails at an import has read its stylesheet and evaluates it. -/
theorem failed_compileEntry {before : Stage} {entry : Entry}
    (fails : (compiler.compileEntry before entry).result = .error (.badImport error pos file)) :
    ∃ root state, entry.source = root.source ∧ root.IsRead ∧
      evaluate compiler.environment root = (.error (.badImport error pos file), state) := by
  cases parsed : Statement.parse entry.source entry.path entry.indented with
  | error error =>
    rw [compileEntry, parsed] at fails
    cases fails
  | ok statements =>
    obtain ⟨log, entered⟩ := compiler.compileEntry_of_parse before parsed
    rw [entered, compileSheet] at fails
    rcases evaluated : evaluate compiler.environment (entry.sheet statements) with ⟨result, state⟩
    rw [evaluated] at fails
    cases result with
    | error failure =>
      cases fails
      exact ⟨entry.sheet statements, state, rfl, ⟨entry.indented, parsed⟩, evaluated⟩
    | ok _ =>
      dsimp only at fails
      unfold emit at fails
      dsimp only at fails
      split at fails
      · cases fails
      · cases fails

theorem failed_compileFile {before : Stage} {path : String}
    (fails : (compiler.compileFile before path).result = .error (.badImport error pos file)) :
    ∃ root state, compiler.files.read (compiler.rooted path).toString = .ok root.source ∧ root.IsRead ∧
      evaluate compiler.environment root = (.error (.badImport error pos file), state) := by
  unfold compileFile at fails
  dsimp only at fails
  split at fails
  · cases fails
  · cases fails
  · next read =>
    obtain ⟨root, state, same, rest⟩ := failed_compileEntry fails
    exact ⟨root, state, read.trans (congrArg _ same), rest⟩

theorem Compiles.failed (compiles : compiler.Compiles source listed outcome)
    (fails : outcome.result = .error (.badImport error pos file)) :
    ∃ root state, source = .ok root.source ∧ root.IsRead ∧
      evaluate compiler.environment root = (.error (.badImport error pos file), state) := by
  cases compiles with
  | text before source =>
    obtain ⟨root, state, same, rest⟩ := failed_compileEntry fails
    exact ⟨root, state, congrArg _ same, rest⟩
  | file before path => exact failed_compileFile fails
  | existing path =>
    unfold compileExisting at fails
    split at fails
    · exact failed_compileFile fails
    · cases fails

end Compiler

/-- A compilation that fails at an import was running it, wherever it was run from. The failure names the stylesheet
that ran it, and the place of its reference, unless the hook gave another place. There the reference stands in the text
of the stylesheet that the import is written in. This is the one that is named, unless the import stands in the body
of a mixin or of a function, or in a block handed to a mixin. -/
theorem Compiler.failed_import_located (compiles : compiler.Compiles source listed outcome)
    (fails : outcome.result = .error (.badImport error pos file)) :
    ∃ root state importPos targets reference place sheet, source = .ok root.source ∧ root.IsRead ∧
      Reached compiler.environment root (.statement (.imports importPos targets)) state ∧
      .sheet reference place ∈ targets ∧
      Refuses compiler.environment state.sheet reference place (.badImport error pos file) ∧
      file = state.sheet.path ∧ (pos = place ∨ HookPlaces compiler.environment state.sheet reference pos error) ∧
      WrittenAt compiler.environment root state.lookups sheet (.imports importPos targets) reference place ∧
      sheet.path = state.file ∧ (sheet = state.sheet ∨ Lends sheet (.imports importPos targets)) := by
  obtain ⟨root, last, same, read, evaluated⟩ := compiles.failed fails
  obtain ⟨lookup, ⟨state, importPos, targets, reached, target, looked⟩, refuses⟩ := blames_evaluate evaluated
  have importer : lookup.importer = state.sheet := by rw [looked]
  rw [importer] at refuses
  obtain ⟨named, placed⟩ := refuses.places
  obtain ⟨sheet, written⟩ := reached.written read target
  exact ⟨root, state, importPos, targets, lookup.reference, lookup.pos, sheet, same, read, reached, target, refuses,
    named, placed, written⟩

/-- A hook gives the text of one stylesheet and fails for all other references, without a place. -/
def failingHook (source : String) : ImportHook := fun reference _ =>
  if reference = "m" then .accepted "m" source none else .failed 0 0 "unknown"

/-- An import in a rule and a control directive of an imported stylesheet fails, and its reference stands where the
failure says. -/
theorem Compiler.failed_import_located_nested :
    let imported := "a \x7b\n  @if true \x7b @import \"b\"; \x7d\n\x7d"
    let compiler := hookedCompiler (failingHook imported)
    let outcome := compiler.compileText .created "@import \"m\";"
    outcome.result = .error (.badImport (.hookFailed "unknown") ⟨2, 22⟩ "m") ∧ Refers imported "b" ⟨2, 22⟩ ∧
      ∃ root state importPos targets reference sheet,
        Reached compiler.environment root (.statement (.imports importPos targets)) state ∧ "m" = state.sheet.path ∧
        WrittenAt compiler.environment root state.lookups sheet (.imports importPos targets) reference ⟨2, 22⟩ ∧
        (sheet = state.sheet ∨ Lends sheet (.imports importPos targets)) := by
  intro imported compiler outcome
  have fails : outcome.result = .error (.badImport (.hookFailed "unknown") ⟨2, 22⟩ "m") := by decide +kernel
  have compiles : compiler.Compiles (.ok _) [] outcome := .text _ _
  obtain ⟨root, state, importPos, targets, reference, place, sheet, -, -, reached, -, -, named, placed, written, -,
    lends⟩ := Compiler.failed_import_located compiles fails
  -- The hook gives no place, so it is the place of the reference.
  have here : (⟨2, 22⟩ : Position) = place := by
    rcases placed with same | ⟨hook, message, asked, answer, -⟩
    · exact same
    · obtain rfl : failingHook imported = hook := Option.some.inj asked
      unfold failingHook at answer
      split at answer
      · cases answer
      · cases answer
  exact ⟨fails, by decide +kernel, root, state, importPos, targets, reference, sheet, reached, named, here ▸ written,
    lends⟩

/-- A mixin that is written in one stylesheet and used in another fails at its import: the failure names the stylesheet
that uses the mixin, but the reference does not stand there. -/
theorem Compiler.failed_import_misplaced :
    let mixin := "@mixin x \x7b @import \"b\"; \x7d"
    let main := "@import \"m\"; @include x;"
    ((hookedCompiler (failingHook mixin)).compileText .created main).result =
        .error (.badImport (.hookFailed "unknown") ⟨1, 20⟩ "stdin") ∧
      ¬ Refers main "b" ⟨1, 20⟩ ∧ Refers mixin "b" ⟨1, 20⟩ := by
  decide +kernel

end Stylesheet
