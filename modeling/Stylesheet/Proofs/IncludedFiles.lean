import Stylesheet.Compiler
import Stylesheet.Proofs.ExecutedImports
import Stylesheet.Proofs.ImportChains
import Stylesheet.Proofs.Upkeep

/-! The record of imports. Every import of a stylesheet that is run is looked up, and the stylesheet that it means is
recorded before the imports inside of it are run. So the included files of a compilation are what its imports mean, in
the order in which they are run, as often as they are run. -/

namespace Stylesheet

/-- The name that a hook gives to what is imported, if it takes the reference. -/
def ImportHook.accepts? (hook : ImportHook) (call : String × String) : Option String :=
  match hook call.1 call.2 with
  | .accepted path _ _ => some path
  | .failed _ _ _ | .declined => none

namespace Evaluation
open Evaluator

variable {α β : Type} {environment : Environment} {before between after : State}

/-- A reference in a stylesheet is left to the browser. -/
def Leaves (environment : Environment) (importer : Sheet) (reference : String) (pos : Position) : Prop :=
  ∃ before after, before.sheet = importer ∧ Yields (findImport reference pos) environment before none after

/-- The shape of a record of imports, from the statements of a stylesheet: what each import looks up, and the names of
what is brought in. The imports of a stylesheet that is brought in follow it at once. -/
inductive Imports (environment : Environment) : Sheet → List Lookup → List String → Prop
  | done (importer : Sheet) : Imports environment importer [] []
  | browser {lookup : Lookup} {lookups : List Lookup} {files : List String}
    (leaves : Leaves environment lookup.importer lookup.reference lookup.pos)
    (rest : Imports environment lookup.importer lookups files) :
    Imports environment lookup.importer (lookup :: lookups) files
  | sheet {lookup : Lookup} {sheet : Sheet} {inner lookups : List Lookup} {within files : List String}
    (means : Means environment lookup.importer lookup.reference lookup.pos sheet)
    (inside : Imports environment sheet inner within)
    (rest : Imports environment lookup.importer lookups files) :
    Imports environment lookup.importer (lookup :: (inner ++ lookups)) (sheet.path :: (within ++ files))

theorem Means.identifier? {importer sheet : Sheet} {reference : String} {pos : Position}
    (means : Means environment importer reference pos sheet) :
    Import.identifier? environment.search importer reference = some sheet.path := by
  obtain ⟨before, after, rfl, yields⟩ := means
  exact path_findImport yields

theorem Leaves.identifier? {importer : Sheet} {reference : String} {pos : Position}
    (leaves : Leaves environment importer reference pos) :
    Import.identifier? environment.search importer reference = none := by
  obtain ⟨before, after, rfl, yields⟩ := leaves
  exact path_findImport yields

namespace Imports

variable {importer : Sheet} {lookups more : List Lookup} {files others : List String}

theorem append (first : Imports environment importer lookups files)
    (second : Imports environment importer more others) :
    Imports environment importer (lookups ++ more) (files ++ others) := by
  induction first with
  | done => exact second
  | browser leaves _ rest => exact .browser leaves (rest second)
  | sheet means inside _ _ rest =>
    have all := Imports.sheet means inside (rest second)
    rw [← List.append_assoc, ← List.append_assoc] at all
    exact all

/-- Every import brings in what it means, once for each time it is run. -/
theorem files_eq (imports : Imports environment importer lookups files) :
    files = lookups.filterMap (·.identifier? environment.search) := by
  induction imports with
  | done => rfl
  | @browser lookup lookups files leaves _ rest =>
    have none : lookup.identifier? environment.search = none := leaves.identifier?
    rw [List.filterMap_cons_none none]
    exact rest
  | @sheet lookup sheet inner lookups within files means _ _ inside rest =>
    have named : lookup.identifier? environment.search = some sheet.path := means.identifier?
    rw [List.filterMap_cons_some named, List.filterMap_append, ← inside, ← rest]

end Imports

/-- From one state to another the statements of a stylesheet have run imports, and these are recorded. -/
def Recorded (environment : Environment) (before after : State) : Prop :=
  after.sheet = before.sheet ∧ ∃ lookups files, Imports environment before.sheet lookups files ∧
    after.lookups = lookups.reverse ++ before.lookups ∧ after.imported = files.reverse ++ before.imported

namespace Recorded

theorem of_same (same : SameRecord before after) : Recorded environment before after :=
  ⟨same.sheet, [], [], .done _, same.lookups, same.imported⟩

theorem trans (first : Recorded environment before between) (second : Recorded environment between after) :
    Recorded environment before after := by
  obtain ⟨here, lookups, files, earlier, asked, named⟩ := first
  obtain ⟨there, more, others, later, asked', named'⟩ := second
  rw [here] at later
  refine ⟨there.trans here, lookups ++ more, files ++ others, earlier.append later, ?_, ?_⟩
  · rw [asked', asked, List.reverse_append, List.append_assoc]
  · rw [named', named, List.reverse_append, List.append_assoc]

end Recorded

/-- If an action goes well, the imports that it runs are recorded. -/
def Records (environment : Environment) (action : Eval α) : Prop :=
  ∀ before value after, Yields action environment before value after → Recorded environment before after

/-- The imports inside of a stylesheet are recorded behind its name. -/
theorem Records.importSheet {self : Evaluator} {pos : Position}
    (run : ∀ statements, Records environment (self.run statements))
    (write : ∀ parameters, Records environment (writeImport parameters pos)) (reference : String) (place : Position) :
    Records environment (self.importTarget pos (.sheet reference place)) := by
  intro before value after yields
  obtain ⟨found, between, search, later⟩ := yields_bind.1 yields
  obtain ⟨here, unchanged, asked⟩ := found_findImport search
  generalize lookup : (⟨reference, place, before.file, before.sheet, before.functionDepth⟩ : Lookup) = own at asked
  have importer : before.sheet = own.importer := by rw [← lookup]
  cases found with
  | none =>
    have left : Leaves environment own.importer own.reference own.pos := lookup ▸ ⟨before, between, rfl, search⟩
    have alone : Imports environment before.sheet [own] [] := importer ▸ .browser left (.done _)
    have looked : Recorded environment before between := ⟨here, [own], [], alone, asked, unchanged⟩
    exact looked.trans (write _ _ _ _ later)
  | some sheet =>
    have means : Means environment own.importer own.reference own.pos sheet := lookup ▸ ⟨before, between, rfl, search⟩
    simp only [runSheet, inSheet, yields_bind, yields_report, yields_modifyGet, yields_during, and_assoc,
      exists_and_left, exists_eq_left, Prod.mk.injEq, exists_eq_left'] at later
    obtain ⟨_, inner, ran, rfl⟩ := later
    obtain ⟨-, lookups, files, inside, asked', named⟩ := run sheet.statements _ _ _ ran
    have all : Imports environment before.sheet (own :: (lookups ++ [])) (sheet.path :: (files ++ [])) :=
      importer ▸ .sheet means inside (.done _)
    refine ⟨here, _, _, all, ?_, ?_⟩
    · simp only [asked', asked, List.append_nil, List.reverse_cons, List.append_assoc, List.singleton_append]
    · simp only [named, unchanged, List.append_nil, List.reverse_cons, List.append_assoc, List.singleton_append]

/-- Every action that goes well records its imports. -/
theorem upkeep_records (environment : Environment) : Upkeep (Records environment) where
  pure := by
    intro _ _ before result after yields
    obtain ⟨-, rfl⟩ := yields_pure.1 yields
    exact .of_same ⟨rfl, rfl, rfl⟩
  bind first rest := by
    intro before result after yields
    obtain ⟨value, between, here, later⟩ := yields_bind.1 yields
    exact (first _ _ _ here).trans (rest value _ _ _ later)
  get := by
    intro before state after yields
    obtain ⟨-, rfl⟩ := yields_get.1 yields
    exact .of_same ⟨rfl, rfl, rfl⟩
  read := by
    intro before found after yields
    obtain ⟨-, rfl⟩ := yields_read.1 yields
    exact .of_same ⟨rfl, rfl, rfl⟩
  endless := fun _ _ _ yields => absurd yields yields_throw
  fail := fun _ _ _ yields => absurd yields yields_fail
  modifyGet := by
    intro _ change same before value after yields
    have changed : (change before).2 = after := congrArg Prod.snd (yields_modifyGet.1 yields)
    rw [← changed]
    exact .of_same (same before)
  during := by
    intro _ enter restore action entered restored inside before value after yields
    obtain ⟨inner, ran, rfl⟩ := yields_during.1 yields
    have begins : Recorded environment before (enter before) := .of_same (entered before)
    exact (begins.trans (inside _ _ _ ran)).trans (.of_same (restored before inner))
  andThen := by
    intro _ action change first same before value after yields
    obtain ⟨ran, rfl⟩ := Prod.mk.inj yields
    have yielded : Yields action environment before value (action.outcome environment before).2 := Prod.ext ran rfl
    exact (first _ _ _ yielded).trans (.of_same (same _))
  importSheet run write := .importSheet run write _ _

/-- An evaluation that goes well has run the imports of its stylesheet, and the record of them is complete. -/
theorem imports_evaluate {root : Sheet} {state : State} (succeeds : evaluate environment root = (.ok (), state)) :
    Imports environment root state.lookups.reverse state.imported.reverse := by
  have yields : Yields ((evaluator depthLimit).run root.statements) environment (State.start root) () state := succeeds
  obtain ⟨-, lookups, files, imports, asked, named⟩ := (upkeep_records environment).run depthLimit _ _ _ _ yields
  have nothing : state.lookups = lookups.reverse ∧ state.imported = files.reverse := by
    rw [asked, named]
    exact ⟨List.append_nil _, List.append_nil _⟩
  rw [nothing.1, nothing.2, List.reverse_reverse, List.reverse_reverse]
  exact imports

/-! What is looked up is asked for by an import that is running. -/

/-- The evaluation of a stylesheet comes to an import that is looked up so. -/
def Asked (environment : Environment) (root : Sheet) (lookup : Lookup) : Prop :=
  ∃ state pos targets, Reached environment root (.statement (.imports pos targets)) state ∧
    .sheet lookup.reference lookup.pos ∈ targets ∧
    lookup = ⟨lookup.reference, lookup.pos, state.file, state.sheet, state.functionDepth⟩

/-- By induction on what a task does: only an import that is running looks something up. -/
theorem Performs.asked {task : Task} {root : Sheet} (performs : Performs environment task before after)
    (reached : Reached environment root task before) :
    ∀ lookup ∈ after.lookups, lookup ∈ before.lookups ∨ Asked environment root lookup := by
  induction performs with
  | trans first _ earlier later =>
    intro lookup member
    cases later (.performs reached first) lookup member with
    | inl there => exact earlier reached lookup there
    | inr asked => exact .inr asked
  | inside opens _ within =>
    intro lookup member
    rw [opens.leave_lookups] at member
    have found := within (.opens reached opens) lookup member
    rwa [opens.enter_lookups] at found
  | lookup state target =>
    intro lookup member
    cases member with
    | head => exact .inr ⟨state, _, _, reached, target, rfl⟩
    | tail _ there => exact .inl there
  | _ => exact fun lookup member => .inl member

theorem asked_evaluate (environment : Environment) (root : Sheet) :
    ∀ lookup ∈ (evaluate environment root).2.lookups, Asked environment root lookup := by
  intro lookup member
  cases (performs_evaluate environment root).asked .start lookup member with
  | inl there => cases there
  | inr asked => exact asked

end Evaluation

open Evaluation

/-- The ways to compile a stylesheet, each with its text, or what keeps it from being read, and with the files that are
included before an import is run. -/
inductive Compiler.Compiles (compiler : Compiler) : Except FileFault String → List String → Outcome → Prop
  | text (before : Stage) (source : String) : Compiles compiler (.ok source) [] (compiler.compileText before source)
  | file (before : Stage) (path : String) :
    Compiles compiler (compiler.files.read (compiler.rooted path).toString) [(compiler.rooted path).toString]
      (compiler.compileFile before path)
  | existing (path : String) :
    Compiles compiler (compiler.files.read (compiler.rooted path).toString) [(compiler.rooted path).toString]
      (compiler.compileExisting path)

variable {compiler : Compiler} {source : Except FileFault String} {listed : List String} {outcome : Outcome}
  {compiled : Compiled}

/-- The stylesheet of an entry, once its statements are read. -/
def Entry.sheet (entry : Entry) (statements : List Statement) : Sheet :=
  { path := entry.path, source := entry.source, directory := entry.directory, chain := [entry.path], statements }

/-- What is compiled is an entry that was parsed and evaluated without a failure. -/
structure Compiler.Finished (compiler : Compiler) (source : Except FileFault String) (listed : List String)
    (outcome : Outcome) (compiled : Compiled) (entry : Entry) (statements : List Statement) (state : State) : Prop where
  entered : ∃ before, outcome = compiler.compileEntry before entry
  source_eq : source = .ok entry.source
  listed_eq : listed = if entry.listed then [entry.path] else []
  parsed : Statement.parse entry.source entry.path entry.indented = .ok statements
  evaluated : evaluate compiler.environment (entry.sheet statements) = (.ok (), state)
  included : compiled.includedFiles =
    if (listed ++ state.imported.reverse).isEmpty then none else some (listed ++ state.imported.reverse)
  finish_eq : ∃ written, (compiled.css, compiled.sourceMap) = compiler.finish written state.tree.sources
  calls : outcome.hookCalls = compiler.hookCalls state

namespace Compiler

theorem compileEntry_of_parse {entry : Entry} {statements : List Statement} (before : Stage)
    (parsed : Statement.parse entry.source entry.path entry.indented = .ok statements) :
    ∃ log, compiler.compileEntry before entry = compiler.compileSheet entry (entry.sheet statements) log := by
  rw [compileEntry, parsed]
  exact ⟨_, rfl⟩

/-- A stylesheet that is compiled was evaluated without a failure, and its tree is written. -/
theorem evaluated_compileSheet {entry : Entry} {sheet : Sheet} {log : List LogEvent}
    (succeeds : (compiler.compileSheet entry sheet log).result = .ok compiled) :
    ∃ state told, evaluate compiler.environment sheet = (.ok (), state) ∧
      compiler.compileSheet entry sheet log = compiler.emit entry state told := by
  rw [compileSheet] at succeeds ⊢
  rcases evaluated : evaluate compiler.environment sheet with ⟨result, state⟩
  rw [evaluated] at succeeds
  cases result with
  | error failure => cases succeeds
  | ok _ => exact ⟨state, _, rfl, rfl⟩

/-- A tree is written with the record of its evaluation beside it. -/
theorem included_emit {entry : Entry} {state : State} {log : List LogEvent}
    (succeeds : (compiler.emit entry state log).result = .ok compiled) :
    let included := (if entry.listed then [entry.path] else []) ++ state.imported.reverse
    compiled.includedFiles = (if included.isEmpty then none else some included) ∧
      (∃ written, (compiled.css, compiled.sourceMap) = compiler.finish written state.tree.sources) ∧
      (compiler.emit entry state log).hookCalls = compiler.hookCalls state := by
  unfold emit at succeeds ⊢
  dsimp only at succeeds ⊢
  split at succeeds
  · cases succeeds
  · next written _ =>
    cases succeeds
    exact ⟨rfl, ⟨written, rfl⟩, rfl⟩

theorem finished_compileEntry {before : Stage} {entry : Entry}
    (succeeds : (compiler.compileEntry before entry).result = .ok compiled) :
    ∃ statements state, compiler.Finished (.ok entry.source) (if entry.listed then [entry.path] else [])
      (compiler.compileEntry before entry) compiled entry statements state := by
  cases parsed : Statement.parse entry.source entry.path entry.indented with
  | error error =>
    rw [compileEntry, parsed] at succeeds
    cases succeeds
  | ok statements =>
    obtain ⟨log, entered⟩ := compiler.compileEntry_of_parse before parsed
    rw [entered] at succeeds
    obtain ⟨state, told, evaluated, emitted⟩ := evaluated_compileSheet succeeds
    rw [emitted] at succeeds
    obtain ⟨included, finish_eq, calls⟩ := included_emit succeeds
    refine ⟨statements, state, ⟨before, rfl⟩, rfl, rfl, parsed, evaluated, included, finish_eq, ?_⟩
    rw [entered, emitted, calls]

theorem finished_compileFile {before : Stage} {path : String}
    (succeeds : (compiler.compileFile before path).result = .ok compiled) :
    ∃ entry statements state, compiler.Finished (compiler.files.read (compiler.rooted path).toString)
      [(compiler.rooted path).toString] (compiler.compileFile before path) compiled entry statements state := by
  unfold compileFile at succeeds ⊢
  dsimp only at succeeds ⊢
  split at succeeds
  · cases succeeds
  · cases succeeds
  · next read =>
    rw [read]
    exact ⟨_, finished_compileEntry succeeds⟩

theorem Compiles.finished (compiles : compiler.Compiles source listed outcome)
    (succeeds : outcome.result = .ok compiled) :
    ∃ entry statements state, compiler.Finished source listed outcome compiled entry statements state := by
  cases compiles with
  | text before source => exact ⟨_, finished_compileEntry succeeds⟩
  | file before path => exact finished_compileFile succeeds
  | existing path =>
    unfold compileExisting at succeeds ⊢
    split at succeeds
    · next present =>
      rw [if_pos present]
      exact finished_compileFile succeeds
    · cases succeeds

end Compiler

theorem ImportHook.identifier?_of_accepts? {search : ImportSearch} {hook : ImportHook} {lookup : Lookup} {path : String}
    (hooked : search.hook = some hook) (accepts : hook.accepts? (lookup.reference, lookup.importer.path) = some path) :
    lookup.identifier? search = some path := by
  unfold accepts? at accepts
  unfold Lookup.identifier? Import.identifier?
  rw [hooked]
  dsimp only at accepts ⊢
  cases answer : hook lookup.reference lookup.importer.path with
  | accepted => rwa [answer] at accepts
  | failed => simp only [answer, reduceCtorEq] at accepts
  | declined => simp only [answer, reduceCtorEq] at accepts

/-- What one choice takes from a list is a part of what another one takes that agrees with it. -/
private theorem filterMap_sublist {α β : Type} {f g : α → Option β} (agrees : ∀ a b, f a = some b → g a = some b)
    (items : List α) : (items.filterMap f).Sublist (items.filterMap g) := by
  induction items with
  | nil => exact .slnil
  | cons item rest tail =>
    cases chosen : f item with
    | none =>
      rw [List.filterMap_cons_none chosen]
      exact tail.trans ((List.sublist_cons_self item rest).filterMap g)
    | some b =>
      rw [List.filterMap_cons_some chosen, List.filterMap_cons_some (agrees item b chosen)]
      exact tail.cons_cons b

/-- The included files of a compilation that succeeds are the compiled file, if it is one, and then what the imports of
stylesheets mean that are run: an evaluation that writes down every import as it is run comes to the same state, and the
files are the names of what it has written down, one for each time an import is run and in this order. A stylesheet stands
before those that are imported inside of it. There are no included files just if there is nothing to name. A hook is
asked once for each of these imports, in this order, and the names that it gives are among the included files in the
order of its answers. -/
theorem Compiler.includedFiles_record_imports (compiles : compiler.Compiles source listed outcome)
    (succeeds : outcome.result = .ok compiled) :
    ∃ before entry statements state, outcome = compiler.compileEntry before entry ∧ source = .ok entry.source ∧
      listed = (if entry.listed then [entry.path] else []) ∧
      Statement.parse entry.source entry.path entry.indented = .ok statements ∧
      noting.evaluate compiler.environment (entry.sheet statements) = (.ok (), state) ∧
      evaluate compiler.environment (entry.sheet statements) = (.ok (), state) ∧
      let executed := state.lookups.reverse
      let files := executed.filterMap (·.identifier? compiler.environment.search)
      compiled.includedFiles.getD [] = listed ++ files ∧ (compiled.includedFiles = none ↔ listed ++ files = []) ∧
      Imports compiler.environment (entry.sheet statements) executed files ∧
      ∀ hook, compiler.hook = some hook →
        outcome.hookCalls = executed.map (fun lookup => (lookup.reference, lookup.importer.path)) ∧
        (outcome.hookCalls.filterMap hook.accepts?).Sublist files := by
  obtain ⟨entry, statements, state, finished⟩ := compiles.finished succeeds
  obtain ⟨before, entered⟩ := finished.entered
  have noted := (evaluate_noting compiler.environment (entry.sheet statements) state).1 finished.evaluated
  have imports := imports_evaluate finished.evaluated
  have files := imports.files_eq
  rw [files] at imports
  refine ⟨before, entry, statements, state, entered, finished.source_eq, finished.listed_eq, finished.parsed, noted,
    finished.evaluated, ?_, ?_, imports, ?_⟩
  · rw [finished.included, ← files]
    split
    · next empty => exact (List.isEmpty_iff.1 empty).symm
    · rfl
  · rw [finished.included, ← files, ← List.isEmpty_iff]
    split
    · next empty => exact ⟨fun _ => empty, fun _ => rfl⟩
    · next some => exact ⟨nofun, fun empty => absurd empty some⟩
  · intro hook hooked
    have calls : outcome.hookCalls =
        state.lookups.reverse.map fun lookup => (lookup.reference, lookup.importer.path) := by
      rw [finished.calls, Compiler.hookCalls, hooked]
      rfl
    refine ⟨calls, ?_⟩
    rw [calls, List.filterMap_map]
    exact filterMap_sublist (fun lookup path accepts => ImportHook.identifier?_of_accepts? hooked accepts) _

/-- A mixin that imports is used twice, and what it imports is imported once more behind it. -/
theorem Compiler.includedFiles_record_imports_repeated :
    let compiler := hookedCompiler fun reference _ =>
      if reference = "c.css" then .declined
      else .accepted reference (if reference = "a" then "@import 'b'; @import 'c.css';" else "x{y:z}") none
    let outcome := compiler.compileText .created
      "@mixin m \x7b @import 'a'; \x7d @for $i from 1 through 2 \x7b @include m; \x7d @import 'b';"
    ∃ compiled, outcome.result = .ok compiled ∧ compiled.includedFiles = some ["a", "b", "a", "b", "b"] ∧
      outcome.hookCalls =
        [("a", "stdin"), ("b", "a"), ("c.css", "a"), ("a", "stdin"), ("b", "a"), ("c.css", "a"), ("b", "stdin")] ∧
      ∃ root state, noting.evaluate compiler.environment root = (.ok (), state) ∧
        compiled.includedFiles.getD [] =
          [] ++ state.lookups.reverse.filterMap (·.identifier? compiler.environment.search) := by
  intro compiler outcome
  obtain ⟨included, calls⟩ : outcome.result.toOption.map (·.includedFiles) = some (some ["a", "b", "a", "b", "b"]) ∧
      outcome.hookCalls =
        [("a", "stdin"), ("b", "a"), ("c.css", "a"), ("a", "stdin"), ("b", "a"), ("c.css", "a"), ("b", "stdin")] := by
    decide +kernel
  cases succeeds : outcome.result with
  | error failure =>
    rw [succeeds] at included
    cases included
  | ok compiled =>
    rw [succeeds] at included
    have compiles : compiler.Compiles (.ok _) [] outcome := .text _ _
    obtain ⟨_, entry, statements, state, -, -, -, -, noted, -, named, -⟩ :=
      Compiler.includedFiles_record_imports compiles succeeds
    exact ⟨compiled, rfl, Option.some.inj included, calls, entry.sheet statements, state, noted, named⟩

end Stylesheet
