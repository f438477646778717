import Stylesheet.Compiler
import Stylesheet.Proofs.Splicing.InPlace

/-! An import means the text that is imported. A stylesheet is compiled to the same CSS, or fails with the same text,
when the statements of an imported stylesheet stand in the place of the import. -/

namespace Stylesheet
open Evaluation

/-- The CSS that a compilation ends with, or what went wrong in a few words. -/
def Outcome.css (outcome : Outcome) : Except String String :=
  (outcome.result.map (·.css)).mapError Failure.text

/-- The CSS of a compilation is no more than what was written, and the address of a source map at most. -/
def Options.mapApart (options : Options) : Bool :=
  !options.sourceMap || options.omitSourceMapUrl || !options.embedSourceMap

namespace Compiler

variable {compiler : Compiler}

theorem finish_css (apart : compiler.options.mapApart = true) {written written' : Css.Written}
    (same : written.css = written'.css) (sources sources' : List Css.Source) :
    (compiler.finish written sources).1 = (compiler.finish written' sources').1 := by
  unfold finish
  split
  · next mapped =>
    split
    · exact same
    · next told =>
      have outside : compiler.options.embedSourceMap = false := by
        simpa [Options.mapApart, mapped, told] using apart
      simp only [withSourceMapUrl, sourceMapUrl, outside, same, Bool.false_eq_true, if_false]
  · exact same

theorem emit_css (apart : compiler.options.mapApart = true) {state state' : State}
    (same : state.tree.css compiler.options.format = state'.tree.css compiler.options.format) (entry : Entry)
    (log log' : List LogEvent) : (compiler.emit entry state log).css = (compiler.emit entry state' log').css := by
  unfold emit
  unfold Css.Tree.css at same
  generalize state.tree.write compiler.options.format = one,
    state'.tree.write compiler.options.format = two at same
  cases one with
  | error error =>
    cases two with
    | error error' =>
      simp only [Except.map, Except.mapError, Except.error.injEq] at same
      change Except.error (EvalError.operation error.error).message =
        Except.error (EvalError.operation error'.error).message
      rw [same]
    | ok written => simp [Except.map, Except.mapError] at same
  | ok written =>
    cases two with
    | error error => simp [Except.map, Except.mapError] at same
    | ok written' =>
      simp only [Except.map, Except.mapError, Except.ok.injEq] at same
      simp only [Outcome.css, Except.map, Except.mapError]
      rw [finish_css apart same _ state'.tree.sources]

end Compiler

theorem evaluate_eq (environment : Environment) (sheet : Sheet) :
    evaluate environment sheet =
      ((evaluator depthLimit).run sheet.statements).outcome environment (State.start sheet) := rfl

theorem alike_start {splice : Splice} (sheet : Sheet) (statements : List Statement) :
    Alike splice (State.start sheet) (State.start { sheet with statements }) := by
  have same : State.start { sheet with statements } = { State.start sheet with sheet := { sheet with statements } } :=
    rfl
  rw [same]
  exact { Alike.refl (State.start sheet) with sheet := .inl ⟨rfl, rfl, rfl⟩ }

/-- A stylesheet and the same one with the statements of another in the place of its import are compiled to the same
CSS, or fail with the same text. -/
theorem Compiler.compileSheet_spliced (compiler : Compiler) (entry : Entry) (log log' : List LogEvent)
    {splice : Splice} {sheet : Sheet} {statements : List Statement}
    (spliced : Splice.Spliced splice sheet.path sheet.statements statements)
    (ends : (evaluate compiler.environment sheet).1 ≠ .error .endless)
    (suits : ∀ lookup ∈ (evaluate compiler.environment sheet).2.lookups, Suits splice compiler.environment lookup)
    (comments : compiler.options.sourceComments = false) (apart : compiler.options.mapApart = true) :
    (compiler.compileSheet entry sheet log).css = (compiler.compileSheet entry { sheet with statements } log').css := by
  have follows := (evaluator_simulates splice (Nat.le_refl depthLimit)).run spliced
  have agree : Proper splice compiler.environment (evaluate compiler.environment sheet) →
      Agree splice Eq (evaluate compiler.environment sheet)
        (evaluate compiler.environment { sheet with statements }) := by
    simp only [evaluate_eq]
    exact follows.agree rfl (alike_start sheet statements)
  replace agree := agree ⟨ends, suits⟩
  unfold compileSheet
  generalize evaluate compiler.environment sheet = one,
    evaluate compiler.environment { sheet with statements } = two at agree
  cases agree with
  | error same => exact congrArg Except.error same
  | ok _ alike =>
    refine emit_css apart ?_ entry _ _
    rw [Css.Tree.css_bare _ comments, alike.tree, ← Css.Tree.css_bare _ comments]

/-! An import inside a rule, and what keeps an import from being replaced -/

/-- A hook may say what a reference means, if nothing of that name is on the way to the importer. -/
theorem yields_of_accepted {environment : Environment} {before : State} {hook : ImportHook}
    {reference path source : String} {sourceMap : Option String} {statements : List Statement} (pos : Position)
    (hooked : environment.search.hook = some hook)
    (accepted : hook reference before.sheet.path = .accepted path source sourceMap)
    (first : Import.loop? before.sheet path = none)
    (parsed : Statement.parse source path (Import.isIndented path) = .ok statements) :
    ∃ after, Yields (findImport reference pos) environment before
      (some ⟨path, source, Import.directoryOf? path, path :: before.sheet.chain, statements⟩) after := by
  refine ⟨{ before.asking reference pos with
    log := .parsing path source.utf8ByteSize (Import.isIndented path) :: .hookAccepted reference path :: before.log }, ?_⟩
  simp [findImport, askHook, load, hooked, accepted, first, parsed, State.asking]

theorem finds_of_accepted {splice : Splice} {environment : Environment} {importer : Sheet} {hook : ImportHook}
    {source : String} {sourceMap : Option String} (hooked : environment.search.hook = some hook)
    (accepted : hook splice.reference importer.path = .accepted splice.path source sourceMap)
    (first : Import.loop? importer splice.path = none)
    (parsed : Statement.parse source splice.path (Import.isIndented splice.path) = .ok splice.statements) :
    Finds splice environment importer := by
  rintro before rfl
  obtain ⟨after, yields⟩ := yields_of_accepted splice.pos hooked accepted first parsed
  exact ⟨_, after, yields, rfl, rfl⟩

/-- The statements of a text, if it is a stylesheet. -/
@[irreducible] def statementsOf (source path : String) : List Statement :=
  (Statement.parse source path false).toOption.getD []

theorem parse_eq_ok {source path : String} (parses : (Statement.parse source path false).isOk = true) :
    Statement.parse source path false = .ok (statementsOf source path) := by
  unfold statementsOf
  cases parsed : Statement.parse source path false with
  | error error => simp [parsed, Except.isOk, Except.toBool] at parses
  | ok statements => rfl

def hookedCompiler (hook : ImportHook) : Compiler := ⟨{ style := .compressed }, .start [], some hook⟩

def sheetOf (statements : List Statement) : Sheet :=
  { path := "stdin", source := "", directory := none, chain := ["stdin"], statements }

def textEntry : Entry := { path := "stdin", source := "", indented := false, directory := none, listed := false }

def nestedCompiler : Compiler := hookedCompiler fun reference _ => .accepted reference "c{d:e}" none

def nestedSplice : Splice :=
  { reference := "u", pos := ⟨1, 25⟩, file := "stdin", path := "u", statements := statementsOf "c{d:e}" "u" }

def nestedImport : Sheet :=
  sheetOf [.media ⟨1, 1⟩ [.text "print"] [.rule ⟨1, 14⟩ [.text "b"] [.imports ⟨1, 17⟩ [.sheet "u" ⟨1, 25⟩]]]]

private theorem nested_asks : (evaluate nestedCompiler.environment nestedImport).2.lookups.map (fun lookup =>
    (lookup.importer.path, lookup.importer.chain, lookup.functionDepth)) = [("stdin", ["stdin"], 0)] := by
  decide +kernel

private theorem nested_suits : ∀ lookup ∈ (evaluate nestedCompiler.environment nestedImport).2.lookups,
    Suits nestedSplice nestedCompiler.environment lookup := by
  intro lookup member
  have shape : (lookup.importer.path, lookup.importer.chain, lookup.functionDepth) ∈ [("stdin", ["stdin"], 0)] :=
    nested_asks ▸ List.mem_map_of_mem member
  rw [List.mem_singleton, Prod.mk.injEq, Prod.mk.injEq] at shape
  obtain ⟨path, chain, outside⟩ := shape
  have first : Import.loop? lookup.importer "u" = none := by rw [Import.loop?, chain]; rfl
  have plain : Import.isIndented "u" = false := by decide +kernel
  have parsed : Statement.parse "c{d:e}" "u" (Import.isIndented "u") = .ok nestedSplice.statements := by
    rw [plain]
    exact parse_eq_ok (by decide +kernel)
  exact ⟨by rw [path]; decide, fun _ _ _ => ⟨outside, finds_of_accepted rfl rfl first parsed⟩⟩

theorem compileSheet_spliced_nested :
    ∃ statements, Splice.Spliced nestedSplice nestedImport.path nestedImport.statements statements ∧
      (evaluate nestedCompiler.environment nestedImport).1 ≠ .error .endless ∧
      (∀ lookup ∈ (evaluate nestedCompiler.environment nestedImport).2.lookups,
        Suits nestedSplice nestedCompiler.environment lookup) ∧
      (nestedCompiler.compileSheet textEntry nestedImport []).css =
        .ok "@media print{b c{d:e}}" ∧
      (nestedCompiler.compileSheet textEntry nestedImport []).css =
        (nestedCompiler.compileSheet textEntry { nestedImport with statements } []).css := by
  have spliced : Splice.Spliced nestedSplice nestedImport.path nestedImport.statements _ :=
    .within [] (.media (.within [] (.rule (.here [] ⟨1, 17⟩ [] [] [])) [])) []
  have ends : (evaluate nestedCompiler.environment nestedImport).1 ≠ .error .endless := by decide +kernel
  have css : (nestedCompiler.compileSheet textEntry nestedImport []).css =
      .ok "@media print{b c{d:e}}" := by decide +kernel
  have same := nestedCompiler.compileSheet_spliced textEntry [] [] spliced ends nested_suits rfl rfl
  exact ⟨_, spliced, ends, nested_suits, css, same⟩

/-- The second import can be reached from the first stylesheet only. -/
def callingCompiler : Compiler := hookedCompiler fun reference importer =>
  if reference == "u" then .accepted "u" "@include m;" none
  else if importer == "stdin" then .accepted "x" "a{b:c}" none
  else .failed 0 0 "not from here"

def callingSplice : Splice :=
  { reference := "u", pos := ⟨1, 35⟩, file := "stdin", path := "u", statements := statementsOf "@include m;" "u" }

/-- The stylesheet that is imported uses a mixin, which imports another one. -/
def callingSheet : Sheet :=
  sheetOf
    [.mixin ⟨1, 1⟩ ⟨"m", [], none, [.imports ⟨1, 12⟩ [.sheet "x" ⟨1, 20⟩]], "stdin"⟩,
      .imports ⟨1, 27⟩ [.sheet "u" ⟨1, 35⟩]]

def emptyCompiler : Compiler := hookedCompiler fun reference _ => .accepted reference "" none

def emptySplice : Splice :=
  { reference := "u", pos := ⟨1, 14⟩, file := "stdin", path := "u", statements := statementsOf "" "u" }

/-- The source map stands in the CSS. -/
def embeddingCompiler : Compiler :=
  { emptyCompiler with
    options := { style := .compressed, sourceMap := true, embedSourceMap := true, outputFile := some "/o.css" } }

/-- Properties inside another one, which has no value of its own. -/
def emptySheet (nested : List Statement) : Sheet := sheetOf [.declaration ⟨1, 1⟩ [.text "a"] none false nested]

/-- A mixin imports relative to the stylesheet that uses it, a property without a value needs a rule if nothing is
inside it, and a source map tells where everything was written. -/
theorem compileSheet_ne_spliced :
    (∃ statements, Splice.Spliced callingSplice callingSheet.path callingSheet.statements statements ∧
      callingSplice.statements.all (fun statement => statement.ownReferences.isEmpty && statement.blocks.isEmpty) ∧
      (evaluate callingCompiler.environment callingSheet).2.lookups.map (fun lookup =>
        (lookup.reference, lookup.importer.path, lookup.functionDepth)) = [("x", "u", 0), ("u", "stdin", 0)] ∧
      (callingCompiler.compileSheet textEntry callingSheet []).css = .error "not from here" ∧
      (callingCompiler.compileSheet textEntry { callingSheet with statements } []).css = .ok "a{b:c}") ∧
    (∃ nested, Splice.Spliced emptySplice "stdin" [.imports ⟨1, 6⟩ [.sheet "u" ⟨1, 14⟩]] nested ∧
      emptySplice.statements.isEmpty ∧
      (emptyCompiler.compileSheet textEntry (emptySheet [.imports ⟨1, 6⟩ [.sheet "u" ⟨1, 14⟩]]) []).css = .ok "" ∧
      (emptyCompiler.compileSheet textEntry (emptySheet nested) []).css =
        .error "Properties are only allowed within rules, directives, mixin includes, or other properties.") ∧
    ∃ statements, Splice.Spliced emptySplice "stdin" [.imports ⟨1, 6⟩ [.sheet "u" ⟨1, 14⟩]] statements ∧
      (embeddingCompiler.compileSheet textEntry (sheetOf [.imports ⟨1, 6⟩ [.sheet "u" ⟨1, 14⟩]]) []).css ≠
        (embeddingCompiler.compileSheet textEntry (sheetOf statements) []).css := by
  have calling : Splice.Spliced callingSplice callingSheet.path callingSheet.statements _ :=
    .here [.mixin ⟨1, 1⟩ ⟨"m", [], none, [.imports ⟨1, 12⟩ [.sheet "x" ⟨1, 20⟩]], "stdin"⟩] ⟨1, 27⟩ [] [] []
  have empty : Splice.Spliced emptySplice "stdin" [.imports ⟨1, 6⟩ [.sheet "u" ⟨1, 14⟩]] _ :=
    .here [] ⟨1, 6⟩ [] [] []
  refine ⟨⟨_, calling, ?_, ?_, ?_, ?_⟩, ⟨_, empty, ?_, ?_, ?_⟩, _, empty, ?_⟩
  all_goals decide +kernel

end Stylesheet
