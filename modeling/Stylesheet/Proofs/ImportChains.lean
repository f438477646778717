import Stylesheet.Proofs.Context
import Stylesheet.Proofs.ImportedText

/-! Stylesheets import each other along chains. No name occurs twice on the way from a stylesheet to the first one,
because an import that would repeat one is refused; and what is then told is the part of the chain that would be
closed, import by import. -/

namespace Stylesheet

/-! What is told of a loop -/

namespace Import

theorem links_append (front : List String) (importer imported : String) :
    links (front ++ [importer, imported]) = links (front ++ [importer]) ++ [(importer, imported)] := by
  induction front with
  | nil => rfl
  | cons first rest tail =>
    cases rest with
    | nil => rfl
    | cons second rest => simpa [links] using tail

/-- The imports along a chain that begins with the innermost stylesheet: who imports whom, the outermost first. -/
def edges : List Sheet → List (Sheet × Sheet)
  | imported :: importer :: outer => edges (importer :: outer) ++ [(importer, imported)]
  | _ => []

theorem links_reverse (sheets : List Sheet) :
    links (sheets.map (·.path)).reverse = (edges sheets).map fun (importer, imported) => (importer.path, imported.path) := by
  induction sheets with
  | nil => rfl
  | cons imported outer tail =>
    cases outer with
    | nil => rfl
    | cons importer outer =>
      simp only [List.map_cons, List.reverse_cons, List.append_assoc, List.cons_append, List.nil_append, edges,
        List.map_append, List.map_nil] at tail ⊢
      rw [links_append, tail]

variable {sheet : Sheet} {inner rest : List Sheet} {repeated : Sheet}

/-- A loop is closed by the first stylesheet on the way out that has the name. -/
theorem loop?_of_chain (chain : sheet.chain = (inner ++ repeated :: rest).map (·.path))
    (before : ∀ other ∈ inner, other.path ≠ repeated.path) :
    loop? sheet repeated.path = some (((inner ++ [repeated]).map (·.path)).reverse ++ [repeated.path]) := by
  have member : sheet.chain.contains repeated.path = true := by simp [chain]
  have until_repeated : sheet.chain.takeWhile (· != repeated.path) = inner.map (·.path) := by
    rw [chain, List.map_append, List.takeWhile_append_of_pos, List.map_cons, List.takeWhile_cons_of_neg (by simp),
      List.append_nil]
    intro name known
    obtain ⟨other, here, rfl⟩ := List.mem_map.1 known
    simpa using before other here
  rw [loop?, if_pos member, until_repeated, List.map_append]
  rfl

theorem loop?_eq_none {path : String} (fresh : path ∉ sheet.chain) : loop? sheet path = none := by
  rw [loop?, if_neg (by simpa using fresh)]

end Import

/-- The message about a loop has a line for each import of the part of the chain that would be closed, and for the one
that closes it. -/
theorem ImportError.message_loop {outer inner rest : List Sheet} {importer repeated : Sheet}
    (chain : importer :: outer = inner ++ repeated :: rest) :
    (ImportError.loop (((inner ++ [repeated]).map (·.path)).reverse ++ [repeated.path])).message =
      "An @import loop has been found:\n" ++ "\n".intercalate
        ((Import.edges (inner ++ [repeated]) ++ [(importer, repeated)]).map fun (importer, imported) =>
          "    " ++ importer.path ++ " imports " ++ imported.path) := by
  obtain ⟨between, first⟩ : ∃ between, inner ++ [repeated] = importer :: between := by
    cases inner with
    | nil => exact ⟨[], by rw [(List.cons.inj chain).1]; rfl⟩
    | cons first inner => exact ⟨inner ++ [repeated], by rw [(List.cons.inj chain).1]; rfl⟩
  have lines : Import.links (((inner ++ [repeated]).map (·.path)).reverse ++ [repeated.path]) =
      (Import.edges (inner ++ [repeated]) ++ [(importer, repeated)]).map
        fun (importer, imported) => (importer.path, imported.path) := by
    rw [first, List.map_append, ← Import.links_reverse, List.map_cons, List.reverse_cons, List.append_assoc]
    exact Import.links_append _ _ _
  have written : (Import.links (((inner ++ [repeated]).map (·.path)).reverse ++ [repeated.path])).map
      (fun names => "    " ++ names.1 ++ " imports " ++ names.2) =
      (Import.edges (inner ++ [repeated]) ++ [(importer, repeated)]).map fun (importer, imported) =>
        "    " ++ importer.path ++ " imports " ++ imported.path := by
    rw [lines, List.map_map]
    rfl
  exact congrArg ("An @import loop has been found:\n" ++ "\n".intercalate ·) written

namespace Evaluation

/-- The name and the text of the stylesheet that a reference means: the hook gives them, or it leaves the reference to
the files and they are found there. -/
inductive Supplies (search : ImportSearch) (importer : Sheet) (reference path source : String) : Prop
  | hook {hook : ImportHook} {sourceMap : Option String} (asked : search.hook = some hook)
    (accepted : hook reference importer.path = .accepted path source sourceMap)
  | files (left : ∀ hook, search.hook = some hook → hook reference importer.path = .declined)
    (own : Import.isCssReference reference = false) (located : Import.locate? search importer reference = some path)
    (read : search.files.read path = .ok source)

/-- A stylesheet that takes part in a compilation, and behind it the one that imports it, and so on to the first. -/
inductive Imported (environment : Environment) (root : Sheet) (lookups : List Lookup) : List Sheet → Prop
  | root : Imported environment root lookups [root]
  | along {lookup : Lookup} {sheet : Sheet} {outer : List Sheet} (asked : lookup ∈ lookups)
    (importer : Imported environment root lookups (lookup.importer :: outer))
    (means : Means environment lookup.importer lookup.reference lookup.pos sheet) :
    Imported environment root lookups (sheet :: lookup.importer :: outer)

variable {environment : Environment} {root sheet : Sheet} {lookups more : List Lookup} {sheets outer : List Sheet}
  {state before after : State} {task : Task} {reference path source : String} {pos : Position}

/-! What is loaded -/

theorem load_refused (source : String) (pos : Position) (environment : Environment) {names : List String}
    (looped : Import.loop? before.sheet path = some names) :
    ((load path source pos).outcome environment before).1 =
      .error (.badImport (.loop names) pos before.sheet.path) := by
  rw [load, outcome_get_bind]
  dsimp only
  rw [looped]
  rfl

theorem load_read (source : String) (pos : Position) (environment : Environment)
    (fresh : Import.loop? before.sheet path = none) :
    (∃ sheet, ((load path source pos).outcome environment before).1 = .ok sheet) ∨
      ∃ error, ((load path source pos).outcome environment before).1 = .error (.malformed error path) := by
  rw [load, outcome_get_bind]
  dsimp only
  rw [fresh]
  dsimp only
  rw [outcome_bind]
  cases Statement.parse source path (Import.isIndented path) with
  | ok statements => exact .inl ⟨_, rfl⟩
  | error error => exact .inr ⟨_, rfl⟩

/-- A stylesheet is loaded with its own name before those on the way to the importer, where it does not occur. -/
theorem chain_load (yields : Yields (load path source pos) environment before sheet after) :
    sheet.chain = sheet.path :: before.sheet.chain ∧ sheet.path ∉ before.sheet.chain := by
  cases looped : Import.loop? before.sheet path with
  | some names =>
    have refused := load_refused source pos environment looped
    rw [yields] at refused
    cases refused
  | none =>
    have fresh : path ∉ before.sheet.chain := by simpa [Import.loop?] using looped
    simp only [load, yields_bind, yields_get, and_assoc, exists_and_left, exists_eq_left, looped, yields_report] at yields
    obtain ⟨-, yields⟩ := yields
    split at yields
    · obtain ⟨rfl, -⟩ := yields_pure.1 yields
      exact ⟨rfl, fresh⟩
    · exact absurd yields yields_throw

/-- What is supplied for a reference is loaded for the same importer. -/
theorem Supplies.outcome (supplies : Supplies environment.search before.sheet reference path source) (pos : Position) :
    ∃ between, between.sheet = before.sheet ∧ ((findImport reference pos).outcome environment before).1 =
      ((load path source pos).outcome environment between).1.map some := by
  have loaded (state : State) : ((do return some (← load path source pos)).outcome environment state).1 =
      ((load path source pos).outcome environment state).1.map some := by
    rw [outcome_bind]
    rcases (load path source pos).outcome environment state with ⟨result, after⟩
    cases result <;> rfl
  have found (state : State) (same : state.sheet = before.sheet) (own : Import.isCssReference reference = false)
      (located : Import.locate? environment.search before.sheet reference = some path)
      (read : environment.search.files.read path = .ok source) :
      ∃ between, between.sheet = before.sheet ∧ ((findSheet reference pos).outcome environment state).1 =
        ((load path source pos).outcome environment between).1.map some := by
    refine ⟨{ state with log := .resolved reference path :: state.log }, same, ?_⟩
    rw [findSheet, own, if_neg Bool.false_ne_true, outcome_read_bind, outcome_get_bind, same, located, ← loaded]
    dsimp only
    rw [outcome_bind, read, ← same]
    rfl
  have asks := outcome_findImport reference pos environment before
  rw [askHook, outcome_read_bind] at asks
  cases supplies with
  | hook asked accepted =>
    rw [asked] at asks
    dsimp only at asks
    rw [outcome_get_bind] at asks
    dsimp only [State.asking] at asks
    rw [accepted] at asks
    refine ⟨{ before.asking reference pos with log := .hookAccepted reference path :: before.log }, rfl, ?_⟩
    rw [asks, ← loaded]
    rfl
  | files left own located read =>
    cases asked : environment.search.hook with
    | none =>
      rw [asked] at asks
      rw [asks]
      exact found _ rfl own located read
    | some hook =>
      rw [asked] at asks
      dsimp only at asks
      rw [outcome_get_bind] at asks
      dsimp only [State.asking] at asks
      rw [left hook asked] at asks
      rw [asks]
      exact found { before.asking reference pos with log := .hookDeclined reference :: before.log } rfl own located read

/-- What is supplied is refused just where it would be loaded along a loop. -/
theorem Supplies.refused_iff (supplies : Supplies environment.search before.sheet reference path source)
    (pos : Position) :
    (∃ names place file, ((findImport reference pos).outcome environment before).1 =
      .error (.badImport (.loop names) place file)) ↔ path ∈ before.sheet.chain := by
  obtain ⟨between, same, loads⟩ := supplies.outcome pos
  rw [loads, ← same]
  constructor
  · rintro ⟨names, place, file, refused⟩
    by_contra fresh
    rcases load_read source pos environment (Import.loop?_eq_none fresh) with
      ⟨sheet, read⟩ | ⟨error, malformed⟩
    · rw [read] at refused
      cases refused
    · rw [malformed] at refused
      cases refused
  · intro member
    have looped : Import.loop? between.sheet path = some _ := if_pos (by simpa using member)
    exact ⟨_, pos, between.sheet.path, by rw [load_refused source pos environment looped]; rfl⟩

theorem Supplies.refused {names : List String}
    (supplies : Supplies environment.search before.sheet reference path source)
    (looped : Import.loop? before.sheet path = some names) (pos : Position) :
    ((findImport reference pos).outcome environment before).1 =
      .error (.badImport (.loop names) pos before.sheet.path) := by
  obtain ⟨between, same, loads⟩ := supplies.outcome pos
  rw [← same] at looped ⊢
  rw [loads, load_refused source pos environment looped]
  rfl

/-! The stylesheets on the way to the first -/

namespace Imported

theorem mono (subset : lookups ⊆ more) (imported : Imported environment root lookups sheets) :
    Imported environment root more sheets := by
  induction imported with
  | root => exact .root
  | along asked _ means importer => exact .along (subset asked) importer means

/-- A stylesheet keeps the names of those on the way to the first. -/
theorem chain_eq (first : root.chain = [root.path])
    (imported : Imported environment root lookups (sheet :: outer)) : sheet.chain = (sheet :: outer).map (·.path) := by
  generalize along : sheet :: outer = sheets at imported
  induction imported generalizing sheet outer with
  | root =>
    obtain ⟨rfl, rfl⟩ := List.cons.inj along
    exact first
  | along _ _ means importer =>
    obtain ⟨rfl, rfl⟩ := List.cons.inj along
    obtain ⟨_, _, _, _, same, yields⟩ := means.loaded
    rw [(chain_load yields).1, same, importer rfl]
    rfl

/-- By induction on the way: what is loaded has none of the names before it. -/
theorem nodup (first : root.chain = [root.path]) (imported : Imported environment root lookups sheets) :
    (sheets.map (·.path)).Nodup := by
  induction imported with
  | root => exact List.pairwise_singleton _ _
  | along _ importer means distinct =>
    obtain ⟨_, _, _, _, same, yields⟩ := means.loaded
    have fresh := (chain_load yields).2
    rw [same, importer.chain_eq first] at fresh
    exact List.nodup_cons.2 ⟨fresh, distinct⟩

end Imported

/-- By induction on the course of an evaluation: where it is, it came to by imports. -/
theorem Reached.imported (reached : Reached environment root task state) :
    ∃ outer, Imported environment root state.lookups (state.sheet :: outer) := by
  induction reached with
  | start => exact ⟨[], .root⟩
  | performs _ performs before =>
    obtain ⟨outer, imported⟩ := before
    have same : SameSheet _ _ := steady_sameSheet.leads performs.leads
    rw [same]
    exact ⟨outer, imported.mono (steady_traced.leads performs.leads).lookups.subset⟩
  | opens _ opens importing =>
    obtain ⟨outer, imported⟩ := importing
    cases opens with
    | sheet target asked means => exact ⟨_, .along asked imported means⟩
    | _ => exact ⟨outer, imported⟩

/-- An evaluation comes into the stylesheets that are imported where it is. -/
theorem Reached.importing {statements : List Statement} (reached : Reached environment root (.block statements) state)
    (asks : reference ∈ statements.flatMap Statement.ownReferences)
    (means : ∀ pos, Means environment state.sheet reference pos sheet) :
    ∃ entered, Reached environment root (.block sheet.statements) entered ∧ entered.sheet = sheet := by
  obtain ⟨statement, member, own⟩ := List.mem_flatMap.1 asks
  cases statement with
  | imports pos targets =>
    obtain ⟨target, listed, found⟩ := List.mem_filterMap.1 own
    cases target with
    | css text => cases found
    | sheet reference' place =>
      cases found
      have running := Reached.opens reached (.statement state member)
      exact ⟨_, .opens (.performs running (.lookup _ listed)) (.sheet listed (.head _) (means place)), rfl⟩
  | _ => cases own

/-- Wherever an evaluation comes, no name occurs twice among the stylesheets on the way from the current one, or from
any other that takes part, to the first. What is supplied for an import is refused as a loop just if its name is on the
way from the current stylesheet. The message then has a line for each import from the stylesheet of that name down to
the current one, in order, and one for the import that would close the loop. -/
theorem imports_acyclic (first : root.chain = [root.path]) (reached : Reached environment root task state) :
    (∀ sheets, Imported environment root state.lookups sheets → (sheets.map (·.path)).Nodup) ∧
      (∃ outer, Imported environment root state.lookups (state.sheet :: outer)) ∧
      ∀ outer, Imported environment root state.lookups (state.sheet :: outer) → ∀ reference pos path source,
        Supplies environment.search state.sheet reference path source →
        ((∃ names place file, ((findImport reference pos).outcome environment state).1 =
          .error (.badImport (.loop names) place file)) ↔ path ∈ (state.sheet :: outer).map (·.path)) ∧
        ∀ inner repeated rest, state.sheet :: outer = inner ++ repeated :: rest → repeated.path = path →
          ∃ names, ((findImport reference pos).outcome environment state).1 =
            .error (.badImport (.loop names) pos state.sheet.path) ∧
            (ImportError.loop names).message = "An @import loop has been found:\n" ++ "\n".intercalate
              ((Import.edges (inner ++ [repeated]) ++ [(state.sheet, repeated)]).map fun (importer, imported) =>
                "    " ++ importer.path ++ " imports " ++ imported.path) := by
  refine ⟨fun _ along => along.nodup first, reached.imported, fun outer imported reference pos path source supplies => ?_⟩
  have chain := imported.chain_eq first
  refine ⟨chain ▸ supplies.refused_iff pos, ?_⟩
  rintro inner repeated rest split rfl
  have distinct : ((inner ++ repeated :: rest).map (·.path)).Nodup := split ▸ imported.nodup first
  have before : ∀ other ∈ inner, other.path ≠ repeated.path := by
    intro other member same
    rw [List.map_append, List.nodup_append] at distinct
    exact distinct.2.2 _ (List.mem_map_of_mem member) _ (List.mem_map_of_mem (.head _)) same
  exact ⟨_, supplies.refused (Import.loop?_of_chain (split ▸ chain) before) pos, ImportError.message_loop split⟩

/-- Two stylesheets import each other. -/
def circularEnvironment : Environment :=
  { plainEnvironment with
    search.hook := some fun reference _ =>
      .accepted reference (if reference = "a" then "@import 'b';" else "@import 'a';") none }

def circularRoot : Sheet := sheetOf (statementsOf "@import 'a';" "stdin")

def circularSheet (name source : String) (chain : List String) : Sheet :=
  ⟨name, source, Import.directoryOf? name, name :: chain, statementsOf source name⟩

theorem means_circularSheet {importer : Sheet} {name source : String}
    (accepted : (if name = "a" then "@import 'b';" else "@import 'a';") = source) (fresh : name ∉ importer.chain)
    (plain : Import.isIndented name = false) (parses : (Statement.parse source name false).isOk = true)
    (pos : Position) : Means circularEnvironment importer name pos (circularSheet name source importer.chain) := by
  have answers : HookAnswer.accepted name (if name = "a" then "@import 'b';" else "@import 'a';") none =
      .accepted name source none := by rw [accepted]
  have parsed : Statement.parse source name (Import.isIndented name) = .ok (statementsOf source name) := by
    rw [plain]
    exact parse_eq_ok parses
  obtain ⟨after, yields⟩ : ∃ after, Yields (findImport name pos) circularEnvironment (State.start importer)
      (some (circularSheet name source importer.chain)) after :=
    yields_of_accepted pos rfl answers (Import.loop?_eq_none fresh) parsed
  exact ⟨_, after, rfl, yields⟩

/-- The first stylesheet is no part of the loop. -/
theorem imports_acyclic_circular : ∃ state,
    circularRoot.chain = [circularRoot.path] ∧
      Reached circularEnvironment circularRoot
        (.block (circularSheet "b" "@import 'a';" ["a", "stdin"]).statements) state ∧
      state.sheet.chain = ["b", "a", "stdin"] ∧
      Supplies circularEnvironment.search state.sheet "a" "a" "@import 'b';" ∧
      ∃ names, ((findImport "a" ⟨1, 9⟩).outcome circularEnvironment state).1 =
        .error (.badImport (.loop names) ⟨1, 9⟩ "b") ∧
        (ImportError.loop names).message = "An @import loop has been found:\n    a imports b\n    b imports a" := by
  have outermost : Reached circularEnvironment circularRoot (.block circularRoot.statements)
      (State.start circularRoot) := .start
  obtain ⟨inner, reached, here⟩ := outermost.importing (by decide +kernel : "a" ∈ _)
    (means_circularSheet rfl (by decide) (by decide +kernel) (by decide +kernel))
  obtain ⟨state, reached, innermost⟩ := reached.importing (by decide +kernel : "b" ∈ _)
    (means_circularSheet rfl (by rw [here]; decide) (by decide +kernel) (by decide +kernel))
  rw [here] at innermost reached
  have chain : state.sheet.chain = ["b", "a", "stdin"] := by rw [innermost]; rfl
  have answers : (circularEnvironment.search.hook.map fun hook => hook "a" state.sheet.path) =
      some (.accepted "a" "@import 'b';" none) := rfl
  obtain ⟨hook, hooked, accepted⟩ := Option.map_eq_some_iff.1 answers
  have supplies := Supplies.hook hooked accepted
  obtain ⟨-, ⟨outer, imported⟩, refused⟩ := imports_acyclic rfl reached
  refine ⟨state, rfl, reached, chain, supplies, ?_⟩
  have paths := imported.chain_eq rfl
  rw [chain, List.map_cons, List.cons.injEq] at paths
  obtain ⟨own, further⟩ := paths
  obtain ⟨first, rest, rfl, one, -⟩ := List.map_eq_cons_iff.1 further.symm
  obtain ⟨names, error, message⟩ :=
    (refused _ imported "a" ⟨1, 9⟩ "a" _ supplies).2 [state.sheet] first rest rfl one
  refine ⟨names, own ▸ error, message.trans ?_⟩
  simp only [Import.edges, List.nil_append, List.cons_append, List.map_cons, List.map_nil, ← own, one]
  decide +kernel

end Evaluation

end Stylesheet
