import Stylesheet.Proofs.Context
import Stylesheet.Proofs.Filing
import Stylesheet.Proofs.ImportedText

/-! Where output comes from. A mixin, a function and a block handed to a mixin run in the file that they were written
in, wherever they are used from, so what they write has the span of a statement of that file. -/

namespace Stylesheet

/-! Sources of a tree -/

namespace Css

/-- The name of a source. -/
def pathAt? (sources : List Source) (source : Nat) : Option String := sources[source]?.map (·.path)

theorem pathAt?_of_prefix {sources more : List Source} (fewer : sources <+: more) {source : Nat} {path : String}
    (found : pathAt? sources source = some path) : pathAt? more source = some path := by
  obtain ⟨rest, rfl⟩ := fewer
  obtain ⟨entry, here, rfl⟩ := Option.map_eq_some_iff.1 found
  have present := (List.getElem?_eq_some_iff.1 here).1
  rw [pathAt?, List.getElem?_append_left present, here]
  rfl

namespace Tree

variable {tree : Tree} {path text : String} {source : Nat}

theorem pathAt?_sourceIndex? (found : tree.sourceIndex? path = some source) :
    pathAt? tree.sources source = some path := by
  obtain ⟨present, same, -⟩ := List.findIdx?_eq_some_iff_getElem.1 found
  rw [pathAt?, List.getElem?_eq_getElem present, Option.map_some, beq_iff_eq.1 same]

/-- A file that is a source of the tree is found among the sources. -/
theorem pathAt?_getD_sourceIndex? (known : pathAt? tree.sources source = some path) (otherwise : Nat) :
    pathAt? tree.sources ((tree.sourceIndex? path).getD otherwise) = some path := by
  cases found : tree.sourceIndex? path with
  | some index => exact pathAt?_sourceIndex? found
  | none =>
    obtain ⟨entry, here, same⟩ := Option.map_eq_some_iff.1 known
    have other := List.findIdx?_eq_none_iff.1 found entry (List.mem_of_getElem? here)
    rw [same, BEq.rfl] at other
    cases other

theorem pathAt?_addSource (tree : Tree) (path text : String) :
    pathAt? (tree.addSource path text).2.sources (tree.addSource path text).1 = some path := by
  unfold addSource
  split
  · next found => exact pathAt?_sourceIndex? found
  · simp [pathAt?]

theorem sources_addSource (tree : Tree) (path text : String) :
    tree.sources <+: (tree.addSource path text).2.sources := by
  unfold addSource
  split
  · exact List.prefix_rfl
  · exact List.prefix_append _ _

/-- What is known of the number, the content and the span of each node, and of each declaration. -/
def Traced (node : Nat → Content → Span → Prop) (declared : Declaration → Prop) (tree : Tree) : Prop :=
  ∀ id entry, tree.entries[id]? = some entry → node id entry.content entry.span ∧
    ∀ declaration, .declaration declaration ∈ entry.items → declared declaration

namespace Traced

variable {node node' : Nat → Content → Span → Prop} {declared declared' : Declaration → Prop}

theorem mono (traced : tree.Traced node declared) {tree' : Tree} (same : tree'.entries = tree.entries)
    (nodes : ∀ id content span, node id content span → node' id content span)
    (declarations : ∀ declaration, declared declaration → declared' declaration) : tree'.Traced node' declared' := by
  intro id entry found
  obtain ⟨here, items⟩ := traced id entry (same ▸ found)
  exact ⟨nodes _ _ _ here, fun declaration member => declarations _ (items declaration member)⟩

theorem empty : Tree.empty.Traced node declared := fun id entry found => by cases found

theorem push (traced : tree.Traced node declared) {content : Content} {span : Span}
    (new : node tree.entries.size content span) (holder : Option Nat) (depth : Nat) :
    (tree.push holder content depth span).2.Traced node declared := by
  intro id entry found
  rw [Tree.push, Array.getElem?_push] at found
  split at found
  · next last =>
    cases found
    exact ⟨last ▸ new, fun _ member => absurd member List.not_mem_nil⟩
  · exact traced id entry found

theorem pushItem (traced : tree.Traced node declared) (id : Nat) (item : Item)
    (new : ∀ declaration, item = .declaration declaration → declared declaration) :
    (tree.pushItem id item).Traced node declared := by
  intro other entry found
  rw [Tree.pushItem, Array.getElem?_modify] at found
  split at found
  · obtain ⟨old, present, rfl⟩ := Option.map_eq_some_iff.1 found
    obtain ⟨here, items⟩ := traced other old present
    split
    · refine ⟨here, fun declaration member => ?_⟩
      rcases List.mem_append.1 member with before | last
      · exact items declaration before
      · exact new declaration (List.mem_singleton.1 last).symm
    · exact ⟨here, items⟩
  · exact traced other entry found

end Traced

end Tree

end Css

/-! Closures held by scopes -/

/-- The mixins and the functions that a scope holds. -/
def Scope.closures (scope : Scope) : List Closure := scope.mixins.map (·.2) ++ scope.functions.map (·.2)

namespace Bindings

variable {α : Type} {bindings : Bindings α} {name : String} {value other : α}

theorem mem_values_set (member : other ∈ (bindings.set name value).map (·.2)) :
    other = value ∨ other ∈ bindings.map (·.2) := by
  induction bindings with
  | nil => exact .inl (List.mem_singleton.1 member)
  | cons first rest later =>
    rw [Bindings.set] at member
    split at member
    · exact (List.mem_cons.1 member).imp_right (.tail _)
    · rcases List.mem_cons.1 member with rfl | behind
      · exact .inr (.head _)
      · exact (later behind).imp_right (.tail _)

theorem mem_values_of_lookup (found : bindings.lookup name = some value) : value ∈ bindings.map (·.2) := by
  obtain ⟨before, after, rfl, -⟩ := List.lookup_eq_some_iff.1 found
  simp

end Bindings

namespace Scopes

variable {scopes : Scopes} {closure closure' : Closure} {id : Nat} {name : String}

/-- A mixin or a function of one of the scopes. -/
def Holds (scopes : Scopes) (closure : Closure) : Prop :=
  ∃ (id : Nat) (scope : Scope), scopes[id]? = some scope ∧ closure ∈ scope.closures

theorem not_holds_start (closure : Closure) : ¬ start.Holds closure := by
  rintro ⟨id, scope, present, held⟩
  obtain rfl : scope = Scope.empty none false := by simpa [start] using Array.mem_of_getElem? present
  cases held

theorem holds_find? {look : Scope → Option Closure}
    (looked : ∀ scope closure, look scope = some closure → closure ∈ scope.closures)
    (found : scopes.find? id look = some closure) : scopes.Holds closure := by
  obtain ⟨other, -, here⟩ := List.exists_of_findSome?_eq_some found
  obtain ⟨scope, present, holds⟩ := Option.bind_eq_some_iff.1 here
  exact ⟨other, scope, present, looked scope closure holds⟩

theorem holds_mixin? (found : scopes.mixin? id name = some closure) : scopes.Holds closure :=
  holds_find? (fun _ _ held => List.mem_append_left _ (Bindings.mem_values_of_lookup held)) found

theorem holds_function? (found : scopes.function? id name = some closure) : scopes.Holds closure :=
  holds_find? (fun _ _ held => List.mem_append_right _ (Bindings.mem_values_of_lookup held)) found

namespace Holds

/-- A change of one scope adds no closures but those that are allowed. -/
theorem of_modify (allowed : Closure → Prop) {change : Scope → Scope}
    (holds : Scopes.Holds (Array.modify scopes id change) closure)
    (changed : ∀ scope, ∀ closure ∈ (change scope).closures, allowed closure ∨ closure ∈ scope.closures) :
    allowed closure ∨ scopes.Holds closure := by
  obtain ⟨other, scope, present, member⟩ := holds
  rw [Array.getElem?_modify] at present
  split at present
  · obtain ⟨old, found, rfl⟩ := Option.map_eq_some_iff.1 present
    exact (changed old closure member).imp_right fun before => ⟨other, old, found, before⟩
  · exact .inr ⟨other, scope, present, member⟩

theorem of_child {parent : Nat} {semiGlobal : Bool} (holds : (scopes.child parent semiGlobal).2.Holds closure) :
    scopes.Holds closure := by
  obtain ⟨other, scope, present, member⟩ := holds
  rw [child, Array.getElem?_push] at present
  split at present
  · cases present
    cases member
  · exact ⟨other, scope, present, member⟩

theorem of_declare {value : Value} (holds : (scopes.declare id name value).Holds closure) : scopes.Holds closure :=
  (of_modify (fun _ => False) holds fun _ _ member => .inr member).resolve_left nofun

theorem of_assign {value : Value} {isDefault isGlobal : Bool}
    (holds : (scopes.assign id name value isDefault isGlobal).Holds closure) : scopes.Holds closure := by
  unfold assign at holds
  dsimp only at holds
  split at holds
  · split at holds
    · exact holds
    · exact holds.of_declare
  · split at holds
    · exact holds
    · exact holds.of_declare

theorem of_defineMixin (holds : (scopes.defineMixin id closure').Holds closure) :
    closure = closure' ∨ scopes.Holds closure := by
  refine of_modify (· = closure') holds fun scope other member => ?_
  rcases List.mem_append.1 member with among | function
  · exact (Bindings.mem_values_set among).imp_right (List.mem_append_left _)
  · exact .inr (List.mem_append_right _ function)

theorem of_defineFunction (holds : (scopes.defineFunction id closure').Holds closure) :
    closure = closure' ∨ scopes.Holds closure := by
  refine of_modify (· = closure') holds fun scope other member => ?_
  rcases List.mem_append.1 member with mixin | among
  · exact .inr (List.mem_append_left _ mixin)
  · exact (Bindings.mem_values_set among).imp_right (List.mem_append_right _)

end Holds

end Scopes

/-! What a statement writes itself -/

/-- The nodes that a statement makes. -/
def Statement.Makes : Statement → Css.Content → Prop
  | rule .., .rule _ | declaration .., .rule _ => True
  | directive _ name _ (some _), .block made _ | directive _ name _ none, .directive made _ => made = name
  | media .., .block made _ => made = "media"
  | imports .., .directive made _ => made = "import"
  | comment _ text, .comment made => made = text
  | _, _ => False

def Statement.Declares (statement : Statement) (made : Css.Declaration) : Prop :=
  ∃ pos property value nested, statement = .declaration pos property value made.important nested

/-- The statements of a stylesheet are those of its text, read for the file that has its name. -/
def Sheet.IsRead (sheet : Sheet) : Prop :=
  ∃ indented, Statement.parse sheet.source sheet.path indented = .ok sheet.statements

theorem Sheet.IsRead.filedIn {sheet : Sheet} (read : sheet.IsRead) : Statement.FiledIn sheet.path sheet.statements :=
  read.elim fun _ parsed => Statement.filedIn_parse parsed

namespace Evaluation
open Css Evaluator

/-! Stylesheets that are imported are read from their own texts. -/

section Texts

variable {environment : Environment} {before after : State} {path source reference : String} {pos : Position}
  {sheet : Sheet}

theorem isRead_load (yields : Yields (load path source pos) environment before sheet after) : sheet.IsRead := by
  simp only [load, yields_bind, yields_get, and_assoc, exists_and_left, exists_eq_left] at yields
  split at yields
  · exact absurd yields not_yields_failImport
  · simp only [yields_bind, yields_report, exists_eq_left] at yields
    obtain ⟨-, yields⟩ := yields
    split at yields
    · next parsed =>
      obtain ⟨rfl, -⟩ := yields_pure.1 yields
      exact ⟨_, parsed⟩
    · exact absurd yields yields_throw

theorem Means.isRead {importer : Sheet} (means : Means environment importer reference pos sheet) : sheet.IsRead := by
  obtain ⟨_, _, _, _, _, read⟩ := means.loaded
  exact isRead_load read

end Texts

/-- The stylesheets that take part in a compilation: the first one, and those that imports were found to mean. -/
inductive TakesPart (environment : Environment) (root : Sheet) (lookups : List Lookup) : Sheet → Prop
  | root : TakesPart environment root lookups root
  | imported {lookup : Lookup} {sheet : Sheet} (importer : TakesPart environment root lookups lookup.importer)
    (asked : lookup ∈ lookups) (means : Means environment lookup.importer lookup.reference lookup.pos sheet) :
    TakesPart environment root lookups sheet

/-- A statement stands, however deep, in a stylesheet of a name. -/
def StandsIn (environment : Environment) (root : Sheet) (lookups : List Lookup) (file : String)
    (statement : Statement) : Prop :=
  ∃ sheet, TakesPart environment root lookups sheet ∧ sheet.path = file ∧ Statement.Within sheet.statements statement

/-- What has a span was written by a running statement. It stands at the position of the span, in a stylesheet with the
name of the source of the span. -/
structure Origin (environment : Environment) (root : Sheet) (lookups : List Lookup) (tree : Tree) (span : Span)
    (statement : Statement) (running : State) : Prop where
  reached : Reached environment root (.statement statement) running
  earlier : running.tree.Keeps tree
  place : span = ⟨running.source, statement.pos⟩
  stands : ∃ file, pathAt? tree.sources span.source = some file ∧ StandsIn environment root lookups file statement

/-- A node was made by the statement that was running when it became the next one. -/
def NodeOrigin (environment : Environment) (root : Sheet) (lookups : List Lookup) (tree : Tree) (id : Nat)
    (content : Content) (span : Span) : Prop :=
  ∃ statement running, Origin environment root lookups tree span statement running ∧
    running.tree.entries.size = id ∧ statement.Makes content

def DeclarationOrigin (environment : Environment) (root : Sheet) (lookups : List Lookup) (tree : Tree)
    (declaration : Declaration) : Prop :=
  ∃ statement running, Origin environment root lookups tree declaration.span statement running ∧
    statement.Declares declaration

/-- The imports and the tree of a state are there in a later one. -/
structure Remembers (before after : State) : Prop where
  lookups : before.lookups ⊆ after.lookups
  sources : before.tree.sources <+: after.tree.sources
  keeps : before.tree.Keeps after.tree

section Locations

variable {environment : Environment} {root sheet : Sheet} {lookups more : List Lookup}
  {state entered before between after : State} {inner outer task : Task} {leave : State → State} {file : String}
  {statement : Statement} {statements body : List Statement} {span : Span}

namespace Remembers

theorem grown (lookups : after.lookups = before.lookups) (sources : after.tree.sources = before.tree.sources)
    (keeps : before.tree.Keeps after.tree) : Remembers before after :=
  ⟨lookups ▸ List.Subset.refl _, sources ▸ List.prefix_rfl, keeps⟩

theorem still (lookups : after.lookups = before.lookups) (tree : after.tree = before.tree) : Remembers before after :=
  .grown lookups (congrArg Tree.sources tree) (tree ▸ .refl _)

theorem trans (first : Remembers before between) (second : Remembers between after) : Remembers before after :=
  ⟨fun _ member => second.lookups (first.lookups member), first.sources.trans second.sources,
    first.keeps.trans second.keeps⟩

end Remembers

theorem TakesPart.mono (subset : lookups ⊆ more) (takes : TakesPart environment root lookups sheet) :
    TakesPart environment root more sheet := by
  induction takes with
  | root => exact .root
  | imported _ asked means importer => exact .imported importer (subset asked) means

theorem TakesPart.isRead (read : root.IsRead) (takes : TakesPart environment root lookups sheet) : sheet.IsRead := by
  cases takes with
  | root => exact read
  | imported _ _ means => exact means.isRead

theorem StandsIn.mono (subset : lookups ⊆ more) (stands : StandsIn environment root lookups file statement) :
    StandsIn environment root more file statement := by
  obtain ⟨sheet, takes, rest⟩ := stands
  exact ⟨sheet, takes.mono subset, rest⟩

theorem Origin.mono {running : State}
    (origin : Origin environment root before.lookups before.tree span statement running)
    (remembers : Remembers before after) : Origin environment root after.lookups after.tree span statement running := by
  obtain ⟨file, known, stands⟩ := origin.stands
  exact ⟨origin.reached, origin.earlier.trans remembers.keeps, origin.place, file,
    pathAt?_of_prefix remembers.sources known, stands.mono remembers.lookups⟩

variable (environment root)

/-- Statements of a file that is a source of the tree. -/
def WrittenIn (state : State) (file : String) (statements : List Statement) : Prop :=
  (∃ source, pathAt? state.tree.sources source = some file) ∧
    ∀ statement ∈ statements, StandsIn environment root state.lookups file statement

/-- What a task runs is written in the file that it is run for. -/
def Task.Known (state : State) : Task → Prop
  | .expression => True
  | .call function => WrittenIn environment root state function.callable.file function.callable.body
  | .inclusion mixin handed => WrittenIn environment root state mixin.callable.file mixin.callable.body ∧
      ∀ block ∈ handed, WrittenIn environment root state block.file block.body
  | .block statements => WrittenIn environment root state state.file statements
  | .statement statement => WrittenIn environment root state state.file [statement]

/-- The number of the current source stands for the current file. What may still be run from elsewhere is known with its
file, and everything in the tree with its origin. -/
structure Located (state : State) : Prop where
  here : pathAt? state.tree.sources state.source = some state.file
  sheet : TakesPart environment root state.lookups state.sheet
  closures : ∀ closure, state.scopes.Holds closure →
    WrittenIn environment root state closure.callable.file closure.callable.body
  content : ∀ handed ∈ state.content, ∀ block ∈ handed, WrittenIn environment root state block.file block.body
  traced : state.tree.Traced (NodeOrigin environment root state.lookups state.tree)
    (DeclarationOrigin environment root state.lookups state.tree)

variable {environment root}

theorem WrittenIn.mono (known : WrittenIn environment root before file statements)
    (remembers : Remembers before after) : WrittenIn environment root after file statements := by
  obtain ⟨⟨source, found⟩, stand⟩ := known
  exact ⟨⟨source, pathAt?_of_prefix remembers.sources found⟩, fun statement member =>
    (stand statement member).mono remembers.lookups⟩

theorem WrittenIn.one (known : WrittenIn environment root state file statements) (member : statement ∈ statements) :
    WrittenIn environment root state file [statement] :=
  ⟨known.1, List.forall_mem_singleton.2 (known.2 statement member)⟩

theorem WrittenIn.stands (known : WrittenIn environment root state file [statement]) :
    StandsIn environment root state.lookups file statement := known.2 statement (.head _)

/-- What stands in a statement is written in the same file. -/
theorem WrittenIn.block (known : WrittenIn environment root state file [statement]) (member : body ∈ statement.blocks) :
    WrittenIn environment root state file body := by
  obtain ⟨sheet, takes, path, within⟩ := known.stands
  exact ⟨known.1, fun inner inside => ⟨sheet, takes, path, within.deeper member inside⟩⟩

theorem Task.Known.mono (known : task.Known environment root before) (remembers : Remembers before after)
    (file : after.file = before.file) : task.Known environment root after := by
  cases task with
  | expression => trivial
  | call function => exact WrittenIn.mono known remembers
  | inclusion mixin block =>
    obtain ⟨body, handed⟩ := known
    exact ⟨body.mono remembers, fun block member => (handed block member).mono remembers⟩
  | block statements | statement statement =>
    rw [Task.Known, file]
    exact WrittenIn.mono known remembers

namespace Located

/-- What has been written keeps its origin. -/
theorem traced_later (located : Located environment root before) (remembers : Remembers before after) :
    before.tree.Traced (NodeOrigin environment root after.lookups after.tree)
      (DeclarationOrigin environment root after.lookups after.tree) := by
  refine located.traced.mono rfl (fun id content span => ?_) fun declaration => ?_
  · rintro ⟨statement, running, origin, rest⟩
    exact ⟨statement, running, origin.mono remembers, rest⟩
  · rintro ⟨statement, running, origin, rest⟩
    exact ⟨statement, running, origin.mono remembers, rest⟩

/-- Behind imports nothing is in another place. -/
theorem remembered (located : Located environment root before) (remembers : Remembers before after)
    (here : pathAt? after.tree.sources after.source = some after.file)
    (sheet : TakesPart environment root after.lookups after.sheet) (scopes : after.scopes = before.scopes)
    (content : after.content = before.content) (entries : after.tree.entries = before.tree.entries) :
    Located environment root after where
  here := here
  sheet := sheet
  closures closure holds := (located.closures closure (scopes ▸ holds)).mono remembers
  content handed member block here := (located.content handed (content ▸ member) block here).mono remembers
  traced := (located.traced_later remembers).mono entries (fun _ _ _ here => here) fun _ here => here

/-- What a running statement writes has its span. -/
theorem origin (located : Located environment root state)
    (reached : Reached environment root (.statement statement) state)
    (known : (Task.statement statement).Known environment root state) :
    Origin environment root state.lookups state.tree ⟨state.source, statement.pos⟩ statement state :=
  ⟨reached, .refl _, rfl, state.file, located.here, known.stands⟩

theorem pushed (located : Located environment root state)
    (reached : Reached environment root (.statement statement) state)
    (known : (Task.statement statement).Known environment root state) (holder : Option Nat) (content : Content)
    (makes : statement.Makes content) :
    Located environment root { state with tree := state.pushed holder content statement.pos } ∧
      Remembers state { state with tree := state.pushed holder content statement.pos } := by
  have remembers : Remembers state { state with tree := state.pushed holder content statement.pos } :=
    .grown rfl rfl (Tree.keeps_push _ _ _ _ _)
  have new := (located.origin reached known).mono remembers
  have traced := (located.traced_later remembers).push ⟨statement, state, new, rfl, makes⟩ holder state.place.depth
  exact ⟨{ located with traced }, remembers⟩

theorem pushedItem (located : Located environment root state)
    (reached : Reached environment root (.statement statement) state)
    (known : (Task.statement statement).Known environment root state) (id : Nat) (item : Item)
    (made : ∀ declaration, item = .declaration declaration →
      statement.Declares declaration ∧ declaration.span = ⟨state.source, statement.pos⟩) :
    Located environment root { state with tree := state.tree.pushItem id item } ∧
      Remembers state { state with tree := state.tree.pushItem id item } := by
  have remembers : Remembers state { state with tree := state.tree.pushItem id item } :=
    .grown rfl rfl (Tree.keeps_pushItem _ _ _)
  have new := (located.origin reached known).mono remembers
  have traced := (located.traced_later remembers).pushItem id item fun declaration same => by
    obtain ⟨declares, span⟩ := made declaration same
    exact ⟨statement, state, span ▸ new, declares⟩
  exact ⟨{ located with traced }, remembers⟩

theorem newScope (located : Located environment root state) (parent : Nat) (semiGlobal : Bool) :
    Located environment root { state with scopes := (state.scopes.child parent semiGlobal).2 } :=
  { located with closures := fun closure holds => located.closures closure holds.of_child }

/-- What was written in a known file may run from anywhere. -/
theorem within (located : Located environment root state) (known : WrittenIn environment root state file statements)
    (scope : Nat) : Located environment root (state.within file scope) :=
  { located with here := Tree.pathAt?_getD_sourceIndex? known.1.choose_spec _ }

end Located

/-- What a task makes begins in its own file. -/
theorem Opens.located (opens : Opens environment inner outer state entered leave)
    (reached : Reached environment root outer state) (located : Located environment root state)
    (known : outer.Known environment root state) :
    Located environment root entered ∧ inner.Known environment root entered ∧ Remembers state entered := by
  cases opens with
  | expression => exact ⟨located, trivial, .still rfl rfl⟩
  | default => exact ⟨{ located with }, trivial, .still rfl rfl⟩
  | call found => exact ⟨located, located.closures _ (Scopes.holds_function? found), .still rfl rfl⟩
  | function _ function scope => exact ⟨{ located.within known scope with }, known, .still rfl rfl⟩
  | statement _ member => exact ⟨{ located with }, WrittenIn.one known member, .still rfl rfl⟩
  | @choice statement body _ scope member =>
    exact ⟨{ located with }, WrittenIn.block known (statement.choices_subset member), .still rfl rfl⟩
  | rule selectors outside =>
    obtain ⟨pushed, remembers⟩ := located.pushed reached known state.place.container (.rule selectors) trivial
    exact ⟨{ pushed.newScope _ _ with }, (WrittenIn.block known (.head _)).mono { remembers with }, { remembers with }⟩
  | property name outside => exact ⟨{ located with }, WrittenIn.block known (.head _), .still rfl rfl⟩
  | @directive _ pos name template body parameters outside =>
    obtain ⟨pushed, remembers⟩ := located.pushed reached known state.place.container (.block name parameters) rfl
    exact ⟨{ pushed.newScope _ _ with }, (WrittenIn.block known (.head _)).mono { remembers with }, { remembers with }⟩
  | media words outside =>
    obtain ⟨pushed, remembers⟩ := located.pushed reached known (joinedMedia state.place words).2
      (.block "media" (joinedMedia state.place words).1) rfl
    exact ⟨{ pushed.newScope _ _ with }, (WrittenIn.block known (.head _)).mono { remembers with }, { remembers with }⟩
  | @inclusion _ pos name arguments content mixin found outside =>
    refine ⟨located, ⟨located.closures mixin (Scopes.holds_mixin? found), fun block handed => ?_⟩, .still rfl rfl⟩
    obtain ⟨body, rfl, rfl⟩ := Option.map_eq_some_iff.1 handed
    exact WrittenIn.block known (.head _)
  | mixin _ mixin block scope =>
    obtain ⟨body, handed⟩ := known
    have content := List.forall_mem_cons.2 ⟨handed, located.content⟩
    exact ⟨{ located.within body scope with content }, body, .still rfl rfl⟩
  | @content _ pos block outer handed =>
    obtain ⟨here, content⟩ := List.forall_mem_cons.1 (handed ▸ located.content)
    have body := here block rfl
    exact ⟨{ (located.newScope block.scope false).within body state.scopes.size with content }, body, .still rfl rfl⟩
  | @sheet _ pos place targets reference sheet target asked means =>
    have takes : TakesPart environment root state.lookups sheet := .imported located.sheet asked means
    have remembers : Remembers state (state.inSheet sheet) :=
      ⟨List.Subset.refl _, Tree.sources_addSource _ _ _, Tree.keeps_addSource _ _ _⟩
    have here := Tree.pathAt?_addSource state.tree sheet.path sheet.source
    have entries := Tree.entries_addSource state.tree sheet.path sheet.source
    exact ⟨located.remembered remembers here takes rfl rfl entries,
      ⟨⟨_, here⟩, fun statement member => ⟨sheet, takes, rfl, .here member⟩⟩, remembers⟩

theorem Opens.remembers_leave (opens : Opens environment inner outer state entered leave) (after : State) :
    Remembers after (leave after) :=
  .still (opens.leave_lookups after) (opens.leave_tree after)

/-- Behind a task it goes on where it was before. -/
theorem Opens.located_leave (opens : Opens environment inner outer state entered leave)
    (located : Located environment root state) (remembers : Remembers state after)
    (inside : Located environment root after) : Located environment root (leave after) := by
  have here := pathAt?_of_prefix remembers.sources located.here
  cases opens with
  | mixin =>
    exact { inside with here, content := fun handed member => inside.content handed (List.mem_of_mem_tail member) }
  | @content _ pos block outer handed =>
    obtain ⟨here', -⟩ := List.forall_mem_cons.1 (handed ▸ located.content)
    have content := List.forall_mem_cons.2 ⟨fun block same => (here' block same).mono remembers, inside.content⟩
    exact { inside with here, content }
  | sheet => exact { inside with here, sheet := located.sheet.mono remembers.lookups }
  | function => exact { inside with here }
  | expression | call | inclusion => exact inside
  | _ => exact { inside with }

/-- Behind a task, whether it fails or not, the file is the one before it. -/
theorem Performs.same_file (performs : Performs environment task before after)
    (reached : Reached environment root task before) : after.file = before.file :=
  (performs.leads.returns reached.reachable.anchored).context.file

/-- A definition that stands in a file carries its name. -/
theorem StandsIn.file_eq (read : root.IsRead) (stands : StandsIn environment root lookups file statement)
    {callable : Callable Statement} (defines : statement.definition? = some callable) : callable.file = file := by
  obtain ⟨sheet, takes, rfl, within⟩ := stands
  exact (takes.isRead read).filedIn statement within callable defines

/-- What a running statement defines is written in its own file. -/
theorem Located.defines (located : Located environment root state) (read : root.IsRead)
    (known : (Task.statement statement).Known environment root state) {callable : Callable Statement}
    (defines : statement.definition? = some callable) (inside : callable.body ∈ statement.blocks) {scopes : Scopes}
    {scope : Nat} (held : ∀ closure, scopes.Holds closure → closure = ⟨callable, scope⟩ ∨ state.scopes.Holds closure) :
    Located environment root { state with scopes } := by
  refine { located with closures := fun closure holds => ?_ }
  rcases held closure holds with rfl | before
  · have body : WrittenIn environment root state callable.file callable.body := by
      rw [known.stands.file_eq read defines]
      exact WrittenIn.block known inside
    exact body
  · exact located.closures closure before

/-- By induction on what is done: nothing is written or defined but by what is running, in its own file. -/
theorem Performs.located (read : root.IsRead) (performs : Performs environment task before after) :
    Reached environment root task before → Located environment root before → task.Known environment root before →
      Located environment root after ∧ Remembers before after := by
  induction performs with
  | refl => exact fun _ located _ => ⟨located, .still rfl rfl⟩
  | trans first _ one two =>
    intro reached located known
    obtain ⟨between, remembers⟩ := one reached located known
    obtain ⟨last, later⟩ := two (.performs reached first) between (known.mono remembers (first.same_file reached))
    exact ⟨last, remembers.trans later⟩
  | inside opens performs inside =>
    intro reached located known
    obtain ⟨entered, inner, remembers⟩ := opens.located reached located known
    obtain ⟨last, later⟩ := inside (.opens reached opens) entered inner
    have remembers := remembers.trans later
    exact ⟨opens.located_leave located remembers last, remembers.trans (opens.remembers_leave _)⟩
  | report => exact fun _ located _ => ⟨{ located with }, .still rfl rfl⟩
  | newScope => exact fun _ located _ => ⟨located.newScope _ _, .still rfl rfl⟩
  | declare =>
    intro _ located _
    exact ⟨{ located with closures := fun closure holds => located.closures closure holds.of_declare }, .still rfl rfl⟩
  | assign =>
    intro _ located _
    exact ⟨{ located with closures := fun closure holds => located.closures closure holds.of_assign }, .still rfl rfl⟩
  | defineMixin =>
    intro _ located known
    exact ⟨located.defines read known rfl (.head _) fun _ holds => holds.of_defineMixin, .still rfl rfl⟩
  | defineFunction =>
    intro _ located known
    exact ⟨located.defines read known rfl (.head _) fun _ holds => holds.of_defineFunction, .still rfl rfl⟩
  | @lookup _ place _ reference state target =>
    intro _ located _
    have remembers : Remembers state (state.asking reference place) :=
      ⟨List.subset_cons_self _ _, List.prefix_rfl, .refl _⟩
    have sheet := located.sheet.mono remembers.lookups
    exact ⟨located.remembered remembers located.here sheet rfl rfl rfl, remembers⟩
  | browser state parameters => exact fun reached located known => located.pushed reached known _ _ rfl
  | directive parameters outside => exact fun reached located known => located.pushed reached known _ _ rfl
  | comment outside missing => exact fun reached located known => located.pushed reached known _ _ rfl
  | commentItem outside current => exact fun reached located known => located.pushedItem reached known _ _ nofun
  | @target state _ _ _ _ _ selectors outside missing found =>
    intro reached located known
    obtain ⟨pushed, remembers⟩ := located.pushed reached known state.place.container (.rule selectors) trivial
    exact ⟨{ pushed with }, { remembers with }⟩
  | declaration name outside receives shown =>
    intro reached located known
    refine located.pushedItem reached known _ _ fun declaration same => ?_
    cases same
    exact ⟨⟨_, _, _, _, rfl⟩, rfl⟩

/-- By induction on the course of an evaluation. -/
theorem Reached.located (read : root.IsRead) (reached : Reached environment root task state) :
    Located environment root state ∧ task.Known environment root state := by
  induction reached with
  | start =>
    have here := Tree.pathAt?_addSource .empty root.path root.source
    refine ⟨⟨here, .root, ?_, nofun, ?_⟩, ⟨_, here⟩, fun statement member => ⟨root, .root, rfl, .here member⟩⟩
    · exact fun closure holds => absurd holds (Scopes.not_holds_start closure)
    · have entries := Tree.entries_addSource .empty root.path root.source
      exact Tree.Traced.empty.mono entries (fun _ _ _ here => here) fun _ here => here
  | performs reached performs ih =>
    obtain ⟨located, known⟩ := ih
    obtain ⟨last, remembers⟩ := performs.located read reached located known
    exact ⟨last, known.mono remembers (performs.same_file reached)⟩
  | opens reached opens ih =>
    obtain ⟨located, known⟩ := ih
    obtain ⟨entered, inner, -⟩ := opens.located reached located known
    exact ⟨entered, inner⟩

/-- In every state that an evaluation may come through, the current file is the one that the number of the current
source stands for. The span of every node and of every declaration gives the position of the statement that was running
when it was written, and the name of a stylesheet that takes part in the compilation and in which this statement stands,
wherever the mixin or the block that it stands in was used. -/
theorem spans_name_files (read : root.IsRead) (reached : Reached environment root task state) :
    pathAt? state.tree.sources state.source = some state.file ∧
      (∀ id entry, state.tree.entries[id]? = some entry →
        NodeOrigin environment root state.lookups state.tree id entry.content entry.span) ∧
      ∀ entry ∈ state.tree.entries, ∀ declaration, .declaration declaration ∈ entry.items →
        DeclarationOrigin environment root state.lookups state.tree declaration := by
  obtain ⟨located, -⟩ := reached.located read
  refine ⟨located.here, fun id entry found => (located.traced id entry found).1, fun entry member => ?_⟩
  obtain ⟨id, found⟩ := Array.mem_iff_getElem?.1 member
  exact (located.traced id entry found).2

end Locations

/-- A hook knows a mixin that puts the block handed to it in a rule. -/
def wrappingEnvironment : Environment :=
  { plainEnvironment with
    search.hook := some fun reference _ => .accepted reference "@mixin m\x7bd:e;f\x7b@content;\x7d\x7d" none }

def wrappingText : String := "@import 'm';a\x7b@include m\x7bb:c\x7d\x7d"

def wrappingSheet : Sheet :=
  { path := "stdin", source := wrappingText, directory := none, chain := ["stdin"]
    statements := statementsOf wrappingText "stdin" }

def spansOf (tree : Tree) : List (Span × List Span) :=
  tree.entries.toList.map fun entry => (entry.span, entry.items.filterMap fun
    | .declaration declaration => some declaration.span
    | .comment _ => none)

/-- The outer rule and the declaration in the block are written in the first file, the inner rule and the declaration
before it in the mixin. -/
theorem spans_name_files_wrapping :
    let after := (evaluate wrappingEnvironment wrappingSheet).2
    wrappingSheet.IsRead ∧ Reached wrappingEnvironment wrappingSheet (.block wrappingSheet.statements) after ∧
      after.tree.sources.map (·.path) = ["stdin", "m"] ∧
      spansOf after.tree = [(⟨0, 1, 13⟩, [⟨1, 1, 10⟩]), (⟨1, 1, 14⟩, [⟨0, 1, 26⟩])] ∧
      ∀ id entry, after.tree.entries[id]? = some entry →
        NodeOrigin wrappingEnvironment wrappingSheet after.lookups after.tree id entry.content entry.span ∧
          ∀ declaration, .declaration declaration ∈ entry.items →
            DeclarationOrigin wrappingEnvironment wrappingSheet after.lookups after.tree declaration := by
  have read : wrappingSheet.IsRead := ⟨false, parse_eq_ok (by decide +kernel)⟩
  have reached := reached_evaluate wrappingEnvironment wrappingSheet
  obtain ⟨-, nodes, declarations⟩ := spans_name_files read reached
  exact ⟨read, reached, by decide +kernel, by decide +kernel, fun id entry found =>
    ⟨nodes id entry found, declarations entry (Array.mem_of_getElem? found)⟩⟩

end Evaluation

end Stylesheet
