import Stylesheet.Proofs.Context

/-! Functions and what is written. Where an expression is evaluated, or where a function is running, all statements that
write are refused or left out, but for imports: one that is left to the browser is written by functions, too. So an
expression adds import directives to the tree, and nothing else. -/

namespace Stylesheet

namespace Css

def Entry.isImport (entry : Entry) : Bool :=
  match entry.content with
  | .directive name _ => name == "import"
  | _ => false

/-- The number of imports that are left to the browser. -/
def Tree.importCount (tree : Tree) : Nat := tree.entries.countP Entry.isImport

/-- A tree has new nodes behind all others. They are imports and hold nothing. -/
def Tree.GainsImports (before after : Tree) : Prop :=
  ∃ written, after.entries = before.entries ++ written ∧ ∀ entry ∈ written, entry.isImport = true ∧ entry.items = []

namespace Tree.GainsImports

variable {before between after : Tree}

theorem same (entries : after.entries = before.entries) : before.GainsImports after := ⟨#[], by simp [entries], nofun⟩

theorem trans (first : before.GainsImports between) (second : between.GainsImports after) :
    before.GainsImports after := by
  obtain ⟨earlier, entries, imports⟩ := first
  obtain ⟨later, entries', imports'⟩ := second
  refine ⟨earlier ++ later, by rw [entries', entries, Array.append_assoc], fun entry member => ?_⟩
  exact (Array.mem_append.1 member).elim (imports entry) (imports' entry)

theorem pushImport (tree : Tree) (holder : Option Nat) (parameters : String) (depth : Nat) (span : Span) :
    tree.GainsImports (tree.push holder (.directive "import" parameters) depth span).2 :=
  ⟨#[_], Array.push_eq_append, fun entry member => by cases Array.mem_singleton.1 member; exact ⟨rfl, rfl⟩⟩

/-- Nothing is gained just where no import is. -/
theorem entries_eq_iff (gains : before.GainsImports after) :
    after.entries = before.entries ↔ after.importCount = before.importCount := by
  obtain ⟨written, entries, imports⟩ := gains
  have all : written.countP Entry.isImport = written.size :=
    Array.countP_eq_size.2 fun entry member => (imports entry member).1
  rw [Tree.importCount, Tree.importCount, entries, Array.countP_append, all]
  constructor
  · intro unchanged
    have sizes := congrArg Array.size unchanged
    rw [Array.size_append] at sizes
    omega
  · intro counted
    have none : written = #[] := Array.eq_empty_of_size_eq_zero (by omega)
    rw [none, Array.append_empty]

end Tree.GainsImports

end Css

namespace Evaluation
open Css.Tree

variable {inner outer part : Part} {before after state entered : State} {leave : State → State}

/-- Where nothing but imports is written: in an expression, and while a function is running. -/
def Part.Silent (part : Part) (state : State) : Prop := part = .expression ∨ 0 < state.functionDepth

/-- What is inside of such a part is one, and it begins with the same nodes. -/
theorem Enters.silent (enters : Enters inner outer state entered leave) (silent : outer.Silent state) :
    inner.Silent entered ∧ state.tree.GainsImports entered.tree := by
  have inFunction (outside : state.functionDepth = 0) (depth : 0 < state.functionDepth) : False := by omega
  cases enters with
  | inScope | inFile => exact ⟨silent, .same rfl⟩
  | inFunction => exact ⟨.inr (Nat.succ_pos _), .same rfl⟩
  | inRule _ _ outside | inDirective _ _ _ outside | inMedia _ _ outside | inProperty _ outside =>
    exact (silent.elim nofun (inFunction outside)).elim
  | withContent | content | atStatement => exact ⟨.inr (silent.resolve_left nofun), .same rfl⟩
  | inSheet state sheet =>
    exact ⟨.inr (silent.resolve_left nofun), .same (entries_addSource state.tree sheet.path sheet.source)⟩

/-- By induction on the course: all but an import asks for a statement outside of functions. -/
theorem Leads.gainsImports (leads : Leads part before after) (silent : part.Silent before) :
    before.tree.GainsImports after.tree := by
  have inFunction {state : State} (outside : state.functionDepth = 0) (silent : Part.Silent .statement state) :
      False := by
    have depth := silent.resolve_left nofun
    omega
  induction leads with
  | trans first _ one two => exact (one silent).trans (two (silent.imp_right (first.functionDepth ▸ ·)))
  | expression _ inside => exact inside (.inl rfl)
  | inside enters _ inside =>
    obtain ⟨deeper, begun⟩ := enters.silent silent
    rw [Returns.leave_tree enters]
    exact begun.trans (inside deeper)
  | directive state name parameters pos allowed =>
    obtain rfl := allowed.resolve_left fun outside => inFunction outside silent
    exact .pushImport _ _ _ _ _
  | comment _ _ outside | item _ outside | rule _ outside => exact (inFunction outside silent).elim
  | _ => exact .same rfl

/-- Whatever functions an expression calls, and whether it fails or not, all nodes stay as they were, and the nodes that
come behind them are imports. They are all there is just if no import is among what was written: an import left to the
browser is not refused in functions, as everything else that writes is. -/
theorem expression_writes_imports (environment : Environment) (depth : Nat) (expr : Expr) (before : State) :
    let after := (((evaluator depth).eval expr).outcome environment before).2
    (∃ written, after.tree.entries = before.tree.entries ++ written ∧
      ∀ entry ∈ written, entry.isImport = true ∧ entry.items = []) ∧
    (after.tree.entries = before.tree.entries ↔ after.tree.importCount = before.tree.importCount) := by
  have gains := ((guided_evaluator depth).eval expr environment before).gainsImports (.inl rfl)
  exact ⟨gains, gains.entries_eq_iff⟩

/-- A function imports a style sheet for the browser, and a declaration calls it. -/
def importingSheet : Sheet where
  path := "stdin"
  source := "@function f() \x7b @import \"x.css\"; @return 1; \x7d a \x7b b: f(); \x7d"
  directory := none
  chain := ["stdin"]
  statements :=
    [.function ⟨1, 1⟩ ⟨"f", [], none,
        [.imports ⟨1, 17⟩ [.sheet "x.css" ⟨1, 25⟩], .result ⟨1, 34⟩ (.literal (.number ⟨1, .none⟩))], "stdin"⟩,
      .rule ⟨1, 47⟩ [.text "a"]
        [.declaration ⟨1, 51⟩ [.text "b"] (some (.call "f" .none ⟨1, 54⟩)) false []]]

/-- The value of the declaration is found, and the import has been written. -/
theorem function_writes_import : ∃ state,
    Reached plainEnvironment importingSheet .expression state ∧
      let (result, after) := ((evaluator 8).eval (.call "f" .none ⟨1, 54⟩)).outcome plainEnvironment state
      result.isOk = true ∧ state.tree.entries.size = 1 ∧ after.tree.entries.size = 2 := by
  have begun : Reached plainEnvironment importingSheet (.block importingSheet.statements) _ := .start
  have defined := begun.performs (.inside (.statement _ (.head _)) (.defineFunction _))
  have rule := Reached.opens defined (.statement _ (.tail _ (.head _)))
  have declaration := Reached.opens (.opens rule (.rule (Selectors.parse "a") rfl)) (.statement _ (.head _))
  exact ⟨_, .opens declaration (.expression _ _), by decide +kernel⟩

end Evaluation

end Stylesheet
