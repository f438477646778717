import Stylesheet.Compiler
import Stylesheet.Proofs.Holding
import Stylesheet.Proofs.Wording

/-! What has been evaluated can be written. Whether a value has a place in CSS does not depend on how it is written, and
a declaration is checked for it before it goes to the tree. So the writer meets no value that it has to refuse, and a
compilation that fails has failed before. -/

namespace Stylesheet

namespace Value

mutual

/-- Whether a value has a place in CSS. -/
def hasCss : Value → Bool
  | number n => n.unit.single?.isSome || n.isUnitless
  | list items _ bracketed => (bracketed || !items.isEmpty) && itemsHaveCss items
  | map _ => false
  | null | bool _ | color _ | string _ _ | error _ | warning _ => true

def itemsHaveCss : List Value → Bool
  | [] => true
  | item :: rest => item.hasCss && itemsHaveCss rest

end

mutual

/-- Neither the number of digits nor the compression decides about it. -/
theorem isOk_css (places : Nat) (compressed : Bool) : (value : Value) → (value.css places compressed).isOk = value.hasCss
  | null | bool _ | color _ | string _ _ | map _ | error _ | warning _ => rfl
  | number n => by
    rw [css, numberCss, hasCss]
    cases n.unit.single? <;> cases n.isUnitless <;> rfl
  | list items separator bracketed => by
    have each := isOk_cssItems places compressed items
    rw [css, hasCss, ← each]
    cases items.isEmpty <;> cases bracketed <;> cases cssItems places compressed items <;> rfl

theorem isOk_cssItems (places : Nat) (compressed : Bool) : (items : List Value) →
    (cssItems places compressed items).isOk = itemsHaveCss items
  | [] => rfl
  | item :: rest => by
    rw [cssItems, itemsHaveCss, ← isOk_css places compressed item, ← isOk_cssItems places compressed rest]
    cases item.css places compressed <;> cases cssItems places compressed rest <;> rfl

end

theorem hasCss_of_css {value : Value} {places : Nat} {compressed : Bool} {text : String}
    (shown : value.css places compressed = .ok text) : value.hasCss = true := by
  rw [← isOk_css places compressed, shown]
  rfl

theorem exists_css {value : Value} (has : value.hasCss = true) (places : Nat) (compressed : Bool) :
    ∃ text, value.css places compressed = .ok text := by
  rw [← isOk_css places compressed] at has
  cases shown : value.css places compressed with
  | ok text => exact ⟨text, rfl⟩
  | error error =>
    rw [shown] at has
    cases has

end Value

namespace Css

def Item.hasCss : Item → Bool
  | .declaration shown => shown.value.hasCss
  | .comment _ => true

/-- All that stands in a node has a place in CSS. -/
def Entry.IsWritable (entry : Entry) : Prop := ∀ item ∈ entry.items, item.hasCss = true

def Tree.IsWritable (tree : Tree) : Prop := ∀ entry ∈ tree.entries, entry.IsWritable

namespace Format

variable {format : Format}

theorem writeItem_ok (level : Nat) {item : Item} (has : item.hasCss = true) (output : Output) :
    ∃ written, format.writeItem level item output = .ok written := by
  cases item with
  | declaration declaration =>
    obtain ⟨text, shown⟩ := Value.exists_css has format.places format.isCompressed
    exact ⟨_, by rw [writeItem, shown]⟩
  | comment comment =>
    rw [writeItem]
    split <;> exact ⟨_, rfl⟩

theorem writeItems_ok (level : Nat) {items : List Item} (has : ∀ item ∈ items, item.hasCss = true) (output : Output) :
    ∃ written, format.writeItems level items output = .ok written := by
  induction items generalizing output with
  | nil => exact ⟨output, rfl⟩
  | cons item rest tail =>
    obtain ⟨here, later⟩ := List.forall_mem_cons.1 has
    obtain ⟨between, first⟩ := writeItem_ok level here output
    obtain ⟨written, last⟩ := tail later between
    rw [writeItems, List.foldlM_cons, first]
    exact ⟨written, last⟩

variable {sources : List Source}

mutual

theorem writeNode_ok (level : Nat) : (node : Node) → (∀ entry ∈ node.entries, entry.IsWritable) → (output : Output) →
    ∃ written, format.writeNode sources level node output = .ok written
  | .node entry children, writable, output => by
    rw [Node.entries] at writable
    obtain ⟨here, below⟩ := List.forall_mem_cons.1 writable
    cases content : entry.content with
    | directive | comment =>
      simp only [writeNode, content]
      exact ⟨_, rfl⟩
    | rule selectors =>
      simp only [writeNode, content]
      generalize format.openBrace _ = opened
      obtain ⟨filled, run⟩ := writeItems_ok _ here opened
      rw [run]
      exact ⟨_, rfl⟩
    | block name parameters =>
      rw [format.writeNode_block content]
      generalize format.openBrace _ = opened
      obtain ⟨filled, run⟩ := writeItems_ok _ here opened
      rw [run]
      change ∃ written, ((if format.showsAny children = true then _ else _) >>= _) = _
      split
      · obtain ⟨last, nodes⟩ := writeNodes_ok (level + 1) false children below
          (format.beforeNodes (entry.items.any format.showsItem) filled)
        rw [nodes]
        exact ⟨_, rfl⟩
      · exact ⟨_, rfl⟩

theorem writeNodes_ok (level : Nat) (group : Bool) : (nodes : List Node) →
    (∀ entry ∈ Node.allEntries nodes, entry.IsWritable) → (output : Output) →
    ∃ written, format.writeNodes sources level group nodes output = .ok written
  | [], _, output => ⟨output, rfl⟩
  | node :: rest, writable, output => by
    rw [Node.allEntries] at writable
    obtain ⟨here, later⟩ := List.forall_mem_append.1 writable
    rw [writeNodes]
    dsimp only
    split
    · obtain ⟨between, first⟩ := writeNode_ok level node here
        (if group && format.startsGroup level node.entry then format.newline output else output)
      obtain ⟨written, last⟩ := writeNodes_ok level (isGroup node.entry) rest later between
      refine ⟨written, ?_⟩
      rw [first]
      exact last
    · exact writeNodes_ok level group rest later output

end

end Format

namespace Tree

variable {tree : Tree}

theorem IsWritable.push (writable : tree.IsWritable) (holder : Option Nat) (content : Content) (depth : Nat)
    (span : Span) : (tree.push holder content depth span).2.IsWritable := by
  intro entry member
  rcases Array.mem_push.1 member with old | rfl
  · exact writable entry old
  · exact nofun

theorem IsWritable.pushItem (writable : tree.IsWritable) (id : Nat) {item : Item} (has : item.hasCss = true) :
    (tree.pushItem id item).IsWritable := by
  intro entry member
  obtain ⟨i, here⟩ := Array.mem_iff_getElem?.1 member
  simp only [Tree.pushItem, Array.getElem?_modify] at here
  split at here
  · obtain ⟨old, found, rfl⟩ := Option.map_eq_some_iff.1 here
    have before := writable old (Array.mem_of_getElem? found)
    split
    · exact List.forall_mem_append.2 ⟨before, List.forall_mem_singleton.2 has⟩
    · exact before
  · exact writable entry (Array.mem_of_getElem? here)

theorem IsWritable.addSource (writable : tree.IsWritable) (path text : String) :
    (tree.addSource path text).2.IsWritable := by
  unfold Tree.addSource
  split <;> exact writable

theorem IsWritable.exists_write (writable : tree.IsWritable) (format : Format) :
    ∃ written, tree.write format = .ok written := by
  have shown : ∀ entry ∈ Node.allEntries tree.forest, entry.IsWritable := by
    intro entry member
    rw [forest, allEntries_nodesIn] at member
    obtain ⟨id, -, found⟩ := List.mem_filterMap.1 member
    exact writable entry (Array.mem_of_getElem? found)
  obtain ⟨output, run⟩ := format.writeNodes_ok 0 false tree.forest shown Output.empty
  exact ⟨_, by rw [write, run]; rfl⟩

end Tree

end Css

namespace Evaluation

variable {environment : Environment} {inner outer task : Task} {state entered before after : State}
  {leave : State → State}

theorem Opens.writable (opens : Opens environment inner outer state entered leave) (writable : state.tree.IsWritable) :
    entered.tree.IsWritable := by
  cases opens with
  | rule | directive | media => exact writable.push _ _ _ _
  | sheet => exact writable.addSource _ _
  | _ => exact writable

/-- By induction on what is done: only checked values go to the tree. -/
theorem Performs.writable (performs : Performs environment task before after) (writable : before.tree.IsWritable) :
    after.tree.IsWritable := by
  induction performs with
  | trans _ _ first second => exact second (first writable)
  | inside opens _ inside =>
    rw [opens.leave_tree]
    exact inside (opens.writable writable)
  | browser | directive | comment | target => exact writable.push _ _ _ _
  | commentItem => exact writable.pushItem _ rfl
  | declaration name outside receives shown => exact writable.pushItem _ (Value.hasCss_of_css shown)
  | _ => exact writable

theorem writable_evaluate (environment : Environment) (sheet : Sheet) :
    (evaluate environment sheet).2.tree.IsWritable := by
  have empty : Css.Tree.empty.IsWritable := fun entry member => absurd member (Array.not_mem_empty entry)
  have start : (State.start sheet).tree.IsWritable := empty.addSource sheet.path sheet.source
  exact (performs_evaluate environment sheet).writable start

end Evaluation

/-- A failure is told and the compilation ends with it in a stage. -/
def Outcome.FailsIn (outcome : Outcome) (stage : Stage) : Prop :=
  ∃ failure log, outcome.result = .error failure ∧ outcome.log = log ++ [.failure failure.message, .stage stage .failed]

/-- Values are refused by the writer in all styles or in none, and what has been evaluated is written in every format.
So a stylesheet that cannot be compiled is refused while it is parsed or evaluated, but never while it is written. -/
theorem writing_never_fails :
    (∀ (value : Value) (places : Nat), (value.css places true).isOk = (value.css places false).isOk) ∧
    (∀ environment sheet format, ∃ written, (Evaluation.evaluate environment sheet).2.tree.write format = .ok written) ∧
    ∀ (compiler : Compiler) before entry, let outcome := compiler.compileEntry before entry
      (∃ compiled, outcome.result = .ok compiled) ∨ outcome.FailsIn .parsing ∨ outcome.FailsIn .evaluating := by
  refine ⟨fun value places => ?_, fun environment sheet format =>
    (Evaluation.writable_evaluate environment sheet).exists_write format, fun compiler before entry => ?_⟩
  · rw [Value.isOk_css, Value.isOk_css]
  · rw [Compiler.compileEntry]
    cases Statement.parse entry.source entry.path entry.indented with
    | error error => exact .inr (.inl ⟨_, _, rfl, rfl⟩)
    | ok statements =>
      dsimp only
      generalize (⟨entry.path, entry.source, entry.directory, [entry.path], statements⟩ : Sheet) = sheet
      obtain ⟨written, run⟩ := (Evaluation.writable_evaluate compiler.environment sheet).exists_write
        compiler.options.format
      rw [Compiler.compileSheet]
      rcases evaluated : Evaluation.evaluate compiler.environment sheet with ⟨result, state⟩
      rw [evaluated] at run
      cases result with
      | error failure => exact .inr (.inr ⟨failure, _, rfl, rfl⟩)
      | ok _ =>
        dsimp only
        rw [Compiler.emit, run]
        exact .inl ⟨_, rfl⟩

end Stylesheet
