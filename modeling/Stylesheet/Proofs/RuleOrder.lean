import Stylesheet.Proofs.Placement
import Stylesheet.Proofs.WritingOrder

/-! The order of the rules in the text, on which the cascade rests. Rules are written in the order in which they were
made, except for those in a media block directly inside another one: they come behind all that is in the outer block,
because that block is written first. -/

namespace Stylesheet

namespace Css.Tree

variable {tree : Tree} {format : Format} {first second : Nat}

/-- The first of two nodes stands in a media block that was inside of the one that the second node stands in. -/
def Moved (tree : Tree) (first second : Nat) : Prop :=
  ∃ outer inner, tree.Beside outer inner ∧ tree.Below inner first ∧ tree.Below outer second

/-- One node is written before another one: so are its mappings, and then its text stands before the other one's. -/
def WrittenBefore (tree : Tree) (format : Format) (first second : Nat) : Prop :=
  first ∈ tree.written format ∧ second ∈ tree.written format ∧
    (tree.written format).idxOf first < (tree.written format).idxOf second ∧
    ∀ out, tree.write format = .ok out → ∃ marks : Nat → List Mapping,
      out.mappings = (tree.written format).flatMap marks ∧
      (∀ id ∈ tree.written format, List.Forall₂ ComesFrom (tree.constructsOf format id) (marks id)) ∧
      (EndsLine format.linefeed →
        (∀ id ∈ tree.written format,
          List.Forall₂ (BeginsAt out.css.toList) (tree.constructsOf format id) (marks id)) ∧
        ∀ mark ∈ marks first, ∀ mark' ∈ marks second, mark.place.Before mark'.place)

theorem writtenBefore_of_apart (ordered : tree.Ordered) (shows : tree.showsLeaf format first = true)
    (shows' : tree.showsLeaf format second = true) (apart : tree.Apart first second) :
    tree.WrittenBefore format first second := by
  have member := mem_written ordered shows
  have member' := mem_written ordered shows'
  have less := apart.idxOf_lt ordered member member'
  refine ⟨member, member', less, fun out run => ?_⟩
  obtain ⟨marks, same, comes, places⟩ := write_marks ordered run
  refine ⟨marks, same, comes, fun ends => ?_⟩
  obtain ⟨begins, before⟩ := places ends
  have order := List.pairwise_iff_getElem.1 before _ _ (List.idxOf_lt_length_of_mem member)
    (List.idxOf_lt_length_of_mem member') less
  rw [List.getElem_idxOf, List.getElem_idxOf] at order
  exact ⟨begins, order⟩

theorem Moved.apart (moved : tree.Moved first second) : tree.Apart second first := by
  obtain ⟨outer, inner, beside, below, below'⟩ := moved
  exact ⟨outer, inner, beside.later, below', below⟩

/-- Where a later node stands before an earlier one, the earlier one was moved. -/
theorem Settled.moved (settled : tree.Settled) (ordered : tree.Ordered) (earlier : first < second)
    (apart : tree.Apart second first) : tree.Moved first second := by
  obtain ⟨left, right, later, below, below'⟩ := apart
  have above := below'.le ordered
  exact ⟨left, right, settled left right second later below (by omega), below', below⟩

end Css.Tree

namespace Evaluation
open Css

theorem reachable_evaluate (environment : Environment) (sheet : Sheet) :
    Reachable (evaluate environment sheet).2 :=
  (reached_evaluate environment sheet).reachable

/-- Of two nodes that hold no others and are to be seen, such as rules and directives without a block, the one that was
made first is written first. Only if it stands in a media block that was inside of the one that the other stands in, the
other is written first. -/
theorem written_as_made (environment : Environment) (sheet : Sheet) (format : Format) (first second : Nat) :
    let tree := (evaluate environment sheet).2.tree
    first < second → tree.showsLeaf format first = true → tree.showsLeaf format second = true →
      (¬ tree.Moved first second → tree.WrittenBefore format first second) ∧
      (tree.Moved first second → tree.WrittenBefore format second first) := by
  intro tree earlier shows shows'
  obtain ⟨ordered, settled, -⟩ := (reachable_evaluate environment sheet).laid
  refine ⟨fun still => ?_, fun moved => Tree.writtenBefore_of_apart ordered shows' shows moved.apart⟩
  rcases Tree.apart_of_leaves ordered shows shows' (by omega) with apart | apart
  · exact Tree.writtenBefore_of_apart ordered shows shows' apart
  · exact absurd (settled.moved ordered earlier apart) still

section Samples

def compressed : Format := ⟨.compressed, 5, "", "\n", false⟩

def sampleRule (selector property value : String) : Statement :=
  .rule .start [.text selector]
    [.declaration .start [.text property] (some (.string [.text value] false)) false []]

def sampleSheet (statements : List Statement) : Sheet :=
  { path := "stdin", source := "", directory := none, chain := ["stdin"], statements }

/-- A rule in two media blocks, and a directive behind them. -/
def nestedMediaTree : Tree :=
  (evaluate plainEnvironment (sampleSheet
    [.media .start [.text "x"] [.media .start [.text "y"] [sampleRule "b" "c" "d"]],
      .directive .start "foo" [.text "bar"] none])).2.tree

theorem written_as_made_nested : 2 < 3 ∧ nestedMediaTree.showsLeaf compressed 2 = true ∧
    nestedMediaTree.showsLeaf compressed 3 = true ∧ nestedMediaTree.WrittenBefore compressed 2 3 := by
  have shows : nestedMediaTree.showsLeaf compressed 2 = true := by decide +kernel
  have shows' : nestedMediaTree.showsLeaf compressed 3 = true := by decide +kernel
  have outside : nestedMediaTree.entries[3]?.map (fun entry => (entry.isBlock, entry.holder)) = some (false, none) := by
    decide +kernel
  have still : ¬ nestedMediaTree.Moved 2 3 := by
    rintro ⟨outer, inner, ⟨-, first, second, query, more, found, -, -, content, -⟩, -, below⟩
    cases below with
    | self => simp [found, Entry.isBlock, content] at outside
    | held _ found held => simp [found, held] at outside
  have order := (written_as_made plainEnvironment _ compressed 2 3 (by decide) shows shows').1 still
  exact ⟨by decide, shows, shows', order⟩

/-- A rule behind the inner one of two media blocks, in the outer one. -/
def crossingSheet : Sheet :=
  sampleSheet [.media .start [.text "x"]
    [.media .start [.text "y"] [sampleRule "b" "c" "d"], sampleRule "e" "f" "g"]]

/-- The rule `e` was made behind the rule `b` and is written before it. -/
theorem later_rule_first :
    let tree := (evaluate plainEnvironment crossingSheet).2.tree
    (evaluate plainEnvironment crossingSheet).1 = .ok () ∧
      (tree.constructsOf compressed 2).map Construct.text = ["b", "c:d;"] ∧
      (tree.constructsOf compressed 3).map Construct.text = ["e", "f:g;"] ∧
      tree.showsLeaf compressed 2 = true ∧ tree.showsLeaf compressed 3 = true ∧
      (tree.write compressed).toOption.map Written.css = some "@media x{e{f:g}}@media x and y{b{c:d}}" ∧
      ¬ tree.WrittenBefore compressed 2 3 := by
  intro tree
  have order : tree.written compressed = [0, 3, 1, 2] := by decide +kernel
  have behind : ¬ tree.WrittenBefore compressed 2 3 := by
    rintro ⟨-, -, less, -⟩
    rw [order] at less
    exact absurd less (by decide)
  exact ⟨by decide +kernel, by decide +kernel, by decide +kernel, by decide +kernel, by decide +kernel,
    by decide +kernel, behind⟩

end Samples

end Evaluation

end Stylesheet
