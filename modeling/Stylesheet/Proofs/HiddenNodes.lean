import Stylesheet.Proofs.FilledBlocks
import Stylesheet.Proofs.Holding

/-! A tree without what is not to be seen: rules without selectors or without items, blocks in which nothing is to be
seen, and comments that a compressed text does not keep. Its CSS and its mappings are those of the whole tree. -/

namespace Stylesheet.Css

/-- A node without the items that are not to be seen. -/
def Entry.pruned (format : Format) (entry : Entry) : Entry :=
  { entry with items := entry.items.filter format.showsItem }

mutual

def Node.pruned (format : Format) : Node → Node
  | .node entry children => .node (entry.pruned format) (Node.prunedAll format children)

/-- The nodes that are to be seen, with what is to be seen of them. -/
def Node.prunedAll (format : Format) : List Node → List Node
  | [] => []
  | first :: rest =>
    if format.shows first then first.pruned format :: Node.prunedAll format rest else Node.prunedAll format rest

end

theorem Node.prunedAll_eq (format : Format) (nodes : List Node) :
    Node.prunedAll format nodes = (nodes.filter format.shows).map (Node.pruned format) := by
  induction nodes with
  | nil => rfl
  | cons first rest tail =>
    rw [prunedAll, tail, List.filter_cons]
    split <;> rfl

namespace Tree

variable {tree : Tree} {format : Format} {steps id : Nat} {holder : Option Nat}

/-- The trees that can be built, node by node and item by item. -/
inductive Built : Tree → Prop
  | empty : Built .empty
  | addSource {tree : Tree} (built : Built tree) (path text : String) : Built (tree.addSource path text).2
  | push {tree : Tree} (built : Built tree) (holder : Option Nat) (content : Content) (depth : Nat) (span : Span) :
    Built (tree.push holder content depth span).2
  | pushItem {tree : Tree} (built : Built tree) (id : Nat) (item : Item) : Built (tree.pushItem id item)

theorem Built.ordered (built : tree.Built) : tree.Ordered := by
  induction built with
  | empty => exact ordered_empty
  | addSource _ path text ordered => exact ordered.addSource path text
  | push _ holder content depth span ordered => exact ordered.push holder content depth span
  | pushItem _ id item ordered => exact ordered.pushItem id item

/-- The tree without what is not to be seen. Hidden nodes keep their numbers, but neither the top level nor a block
holds them any more, and hidden comments are no items any more. -/
def pruned (tree : Tree) (format : Format) : Tree :=
  { tree with entries := tree.entries.mapIdx fun id entry =>
      { entry.pruned format with
        holder := if tree.isVisible format id then entry.holder else some tree.entries.size } }

theorem getElem?_pruned (tree : Tree) (format : Format) (id : Nat) :
    (tree.pruned format).entries[id]? = tree.entries[id]?.map fun entry =>
      { entry.pruned format with
        holder := if tree.isVisible format id then entry.holder else some tree.entries.size } := by
  rw [pruned, Array.getElem?_mapIdx]

theorem size_pruned (tree : Tree) (format : Format) : (tree.pruned format).entries.size = tree.entries.size := by
  rw [pruned, Array.size_mapIdx]

theorem heldBy_pruned (format : Format) (known : holder ≠ some tree.entries.size) :
    (tree.pruned format).heldBy holder = (tree.heldBy holder).filter (tree.isVisible format) := by
  rw [heldBy, heldBy, size_pruned, List.filter_filter]
  refine List.filter_congr fun id _ => ?_
  rw [getElem?_pruned]
  cases tree.entries[id]? with
  | none => exact (Bool.and_false _).symm
  | some entry =>
    rw [Option.map_some, Option.any_some, Option.any_some]
    cases tree.isVisible format id with
    | true => rfl
    | false => simpa using Ne.symm known

/-- A node that is to be seen, as the pruned tree shows it. -/
theorem nodeAt_pruned (visible : tree.isVisible format id = true)
    (inner : (tree.pruned format).nodesIn steps (some id) = Node.prunedAll format (tree.nodesIn steps (some id))) :
    (tree.pruned format).nodeAt steps id = (tree.nodeAt steps id).map (Node.pruned format) := by
  rw [nodeAt, nodeAt, getElem?_pruned, visible, inner, Option.map_map, Option.map_map]
  refine Option.map_congr fun entry _ => ?_
  change Node.node (entry.pruned format) (if entry.isBlock then _ else []) =
    Node.node (entry.pruned format) (Node.prunedAll format (if entry.isBlock then _ else []))
  split <;> rfl

/-- By induction on the steps. What the pruned tree shows is what is to be seen of what the tree shows. -/
theorem nodesIn_pruned (ordered : tree.Ordered) (format : Format) (enough : tree.entries.size ≤ steps + lowest holder)
    (known : holder ≠ some tree.entries.size) :
    (tree.pruned format).nodesIn steps holder = Node.prunedAll format (tree.nodesIn steps holder) := by
  induction steps generalizing holder with
  | zero => rfl
  | succ steps deeper =>
    change ((tree.pruned format).heldBy holder).filterMap ((tree.pruned format).nodeAt steps) =
      Node.prunedAll format ((tree.heldBy holder).filterMap (tree.nodeAt steps))
    rw [heldBy_pruned format known, Node.prunedAll_eq, List.filterMap_filter, List.filter_filterMap, List.map_filterMap]
    refine List.filterMap_congr fun id member => ?_
    have above := lowest_le ordered member
    obtain ⟨entry, found, -⟩ := mem_heldBy.1 member
    have present := (Array.getElem?_eq_some_iff.1 found).1
    have seen : (tree.nodeAt steps id).any format.shows = tree.isVisible format id := by
      rw [isVisible, nodeAt_of_enough ordered tree.entries.size (by omega) (by omega)]
    have inner : (tree.pruned format).nodesIn steps (some id) = Node.prunedAll format (tree.nodesIn steps (some id)) :=
      deeper (by simp only [lowest, Option.elim_some]; omega) (by simpa using Nat.ne_of_lt present)
    have shown : (tree.nodeAt steps id).filter format.shows =
        if tree.isVisible format id then tree.nodeAt steps id else none := by
      rw [← seen]
      cases tree.nodeAt steps id <;> rfl
    rw [shown]
    split
    next visible => exact nodeAt_pruned visible inner
    next => rfl

theorem forest_pruned (ordered : tree.Ordered) (format : Format) :
    (tree.pruned format).forest = Node.prunedAll format tree.forest := by
  rw [forest, forest, size_pruned]
  exact nodesIn_pruned ordered format (by omega) (Option.some_ne_none _).symm

end Tree

namespace Format

variable {format : Format} {level : Nat} {sources : List Source}

theorem any_showsItem_pruned (entry : Entry) :
    (entry.pruned format).items.any format.showsItem = entry.items.any format.showsItem := by
  simp [Entry.pruned]

mutual

theorem shows_pruned (format : Format) : (node : Node) → format.shows (node.pruned format) = format.shows node
  | .node entry children => by
    rw [Node.pruned, shows, shows, any_showsItem_pruned, showsAny_pruned format children]
    rfl

theorem showsAny_pruned (format : Format) :
    (nodes : List Node) → format.showsAny (Node.prunedAll format nodes) = format.showsAny nodes
  | [] => rfl
  | first :: rest => by
    rw [Node.prunedAll, showsAny]
    cases here : format.shows first with
    | true => rw [if_pos rfl, showsAny, shows_pruned format first, here, Bool.true_or, Bool.true_or]
    | false => rw [if_neg Bool.false_ne_true, showsAny_pruned format rest, Bool.false_or]

end

theorem writeItems_pruned (items : List Item) (output : Output) :
    format.writeItems level (items.filter format.showsItem) output = format.writeItems level items output := by
  induction items generalizing output with
  | nil => rfl
  | cons item rest tail =>
    rw [List.filter_cons]
    cases here : format.showsItem item with
    | true =>
      rw [if_pos rfl, writeItems, List.foldlM_cons, writeItems, List.foldlM_cons]
      exact congrArg _ (funext fun between => tail between)
    | false =>
      rw [if_neg Bool.false_ne_true, tail, writeItems, writeItems, List.foldlM_cons, writeItem_hidden here]
      rfl

mutual

theorem writeNode_pruned (format : Format) (sources : List Source) : (node : Node) → (level : Nat) →
    (output : Output) → format.writeNode sources level (node.pruned format) output =
      format.writeNode sources level node output
  | .node entry children, level, output => by
    have content : (entry.pruned format).content = entry.content := rfl
    have depth : (entry.pruned format).depth = entry.depth := rfl
    have items : (entry.pruned format).items = entry.items.filter format.showsItem := rfl
    have span : (entry.pruned format).span = entry.span := rfl
    have nodes := fun output => writeNodes_pruned format sources children (level + 1) false output
    rw [Node.pruned]
    simp only [writeNode, any_showsItem_pruned, showsAny_pruned, content, depth, span, nodes]
    simp only [items, writeItems_pruned]

theorem writeNodes_pruned (format : Format) (sources : List Source) : (nodes : List Node) → (level : Nat) →
    (group : Bool) → (output : Output) →
      format.writeNodes sources level group (Node.prunedAll format nodes) output =
        format.writeNodes sources level group nodes output
  | [], _, _, _ => rfl
  | first :: rest, level, group, output => by
    have entry : (first.pruned format).entry = first.entry.pruned format := by
      cases first
      rfl
    rw [Node.prunedAll, writeNodes]
    cases here : format.shows first with
    | true =>
      rw [if_pos rfl, if_pos rfl, writeNodes, shows_pruned, here, if_pos rfl, entry]
      simp only [writeNode_pruned format sources first, writeNodes_pruned format sources rest]
      rfl
    | false =>
      rw [if_neg Bool.false_ne_true, if_neg Bool.false_ne_true]
      exact writeNodes_pruned format sources rest level group output

end

end Format

theorem Tree.write_pruned {tree : Tree} (ordered : tree.Ordered) (format : Format) :
    (tree.pruned format).write format = tree.write format := by
  have nodes := format.writeNodes_pruned tree.sources tree.forest 0 false .empty
  rw [← tree.forest_pruned ordered format] at nodes
  exact congrArg (Except.map format.declareEncoding) nodes

/-- Whether something in the body of a node is to be seen. -/
def Format.hasBody (format : Format) : Node → Bool
  | .node entry children => entry.items.any format.showsItem || format.showsAny children

theorem Format.hasBody_of_shows {format : Format} {node : Node} (shown : format.shows node = true)
    (takes : node.entry.takesItems = true) : format.hasBody node = true := by
  rcases node with ⟨entry, children⟩
  rw [Node.entry, Entry.takesItems] at takes
  rw [shows] at shown
  rw [hasBody]
  cases content : entry.content with
  | rule selectors =>
    rw [content, Bool.and_eq_true] at shown
    rw [shown.2, Bool.true_or]
  | block name parameters => rwa [content] at shown
  | directive | comment => simp [content] at takes

mutual

theorem Format.shows_of_mem_shownNodes (format : Format) : (nodes : List Node) →
    ∀ node ∈ format.shownNodes nodes, format.shows node = true
  | [] => nofun
  | first :: rest => by
    rw [shownNodes]
    intro node member
    rcases List.mem_append.1 member with here | later
    · split at here
      next shown =>
        rcases List.mem_cons.1 here with rfl | inside
        · exact shown
        · exact shows_of_mem_shownInside format first node inside
      next => cases here
    · exact shows_of_mem_shownNodes format rest node later

theorem Format.shows_of_mem_shownInside (format : Format) : (outer : Node) →
    ∀ node ∈ format.shownInside outer, format.shows node = true
  | .node entry children => by
    rw [shownInside]
    split
    · exact shows_of_mem_shownNodes format children
    · exact nofun

end

/-- What is not to be seen leaves no trace: without it a tree has the same CSS and the same mappings, or fails for the
same reason. Rules and blocks are written only if something in them is to be seen, and in the text it stands between
their own braces, whatever the format, unless a line separator of a compact text is taken for the items of a node. -/
theorem hidden_leaves_no_trace (tree : Tree) (built : tree.Built) (format : Format) :
    (tree.pruned format).write format = tree.write format ∧
    (∀ node ∈ format.shownNodes tree.forest, node.entry.takesItems = true → format.hasBody node = true) ∧
    (format.KeepsItems tree.forest → ∀ written, tree.write format = .ok written →
      ∀ node ∈ format.shownNodes tree.forest, node.entry.takesItems = true →
        format.Filled tree.sources written.css.toList node) :=
  ⟨Tree.write_pruned built.ordered format,
    fun node member => Format.hasBody_of_shows (format.shows_of_mem_shownNodes tree.forest node member),
    fun keeps _ run => Tree.write_filled keeps run⟩

section Samples

/-- A comment, and a block with a hidden rule and one with a comment. -/
def hidingTree : Tree :=
  let span : Span := ⟨0, .start⟩
  let item (value : String) : Item := .declaration ⟨"x", .unquoted value, false, span⟩
  let (_, tree) := Tree.empty.push none (.comment ⟨"/* a */", by decide⟩) 0 span
  let (media, tree) := tree.push none (.block "media" "screen") 0 span
  let (hidden, tree) := tree.push (some media) (.rule [⟨[⟨[.placeholder "p"], .none⟩]⟩]) 1 span
  let tree := tree.pushItem hidden (item "y")
  let (rule, tree) := tree.push (some media) (.rule [⟨[⟨[.className "a"], .none⟩]⟩]) 1 span
  (tree.pushItem rule (.comment ⟨"/* b */", by decide⟩)).pushItem rule (item "z")

/-- A compact format whose line separator ends in a semicolon, like a declaration. -/
def separatingFormat : Format := ⟨.compact, 5, "  ", " ;;", false⟩

theorem hidden_leaves_no_trace_two_formats :
    hidingTree.Built ∧
      (hidingTree.pruned Evaluation.compressed).entries.map (·.items.length) = #[0, 0, 1, 1] ∧
      ∀ format css, (format, css) ∈ [(Evaluation.compressed, "@media screen\x7b.a\x7bx:z\x7d\x7d"),
          (separatingFormat, "/* a */ ;;@media screen \x7b ;;  .a \x7b /* b */ x: z; \x7d \x7d ;;")] →
        format.KeepsItems hidingTree.forest ∧
        ∃ written, (hidingTree.pruned format).write format = .ok written ∧ written.css = css ∧
          ∀ node ∈ format.shownNodes hidingTree.forest, node.entry.takesItems = true →
            format.hasBody node = true ∧ format.Filled hidingTree.sources written.css.toList node := by
  have built : hidingTree.Built :=
    .pushItem (.pushItem (.push (.pushItem (.push (.push (.push .empty _ _ _ _) _ _ _ _) _ _ _ _) _ _) _ _ _ _) _ _) _ _
  refine ⟨built, by decide +kernel, fun format css member => ?_⟩
  obtain ⟨keeps, shown⟩ : format.KeepsItems hidingTree.forest ∧
      (hidingTree.write format).toOption.map Written.css = some css := by
    simp only [List.mem_cons, Prod.mk.injEq, List.not_mem_nil, or_false] at member
    rcases member with ⟨rfl, rfl⟩ | ⟨rfl, rfl⟩ <;> decide +kernel
  obtain ⟨same, bodies, filled⟩ := hidden_leaves_no_trace hidingTree built format
  cases run : hidingTree.write format with
  | error error =>
    rw [run] at shown
    cases shown
  | ok written =>
    rw [run] at shown
    exact ⟨keeps, written, same.trans run, Option.some.inj shown, fun node member takes =>
      ⟨bodies node member takes, filled keeps written run node member takes⟩⟩

/-- A compact format whose line separator reads like a declaration. -/
def declaringFormat : Format := ⟨.compact, 5, "  ", " b: c;", false⟩

def declarationTree : Tree :=
  (Tree.empty.push none (.rule [⟨[⟨[.element "a"], .none⟩]⟩]) 0 ⟨0, .start⟩).2.pushItem 0
    (.declaration ⟨"b", .unquoted "c", false, ⟨0, .start⟩⟩)

/-- The declaration is taken for a line separator and taken back, so nothing is left in the braces. -/
theorem separator_takes_declaration :
    declarationTree.Built ∧
      (declaringFormat.shownNodes declarationTree.forest).map declaringFormat.inside = [["b: c".toList]] ∧
      (declarationTree.write declaringFormat).toOption.map Written.css = some "a \x7b \x7d b: c;" :=
  ⟨.pushItem (.push .empty _ _ _ _) _ _, by decide +kernel, by decide +kernel⟩

end Samples

end Stylesheet.Css
