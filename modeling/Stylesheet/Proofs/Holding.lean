import Stylesheet.Proofs.RuleOrder

/-! What holds what. In every state that an evaluation may come through each node stands in one list only, that of the
top level or that of a block made before it, and what is to take a declaration or a comment can take it. So the writer,
which goes down from the top level, comes to an end and comes to each node once. -/

namespace Stylesheet

namespace Css

mutual

/-- A node and the nodes below it, from first to last. -/
def Node.entries : Node → List Entry
  | .node entry children => entry :: Node.allEntries children

def Node.allEntries : List Node → List Entry
  | [] => []
  | first :: rest => first.entries ++ Node.allEntries rest

end

theorem filterMap_range_getElem? {α : Type} (list : List α) :
    (List.range list.length).filterMap (list[·]?) = list := by
  induction list with
  | nil => rfl
  | cons first rest tail =>
    rw [List.length_cons, List.range_succ_eq_map, List.filterMap_cons, List.filterMap_map]
    simpa using tail

namespace Tree

variable {tree : Tree} {steps : Nat} {holder : Option Nat} {id : Nat}

/-- All lists of nodes: that of the top level and those of the blocks. -/
def listed (tree : Tree) : List Nat :=
  tree.heldBy none ++ ((List.range tree.entries.size).filter tree.isBlock).flatMap fun block => tree.heldBy (some block)

/-- What `holder` holds has no smaller number. -/
def lowest (holder : Option Nat) : Nat := holder.elim 0 (· + 1)

/-- A node takes an item, as its last one. -/
def Gains (before after : Tree) (id : Nat) (item : Item) : Prop :=
  ∃ entry, before.entries[id]? = some entry ∧ entry.takesItems = true ∧
    after.entries[id]? = some { entry with items := entry.items ++ [item] }

/-- Whether a node is to be seen: it has something to show, or something below it has. -/
def isVisible (tree : Tree) (format : Format) (id : Nat) : Bool := (tree.nodeAt tree.entries.size id).any format.shows

theorem lowest_le (ordered : tree.Ordered) (member : id ∈ tree.heldBy holder) : lowest holder ≤ id := by
  obtain ⟨entry, found, rfl⟩ := mem_heldBy.1 member
  cases held : entry.holder with
  | none => exact Nat.zero_le _
  | some outer => exact (ordered id entry found outer held).1

theorem heldBy_eq_nil (ordered : tree.Ordered) (beyond : tree.entries.size ≤ lowest holder) :
    tree.heldBy holder = [] := by
  refine List.eq_nil_iff_forall_not_mem.2 fun id member => ?_
  have := lowest_le ordered member
  obtain ⟨entry, found, -⟩ := mem_heldBy.1 member
  have := (Array.getElem?_eq_some_iff.1 found).1
  omega

/-- As many steps as there are nodes behind `holder` lead down to all that it holds. -/
theorem nodesIn_of_enough (ordered : tree.Ordered) {more : Nat} (enough : tree.entries.size ≤ steps + lowest holder)
    (enough' : tree.entries.size ≤ more + lowest holder) : tree.nodesIn steps holder = tree.nodesIn more holder := by
  induction steps generalizing more holder with
  | zero =>
    have none := heldBy_eq_nil ordered (Nat.zero_add _ ▸ enough)
    cases more with
    | zero => rfl
    | succ more => rw [nodesIn, nodesIn, none, List.filterMap_nil]
  | succ steps deeper =>
    cases more with
    | zero =>
      have none := heldBy_eq_nil ordered (Nat.zero_add _ ▸ enough')
      rw [nodesIn, nodesIn, none, List.filterMap_nil]
    | succ more =>
      rw [nodesIn, nodesIn]
      refine List.filterMap_congr fun id member => ?_
      have above := lowest_le ordered member
      have inner : tree.nodesIn steps (some id) = tree.nodesIn more (some id) :=
        deeper (by simp only [lowest, Option.elim_some]; omega) (by simp only [lowest, Option.elim_some]; omega)
      rw [inner]

theorem nodeAt_of_enough (ordered : tree.Ordered) (more : Nat) (enough : tree.entries.size ≤ steps + id + 1)
    (enough' : tree.entries.size ≤ more + id + 1) : tree.nodeAt steps id = tree.nodeAt more id := by
  have inner : tree.nodesIn steps (some id) = tree.nodesIn more (some id) :=
    nodesIn_of_enough ordered enough enough'
  rw [nodeAt, nodeAt, inner]

theorem allEntries_nodesIn (steps : Nat) (holder : Option Nat) :
    Node.allEntries (tree.nodesIn steps holder) = (tree.idsIn steps holder).filterMap (tree.entries[·]?) := by
  induction steps generalizing holder with
  | zero => rfl
  | succ steps deeper =>
    rw [nodesIn, idsIn]
    induction tree.heldBy holder with
    | nil => rfl
    | cons id rest tail =>
      rw [List.flatMap_cons, List.filterMap_append, ← tail, List.filterMap_cons, List.filterMap_cons]
      cases found : tree.entries[id]? with
      | none => simp [isBlock, found]
      | some entry =>
        have block : tree.isBlock id = entry.isBlock := by rw [isBlock, found, Option.any_some]
        rw [Option.map_some, Node.allEntries, Node.entries, block]
        cases entry.isBlock with
        | true => simp [deeper]
        | false => simp [Node.allEntries]

/-- The forest shows every node exactly once. -/
theorem allEntries_forest (ordered : tree.Ordered) : (Node.allEntries tree.forest).Perm tree.entries.toList := by
  rw [forest, allEntries_nodesIn]
  have all := filterMap_range_getElem? tree.entries.toList
  simp only [Array.length_toList, Array.getElem?_toList] at all
  exact ((idsIn_perm_range ordered).filterMap _).trans (.of_eq all)

theorem listed_perm (ordered : tree.Ordered) : tree.listed.Perm (List.range tree.entries.size) := by
  have nodup : tree.listed.Nodup := by
    refine List.nodup_append.2 ⟨tree.nodup_heldBy none, ?_, ?_⟩
    · refine List.nodup_flatMap.2 ⟨fun block _ => tree.nodup_heldBy _, ?_⟩
      refine (List.nodup_range.filter _).imp fun {first second} different id here there => ?_
      obtain ⟨entry, found, held⟩ := mem_heldBy.1 here
      obtain ⟨entry', found', held'⟩ := mem_heldBy.1 there
      cases found.symm.trans found'
      cases held.symm.trans held'
      exact different rfl
    · rintro id top _ inner rfl
      obtain ⟨block, -, inside⟩ := List.mem_flatMap.1 inner
      obtain ⟨entry, found, held⟩ := mem_heldBy.1 top
      obtain ⟨entry', found', held'⟩ := mem_heldBy.1 inside
      cases found.symm.trans found'
      cases held.symm.trans held'
  refine (List.perm_ext_iff_of_nodup nodup List.nodup_range).2 fun id => ?_
  rw [listed, List.mem_append, List.mem_flatMap, List.mem_range]
  constructor
  · rintro (member | ⟨block, -, member⟩) <;>
    · obtain ⟨entry, found, -⟩ := mem_heldBy.1 member
      exact (Array.getElem?_eq_some_iff.1 found).1
  · intro present
    have found := Array.getElem?_eq_getElem present
    cases held : tree.entries[id].holder with
    | none => exact .inl (mem_heldBy.2 ⟨_, found, held⟩)
    | some outer =>
      have block := (ordered _ _ found _ held).2
      refine .inr ⟨outer, List.mem_filter.2 ⟨List.mem_range.2 (lt_size_of_isBlock block), block⟩, ?_⟩
      exact mem_heldBy.2 ⟨_, found, held⟩

variable {format : Format}

/-- Of the nodes that `nodesIn` shows, those are written that are to be seen. -/
theorem mem_writtenIn_iff (ordered : tree.Ordered) (enough : tree.entries.size ≤ steps + lowest holder) :
    id ∈ tree.writtenIn format steps holder ↔ id ∈ tree.idsIn steps holder ∧ tree.isVisible format id = true := by
  induction steps generalizing holder with
  | zero => simp [writtenIn, idsIn]
  | succ steps deeper =>
    rw [mem_idsIn_succ, writtenIn, List.mem_flatMap]
    have inner {top : Nat} (member : top ∈ tree.heldBy holder) : id ∈ tree.writtenIn format steps (some top) ↔
        id ∈ tree.idsIn steps (some top) ∧ tree.isVisible format id = true := by
      have := lowest_le ordered member
      refine deeper ?_
      simp only [lowest, Option.elim_some]
      omega
    have seen {top : Nat} (member : top ∈ tree.heldBy holder) :
        (tree.nodeAt steps top).any format.shows = tree.isVisible format top := by
      have := lowest_le ordered member
      rw [isVisible, nodeAt_of_enough ordered tree.entries.size (by omega) (by omega)]
    constructor
    · rintro ⟨top, member, shown⟩
      rw [seen member] at shown
      split at shown
      · next visible =>
        rcases List.mem_cons.1 shown with rfl | below
        · exact ⟨⟨id, member, .inl rfl⟩, visible⟩
        · split at below
          · next block =>
            obtain ⟨shown, visible⟩ := (inner member).1 below
            exact ⟨⟨top, member, .inr ⟨block, shown⟩⟩, visible⟩
          · cases below
      · cases shown
    · rintro ⟨⟨top, member, rfl | ⟨block, shown⟩⟩, visible⟩
      · refine ⟨id, member, ?_⟩
        rw [seen member, if_pos visible]
        exact .head _
      · have below := (inner member).2 ⟨shown, visible⟩
        refine ⟨top, member, ?_⟩
        obtain ⟨entry, name, parameters, found, content⟩ := isBlock_iff.1 block
        -- A block is to be seen if something in it is.
        have outer : (tree.nodeAt steps top).any format.shows = true := by
          simp [nodeAt, found, Entry.isBlock, content, Format.shows, showsAny_of_mem_writtenIn below]
        rw [outer, if_pos rfl, if_pos block]
        exact .tail _ below

theorem mem_written_iff (ordered : tree.Ordered) :
    id ∈ tree.written format ↔ tree.isVisible format id = true := by
  rw [written, mem_writtenIn_iff ordered (by simp [lowest])]
  refine and_iff_right_of_imp fun visible => ?_
  cases found : tree.entries[id]? with
  | none => simp [isVisible, nodeAt, found] at visible
  | some entry =>
    have present := (Array.getElem?_eq_some_iff.1 found).1
    exact mem_idsIn ordered present (by omega)

theorem gains_pushItem {entry : Entry} (found : tree.entries[id]? = some entry) (takes : entry.takesItems = true)
    (item : Item) : tree.Gains (tree.pushItem id item) id item :=
  ⟨entry, found, takes, by simp [pushItem, Array.getElem?_modify, found, takes]⟩

end Tree

end Css

namespace Evaluation
open Evaluator Css

variable {inner outer part : Part} {before after state entered : State} {leave : State → State} {id : Nat}

/-- The current rule is a rule of the tree, if there is one. -/
def State.RuleKnown (state : State) : Prop :=
  ∀ id, state.place.rule = some id → ∃ entry selectors, state.tree.entries[id]? = some entry ∧
    entry.content = .rule selectors

namespace State.RuleKnown

theorem keeps (known : before.RuleKnown) (keeps : before.tree.Keeps after.tree)
    (rule : after.place.rule = before.place.rule) : after.RuleKnown := by
  intro id current
  obtain ⟨entry, selectors, found, content⟩ := known id (rule ▸ current)
  obtain ⟨later, present, same, -⟩ := keeps id entry found
  exact ⟨later, selectors, present, same.trans content⟩

theorem enters (known : state.RuleKnown) (anchored : state.Anchored)
    (enters : Enters inner outer state entered leave) : entered.RuleKnown := by
  cases enters with
  | inRule selectors pos =>
    rintro _ ⟨⟩
    exact ⟨_, selectors, Tree.getElem?_push_size anchored, rfl⟩
  | inDirective | inMedia => nofun
  | inSheet _ sheet => exact known.keeps (Tree.keeps_addSource _ _ _) rfl
  | _ => exact known

end State.RuleKnown

theorem Reachable.ruleKnown (reached : Reachable state) : state.RuleKnown := by
  induction reached with
  | start sheet => nofun
  | leads reached leads known =>
    obtain ⟨-, keeps, same | ⟨-, -, id, selectors, entry, -, -, current, -, found, content, -⟩⟩ :=
      leads.returns reached.anchored
    · exact known.keeps keeps same
    · intro id' current'
      cases current.symm.trans current'
      exact ⟨entry, selectors, found, content⟩
  | enters reached enters known => exact known.enters reached.anchored enters

/-- What is found or made for a declaration can take it. -/
theorem declarationTarget_takes (known : state.RuleKnown) (anchored : state.Anchored) {environment : Environment}
    {pos : Position} (yields : Yields (declarationTarget pos) environment state id after) :
    after.source = state.source ∧ ∃ entry, after.tree.entries[id]? = some entry ∧ entry.takesItems = true := by
  cases targetFound yields with
  | rule current =>
    obtain ⟨entry, selectors, found, content⟩ := known id current
    exact ⟨rfl, entry, found, by rw [Entry.takesItems, content]⟩
  | made missing known => exact ⟨rfl, _, Tree.getElem?_push_size anchored, rfl⟩
  | block missing unknown held =>
    obtain ⟨entry, name, parameters, found, content⟩ := Tree.isBlock_iff.1 (anchored id held)
    exact ⟨rfl, entry, found, by rw [Entry.takesItems, content]⟩

/-- A declaration that is written becomes the last item of the node that is found or made for it. -/
theorem declared_gains (known : state.RuleKnown) (anchored : state.Anchored) {environment : Environment}
    {property : String} {value : Value} {important : Bool} {pos : Position}
    (yields : Yields (declared property value important pos) environment state () after) :
    (value.css environment.places false = .ok "" ∧ important = false ∧ after = state) ∨
    ∃ id between, Yields (declarationTarget pos) environment state id between ∧
      between.tree.Gains after.tree id (.declaration ⟨property, value, important, ⟨state.source, pos⟩⟩) := by
  simp only [declared, yields_bind, yields_read, yields_ofOperation, and_assoc, exists_and_left,
    exists_eq_left] at yields
  obtain ⟨css, shown, yields⟩ := yields
  split at yields
  · obtain ⟨id, between, target, yields⟩ := yields_bind.1 yields
    simp only [yields_bind, yields_span, yields_pushItem, and_assoc, exists_and_left, exists_eq_left] at yields
    subst yields
    obtain ⟨source, entry, found, takes⟩ := declarationTarget_takes known anchored target
    exact .inr ⟨id, between, target, source ▸ Tree.gains_pushItem found takes _⟩
  · next empty =>
    simp only [Bool.or_eq_true, Bool.not_eq_true', not_or, Bool.not_eq_false, Bool.not_eq_true] at empty
    obtain ⟨-, rfl⟩ := yields_pure.1 yields
    exact .inl ⟨by rw [shown, String.isEmpty_iff.1 empty.1], empty.2, rfl⟩

/-- A comment becomes the last item of the current rule. -/
theorem comment_gains (known : state.RuleKnown) (environment : Environment) (text : Comment) (pos : Position)
    (outside : state.functionDepth = 0) (current : state.place.rule = some id) :
    ∃ after, Yields (comment text pos) environment state () after ∧ state.tree.Gains after.tree id (.comment text) := by
  obtain ⟨entry, selectors, found, content⟩ := known id current
  have takes : entry.takesItems = true := by rw [Entry.takesItems, content]
  refine ⟨{ state with tree := state.tree.pushItem id (.comment text) }, ?_, Tree.gains_pushItem found takes _⟩
  refine yields_bind.2 ⟨state, state, yields_get.2 ⟨rfl, rfl⟩, ?_⟩
  rw [if_pos outside, current]
  exact yields_pushItem.2 rfl

/-- In every state that an evaluation may come through the tree is a forest: each node stands in one list of nodes, a
block is made before what it holds, and only blocks hold nodes. Where new nodes go to is a block, if it is not the top
level, and what declarations and comments go to takes them. So the writer is done after as many steps as there are
nodes, comes to each of them once, and writes those that are to be seen once each. -/
theorem reachable_tree_is_forest (reached : Reachable state) :
    (state.tree.listed.Perm (List.range state.tree.entries.size) ∧
      ∀ holder, ∀ id ∈ state.tree.heldBy (some holder), state.tree.isBlock holder = true ∧ holder < id) ∧
    ((∀ id, state.place.container = some id → state.tree.isBlock id = true) ∧
      ∀ outer, state.place.media = some outer → state.tree.isBlock outer.block = true ∧
        ∀ id, outer.holder = some id → state.tree.isBlock id = true) ∧
    ((∀ environment property value important pos after,
        Yields (declared property value important pos) environment state () after →
        (value.css environment.places false = .ok "" ∧ important = false ∧ after = state) ∨
        ∃ id between, Yields (declarationTarget pos) environment state id between ∧
          between.tree.Gains after.tree id (.declaration ⟨property, value, important, ⟨state.source, pos⟩⟩)) ∧
      ∀ environment text pos id, state.functionDepth = 0 → state.place.rule = some id →
        ∃ after, Yields (comment text pos) environment state () after ∧
          state.tree.Gains after.tree id (.comment text)) ∧
    ((∀ steps, state.tree.entries.size ≤ steps → state.tree.nodesIn steps none = state.tree.forest) ∧
      (Node.allEntries state.tree.forest).Perm state.tree.entries.toList ∧
      ∀ format, (state.tree.written format).Nodup ∧
        ∀ id, id ∈ state.tree.written format ↔ state.tree.isVisible format id = true) := by
  obtain ⟨ordered, -, -, container, media⟩ := reached.laid
  have known := reached.ruleKnown
  refine ⟨⟨Tree.listed_perm ordered, fun holder id member => ?_⟩, ⟨container, fun outer inside => ?_⟩,
    ⟨fun environment property value important pos after => declared_gains known container, ?_⟩,
    ?_, Tree.allEntries_forest ordered,
    fun format => ⟨Tree.nodup_written ordered, fun id => Tree.mem_written_iff ordered⟩⟩
  · obtain ⟨entry, found, held⟩ := Tree.mem_heldBy.1 member
    exact (ordered id entry found holder held).symm
  · obtain ⟨entry, found, content, holder⟩ := media outer inside
    exact ⟨Tree.isBlock_iff.2 ⟨entry, _, _, found, content⟩, fun id held =>
      (ordered _ _ found id (holder.trans held)).2⟩
  · exact fun environment text pos id => comment_gains known environment text pos
  · intro steps enough
    exact Tree.nodesIn_of_enough ordered enough (Nat.le_succ _)

/-- A rule in a media block inside of another one, and a rule behind it: each of the four nodes is listed once. -/
theorem reachable_tree_is_forest_crossing :
    let tree := (evaluate plainEnvironment crossingSheet).2.tree
    Reachable (evaluate plainEnvironment crossingSheet).2 ∧ tree.listed = [0, 1, 3, 2] ∧
      tree.listed.Perm (List.range tree.entries.size) ∧ tree.written compressed = [0, 3, 1, 2] ∧
      (tree.written compressed).Nodup := by
  have reached := reachable_evaluate plainEnvironment crossingSheet
  obtain ⟨⟨once, -⟩, -, -, -, -, written⟩ := reachable_tree_is_forest reached
  exact ⟨reached, by decide +kernel, once, by decide +kernel, (written compressed).1⟩

end Evaluation

end Stylesheet
