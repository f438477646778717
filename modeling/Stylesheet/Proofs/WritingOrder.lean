import Stylesheet.Proofs.Forest
import Stylesheet.Proofs.MappingPlaces

/-! The order in which the nodes of a tree are written: a block before what it holds, and what it holds in the order in
which it was made. Two nodes of which neither holds the other stand in two nodes of one block, and in their order. -/

namespace Stylesheet.Css

namespace Tree

variable {tree : Tree} {steps : Nat} {holder : Option Nat} {left right first second top id : Nat}

/-- Two nodes stand in nodes of one block, the first one in an earlier one. -/
def Apart (tree : Tree) (first second : Nat) : Prop :=
  ∃ left right, tree.Later left right ∧ tree.Below left first ∧ tree.Below right second

theorem Apart.not_below (ordered : tree.Ordered) (apart : tree.Apart first second) : ¬ tree.Below second first := by
  obtain ⟨left, right, later, one, two⟩ := apart
  exact fun below => later.disjoint ordered one (two.trans below)

theorem Apart.asymm (ordered : tree.Ordered) (apart : tree.Apart first second) : ¬ tree.Apart second first := by
  rintro ⟨left', right', later', two', one'⟩
  obtain ⟨left, right, later, one, two⟩ := apart
  obtain ⟨holder, here, there⟩ := later.together
  obtain ⟨holder', here', there'⟩ := later'.together
  by_cases same : left = right'
  · subst same
    obtain rfl : holder = holder' := by
      obtain ⟨entry, found, rfl⟩ := mem_heldBy.1 here
      obtain ⟨entry', found', rfl⟩ := mem_heldBy.1 there'
      cases found.symm.trans found'
      rfl
    have less := later.1
    have less' := later'.1
    rcases two.total two' with below | below
    · have := below.eq_of_heldBy ordered there here'
      omega
    · have := below.eq_of_heldBy ordered here' there
      omega
  · -- Of two nodes above `first`, one is above the other, and so above all of its block.
    rcases one.total one' with below | below
    · exact later.disjoint ordered ((below.beside there' here' same).trans two') two
    · exact later'.disjoint ordered two' ((below.beside here there (Ne.symm same)).trans two)

/-- Of two nodes that are shown, the first one holds the second one, or stands in an earlier node of a block. -/
theorem idsIn_pairwise (steps : Nat) (holder : Option Nat) :
    (tree.idsIn steps holder).Pairwise fun first second => tree.Below first second ∨ tree.Apart first second := by
  induction steps generalizing holder with
  | zero => exact .nil
  | succ steps deeper =>
    refine List.pairwise_flatMap.2 ⟨?_, ?_⟩
    · intro top member
      refine List.pairwise_cons.2 ⟨?_, ?_⟩
      · intro id shown
        exact .inl (below_of_mem_shown (.tail top shown))
      · split
        · exact deeper _
        · exact .nil
    · have increasing : (tree.heldBy holder).Pairwise (· < ·) := List.pairwise_lt_range.filter _
      refine increasing.imp_of_mem ?_
      intro left right here there less first shown second shown'
      obtain ⟨one, found, held⟩ := mem_heldBy.1 here
      obtain ⟨two, found', held'⟩ := mem_heldBy.1 there
      have later : tree.Later left right := ⟨less, one, two, found, found', held'.trans held.symm⟩
      exact .inr ⟨left, right, later, below_of_mem_shown shown, below_of_mem_shown shown'⟩

/-- A node with what is below it, as `nodesIn` shows it. -/
def nodeAt (tree : Tree) (steps : Nat) (id : Nat) : Option Node :=
  tree.entries[id]?.map fun entry => .node entry (if entry.isBlock then tree.nodesIn steps (some id) else [])

/-- The numbers of the nodes that are written among those that `nodesIn` shows, in the order in which they are
written. -/
def writtenIn (format : Format) (tree : Tree) : (steps : Nat) → (holder : Option Nat) → List Nat
  | 0, _ => []
  | steps + 1, holder =>
    (tree.heldBy holder).flatMap fun id =>
      if (tree.nodeAt steps id).any format.shows then
        id :: if tree.isBlock id then writtenIn format tree steps (some id) else []
      else []

/-- The numbers of the nodes that are written, in the order in which they are written. -/
def written (tree : Tree) (format : Format) : List Nat := tree.writtenIn format (tree.entries.size + 1) none

variable {format : Format}

theorem writtenIn_sublist (steps : Nat) (holder : Option Nat) :
    (tree.writtenIn format steps holder).Sublist (tree.idsIn steps holder) := by
  induction steps generalizing holder with
  | zero => exact .slnil
  | succ steps deeper =>
    simp only [writtenIn, idsIn]
    induction tree.heldBy holder with
    | nil => exact .slnil
    | cons top rest tail =>
      rw [List.flatMap_cons, List.flatMap_cons]
      refine .append ?_ tail
      split
      · refine .cons_cons _ ?_
        split
        · exact deeper _
        · exact .slnil
      · exact List.nil_sublist _

theorem showsAny_of_mem {node : Node} {nodes : List Node} (member : node ∈ nodes) (shows : format.shows node = true) :
    format.showsAny nodes = true := by
  induction member with
  | head => simp [Format.showsAny, shows]
  | tail _ _ later => simp [Format.showsAny, later]

/-- Something is written of a block only if a node in it is to be seen. -/
theorem showsAny_of_mem_writtenIn (shown : id ∈ tree.writtenIn format steps holder) :
    format.showsAny (tree.nodesIn steps holder) = true := by
  cases steps with
  | zero => cases shown
  | succ steps =>
    obtain ⟨top, member, shown⟩ := List.mem_flatMap.1 shown
    cases node : tree.nodeAt steps top with
    | none => simp [node] at shown
    | some node' =>
      by_cases seen : format.shows node' = true
      · exact showsAny_of_mem (List.mem_filterMap.2 ⟨top, member, node⟩) seen
      · simp [node, seen] at shown

/-- A node without a block of its own is written if it is to be seen, because then so is what holds it. -/
theorem mem_writtenIn {entry : Entry} (found : tree.entries[id]? = some entry) (leaf : entry.isBlock = false)
    (shows : format.shows (.node entry []) = true) (member : id ∈ tree.idsIn steps holder) :
    id ∈ tree.writtenIn format steps holder := by
  induction steps generalizing holder with
  | zero => cases member
  | succ steps deeper =>
    obtain ⟨top, held, rfl | ⟨block, inner⟩⟩ := mem_idsIn_succ.1 member
    · refine List.mem_flatMap.2 ⟨id, held, ?_⟩
      have seen : (tree.nodeAt steps id).any format.shows = true := by simp [nodeAt, found, leaf, shows]
      rw [if_pos seen]
      exact .head _
    · refine List.mem_flatMap.2 ⟨top, held, ?_⟩
      obtain ⟨entry, name, parameters, found, content⟩ := isBlock_iff.1 block
      have seen : (tree.nodeAt steps top).any format.shows = true := by
        simp [nodeAt, found, Entry.isBlock, content, Format.shows, showsAny_of_mem_writtenIn (deeper inner)]
      rw [if_pos seen, if_pos block]
      exact .tail _ (deeper inner)

/-- Whether a node that holds no others is to be seen. -/
def showsLeaf (tree : Tree) (format : Format) (id : Nat) : Bool :=
  tree.entries[id]?.any fun entry => !entry.isBlock && format.shows (.node entry [])

theorem showsLeaf_iff : tree.showsLeaf format id = true ↔
    ∃ entry, tree.entries[id]? = some entry ∧ entry.isBlock = false ∧ format.shows (.node entry []) = true := by
  simp [showsLeaf, Option.any_eq_true]

theorem mem_written (ordered : tree.Ordered) (shows : tree.showsLeaf format id = true) : id ∈ tree.written format := by
  obtain ⟨entry, found, leaf, shows⟩ := showsLeaf_iff.1 shows
  have present := (Array.getElem?_eq_some_iff.1 found).1
  exact mem_writtenIn found leaf shows (mem_idsIn ordered present (by omega))

theorem Below.eq_of_leaf (ordered : tree.Ordered) (leaf : tree.isBlock top = false) (below : tree.Below top id) :
    id = top := by
  induction below with
  | self => rfl
  | held _ found held same =>
    subst same
    have block := (ordered _ _ found _ held).2
    rw [leaf] at block
    cases block

theorem order_of_idxOf_lt (member : first ∈ tree.written format) (member' : second ∈ tree.written format)
    (less : (tree.written format).idxOf first < (tree.written format).idxOf second) :
    tree.Below first second ∨ tree.Apart first second := by
  have shown : (tree.written format).Sublist (tree.idsIn (tree.entries.size + 1) none) := writtenIn_sublist _ _
  have places := List.pairwise_iff_getElem.1 ((idsIn_pairwise (tree.entries.size + 1) none).sublist shown)
  have order := places _ _ (List.idxOf_lt_length_of_mem member) (List.idxOf_lt_length_of_mem member') less
  rwa [List.getElem_idxOf, List.getElem_idxOf] at order

/-- Of two nodes that stand in different nodes of a block, the one in the earlier node is written first. -/
theorem Apart.idxOf_lt (ordered : tree.Ordered) (apart : tree.Apart first second)
    (member : first ∈ tree.written format) (member' : second ∈ tree.written format) :
    (tree.written format).idxOf first < (tree.written format).idxOf second := by
  by_contra behind
  rcases Nat.lt_or_eq_of_le (Nat.le_of_not_lt behind) with less | same
  · rcases order_of_idxOf_lt member' member less with below | apart'
    · exact apart.not_below ordered below
    · exact apart.asymm ordered apart'
  · obtain rfl := (List.idxOf_inj member').1 same
    exact apart.asymm ordered apart

/-- Two nodes that hold no others stand in different nodes of a block. -/
theorem apart_of_leaves (ordered : tree.Ordered) (shows : tree.showsLeaf format first = true)
    (shows' : tree.showsLeaf format second = true) (different : first ≠ second) :
    tree.Apart first second ∨ tree.Apart second first := by
  have leaf {id : Nat} (shows : tree.showsLeaf format id = true) : tree.isBlock id = false := by
    obtain ⟨entry, found, leaf, -⟩ := showsLeaf_iff.1 shows
    simpa [isBlock, found] using leaf
  have member := mem_written ordered shows
  have member' := mem_written ordered shows'
  rcases Nat.lt_trichotomy ((tree.written format).idxOf first) ((tree.written format).idxOf second) with
    less | same | less
  · rcases order_of_idxOf_lt member member' less with below | apart
    · exact absurd (below.eq_of_leaf ordered (leaf shows)).symm different
    · exact .inl apart
  · exact absurd ((List.idxOf_inj member).1 same) different
  · rcases order_of_idxOf_lt member' member less with below | apart
    · exact absurd (below.eq_of_leaf ordered (leaf shows')) different
    · exact .inr apart

end Tree

/-! What is noted while a tree is written, whatever separates its lines -/

/-- A mapping tells where a construct comes from. -/
structure ComesFrom (construct : Construct) (mapping : Mapping) : Prop where
  source : mapping.source = construct.span.source
  line : mapping.sourceLine = construct.span.pos.line - 1
  column : mapping.sourceColumn = construct.span.pos.column - 1

theorem BeginsAt.comesFrom {css : List Char} {construct : Construct} {mapping : Mapping}
    (begins : BeginsAt css construct mapping) : ComesFrom construct mapping :=
  ⟨begins.source, begins.sourceLine, begins.sourceColumn⟩

/-- One mapping is noted for each construct, in order. -/
def Notes (constructs : List Construct) (before after : Output) : Prop :=
  ∃ noted, after.marks.reverse = before.marks.reverse ++ noted ∧ List.Forall₂ ComesFrom constructs noted

section Notes

variable {format : Format} {constructs rest : List Construct} {before between after : Output} {level : Nat}

theorem Notes.of_marks (same : after.marks = before.marks) : Notes [] before after := ⟨[], by simp [same], .nil⟩

theorem Notes.trans (first : Notes constructs before between) (second : Notes rest between after) :
    Notes (constructs ++ rest) before after := by
  obtain ⟨noted, marks, comes⟩ := first
  obtain ⟨noted', marks', comes'⟩ := second
  exact ⟨noted ++ noted', by rw [marks', marks, List.append_assoc], List.rel_append comes comes'⟩

/-- A mark, the text of its construct, and what is written before the mark and behind that text. -/
theorem Notes.mark {action action' : Output → Output} {added added' : List Char} (construct : Construct)
    (lead : Output.Appends action added) (trail : Output.Appends action' added') (output : Output) :
    Notes [construct] output (action' (((action output).mark construct.span).write construct.text)) := by
  have marks : (action' (((action output).mark construct.span).write construct.text)).marks =
      ((action output).mark construct.span).marks := (trail _).2.trans (Output.appends_write _ _).2
  rw [Notes, marks, Output.mark, List.reverse_cons, (lead output).2]
  exact ⟨_, rfl, .cons ⟨rfl, rfl, rfl⟩ .nil⟩

theorem Format.closeBrace_marks (format : Format) (level : Nat) (output : Output) :
    (format.closeBrace level output).marks = output.marks := by
  have semicolon : output.dropSemicolon.marks = output.marks := by
    unfold Output.dropSemicolon
    split <;> rfl
  have linefeed : (output.dropLinefeed format.linefeed).marks = output.marks := by
    unfold Output.dropLinefeed
    dsimp only
    split <;> rfl
  unfold Format.closeBrace
  cases format.layout with
  | compressed => exact (Output.appends_write _ _).2.trans semicolon
  | nested | compact => exact (format.appends_newline _).2.trans ((Output.appends_write _ _).2.trans linefeed)
  | expanded =>
    exact (format.appends_newline _).2.trans ((Output.appends_write _ _).2.trans (format.appends_indentTo _ _).2)

theorem Notes.closeBrace (notes : Notes constructs before after) :
    Notes constructs before (format.closeBrace level after) := by
  have closed : Notes [] after (format.closeBrace level after) := .of_marks (format.closeBrace_marks level after)
  simpa using notes.trans closed

theorem Format.writeItem_notes {item : Item} (run : format.writeItem level item before = .ok after) :
    Notes (format.itemConstruct? item).toList before after := by
  obtain ⟨blank, begins, -⟩ := format.appends_beginItem level
  cases item with
  | declaration declaration =>
    cases css : declaration.value.css format.places format.isCompressed with
    | error => simp only [writeItem, css, reduceCtorEq] at run
    | ok value =>
      simp only [writeItem, css] at run
      cases run
      simp only [itemConstruct?, css]
      exact .mark ⟨format.declarationText declaration value, declaration.span⟩ begins format.appends_endItem before
  | comment comment =>
    simp only [writeItem] at run
    split at run
    · cases run
      exact .of_marks (((begins.comp (Output.appends_write comment)).comp format.appends_endItem) before).2
    · cases run
      exact .of_marks rfl

theorem Format.writeItems_notes {items : List Item} (run : format.writeItems level items before = .ok after) :
    Notes (items.filterMap format.itemConstruct?) before after := by
  induction items generalizing before with
  | nil =>
    cases run
    exact .of_marks rfl
  | cons item rest tail =>
    rw [writeItems, List.foldlM_cons] at run
    obtain ⟨between, first, later⟩ := Except.bind_eq_ok run
    have both := (writeItem_notes first).trans (tail later)
    cases construct : format.itemConstruct? item with
    | none => simpa [construct] using both
    | some construct' => simpa [construct] using both

variable {sources : List Source}

mutual

theorem Format.writeNode_notes (node : Node) {level : Nat} {before after : Output}
    (run : format.writeNode sources level node before = .ok after) : Notes (format.constructs node) before after := by
  match node with
  | .node entry children =>
    obtain ⟨indent, nested⟩ : ∃ indent, (if format.layout == .nested then entry.depth else level) = indent :=
      ⟨_, rfl⟩
    have indents := format.appends_indentTo indent
    obtain ⟨c, rest, opens⟩ := format.appends_openBrace
    cases content : entry.content with
    | rule selectors =>
      simp only [writeNode, content, nested] at run
      obtain ⟨inner, filled, closing⟩ := Except.bind_eq_ok run
      cases closing
      obtain ⟨comment, placed⟩ := format.appends_writePlace sources indent entry.span
      simp only [Format.constructs, content]
      have begun := Notes.mark ⟨selectors.withoutPlaceholders.css format.isCompressed, entry.span⟩
        (placed.comp indents) opens before
      exact (begun.trans (writeItems_notes filled)).closeBrace
    | block name parameters =>
      simp only [writeNode, content, nested] at run
      obtain ⟨inner, filled, rest⟩ := Except.ite_bind_eq_ok run
      obtain ⟨last, nodes, closing⟩ := Except.ite_bind_eq_ok rest
      cases closing
      simp only [Format.constructs, content]
      have begun := Notes.mark ⟨directiveText name parameters, entry.span⟩ indents opens before
      rw [writeItems_if_shown] at filled
      have held : Notes (format.shownConstructs children) inner last := by
        split at nodes
        · obtain ⟨blank, apart⟩ := format.appends_beforeNodes (entry.items.any format.showsItem)
          exact (Notes.of_marks (apart inner).2).trans (writeNodes_notes children nodes)
        · next none =>
          cases nodes
          rw [shownConstructs_of_hidden (by simpa using none)]
          exact .of_marks rfl
      exact (begun.trans ((writeItems_notes filled).trans held)).closeBrace
    | directive name parameters =>
      simp only [writeNode, content, nested] at run
      cases run
      simp only [Format.constructs, content]
      exact .mark ⟨directiveText name parameters ++ ";", entry.span⟩ indents
        format.appends_newline before
    | comment text =>
      simp only [writeNode, content, nested] at run
      cases run
      simp only [Format.constructs, content]
      exact .mark ⟨text, entry.span⟩ indents format.appends_newline before

theorem Format.writeNodes_notes (nodes : List Node) {level : Nat} {group : Bool} {before after : Output}
    (run : format.writeNodes sources level group nodes before = .ok after) :
    Notes (format.shownConstructs nodes) before after := by
  match nodes with
  | [] =>
    cases run
    exact .of_marks rfl
  | node :: rest =>
    simp only [writeNodes] at run
    split at run
    next shown =>
      obtain ⟨next, here, later⟩ := Except.bind_eq_ok run
      have separated : Notes [] before
          (if (group && format.startsGroup level node.entry) = true then format.newline before else before) := by
        split
        · exact .of_marks (format.appends_newline before).2
        · exact .of_marks rfl
      rw [shownConstructs, if_pos shown]
      exact (separated.trans (writeNode_notes node here)).trans (writeNodes_notes rest later)
    next hidden =>
      rw [shownConstructs, if_neg hidden]
      exact writeNodes_notes rest run

end

/-- One mapping is left for each construct. -/
theorem write_comesFrom {tree : Tree} {out : Written} (run : tree.write format = .ok out) :
    List.Forall₂ ComesFrom (format.shownConstructs tree.forest) out.mappings := by
  obtain ⟨output, nodes, rfl⟩ := Except.map_eq_ok run
  obtain ⟨noted, marks, comes⟩ := Format.writeNodes_notes tree.forest nodes
  rw [Output.empty, List.reverse_nil, List.nil_append] at marks
  subst marks
  unfold Format.declareEncoding
  split
  · exact comes
  · split
    · refine List.forall₂_map_right_iff.2 (comes.imp fun construct mapping from_ => ?_)
      split
      · exact ⟨from_.source, from_.line, from_.column⟩
      · exact from_
    · exact List.forall₂_map_right_iff.2 (comes.imp fun _ _ from_ => ⟨from_.source, from_.line, from_.column⟩)

end Notes

/-! The constructs of each node -/

namespace Tree

variable {tree : Tree} {format : Format} {order : List Nat}

/-- What is written of a node itself and has a mapping. -/
def constructsOf (tree : Tree) (format : Format) (id : Nat) : List Construct :=
  (tree.entries[id]?.map fun entry => format.constructs (.node entry [])).getD []

theorem constructs_node (entry : Entry) (children : List Node) : format.constructs (.node entry children) =
    format.constructs (.node entry []) ++ if entry.isBlock then format.shownConstructs children else [] := by
  cases content : entry.content <;>
    simp [Format.constructs, Format.shownConstructs, Entry.isBlock, content]

theorem shownConstructs_nodesIn (steps : Nat) (holder : Option Nat) :
    format.shownConstructs (tree.nodesIn steps holder) =
      (tree.writtenIn format steps holder).flatMap (tree.constructsOf format) := by
  induction steps generalizing holder with
  | zero => rfl
  | succ steps deeper =>
    simp only [nodesIn, writtenIn]
    induction tree.heldBy holder with
    | nil => rfl
    | cons top rest tail =>
      rw [List.flatMap_cons, List.flatMap_append, ← tail]
      cases found : tree.entries[top]? with
      | none => simp [nodeAt, found]
      | some entry =>
        simp only [nodeAt, isBlock, found, Option.map_some, Option.any_some, List.filterMap_cons,
          Format.shownConstructs]
        refine congrArg (· ++ _) ?_
        have own : tree.constructsOf format top = format.constructs (.node entry []) := by simp [constructsOf, found]
        by_cases shown : format.shows (.node entry (if entry.isBlock then tree.nodesIn steps (some top) else [])) = true
        · rw [if_pos shown, if_pos shown, constructs_node, List.flatMap_cons, own]
          cases block : entry.isBlock with
          | true => simp [deeper]
          | false => simp
        · rw [if_neg shown, if_neg shown, List.flatMap_nil]

/-- What is noted for the nodes in some order is what is noted for each of them. -/
theorem exists_marks {related : Construct → Mapping → Prop} {constructs : Nat → List Construct}
    {mappings : List Mapping} (nodup : order.Nodup) (all : List.Forall₂ related (order.flatMap constructs) mappings) :
    ∃ marks : Nat → List Mapping, mappings = order.flatMap marks ∧
      ∀ id ∈ order, List.Forall₂ related (constructs id) (marks id) := by
  induction order generalizing mappings with
  | nil =>
    cases all
    exact ⟨fun _ => [], rfl, nofun⟩
  | cons first rest later =>
    obtain ⟨fresh, nodup⟩ := List.nodup_cons.1 nodup
    rw [List.flatMap_cons] at all
    have here := (List.forall₂_take_append _ _ _ all.flip).flip
    obtain ⟨marks, same, each⟩ := later nodup (List.forall₂_drop_append _ _ _ all.flip).flip
    have other : ∀ id ∈ rest, Function.update marks first (mappings.take (constructs first).length) id = marks id := by
      intro id member
      have different : id ≠ first := fun same => fresh (same ▸ member)
      exact Function.update_of_ne different _ _
    refine ⟨Function.update marks first (mappings.take (constructs first).length), ?_, ?_⟩
    · rw [List.flatMap_cons, Function.update_self, List.flatMap_congr other, ← same, List.take_append_drop]
    · intro id member
      rcases List.mem_cons.1 member with rfl | member
      · rwa [Function.update_self]
      · rw [other id member]
        exact each id member

theorem nodup_written (ordered : tree.Ordered) : (tree.written format).Nodup :=
  (writtenIn_sublist _ _).nodup (nodup_idsIn ordered _ _)

/-- Each node that is written has the mappings of its constructs. If lines end in a line feed, they stand in the text in
the order of the nodes. -/
theorem write_marks (ordered : tree.Ordered) {out : Written} (run : tree.write format = .ok out) :
    ∃ marks : Nat → List Mapping, out.mappings = (tree.written format).flatMap marks ∧
      (∀ id ∈ tree.written format, List.Forall₂ ComesFrom (tree.constructsOf format id) (marks id)) ∧
      (EndsLine format.linefeed →
        (∀ id ∈ tree.written format,
          List.Forall₂ (BeginsAt out.css.toList) (tree.constructsOf format id) (marks id)) ∧
        (tree.written format).Pairwise fun first second =>
          ∀ mark ∈ marks first, ∀ mark' ∈ marks second, mark.place.Before mark'.place) := by
  have constructs : format.shownConstructs tree.forest = (tree.written format).flatMap (tree.constructsOf format) :=
    shownConstructs_nodesIn _ _
  by_cases ends : EndsLine format.linefeed
  · obtain ⟨begins, places⟩ := (mappings_at_constructs tree format ends).1 out run
    rw [constructs] at begins
    obtain ⟨marks, same, each⟩ := exists_marks (nodup_written ordered) begins
    refine ⟨marks, same, fun id member => (each id member).imp fun _ _ => BeginsAt.comesFrom, fun _ => ⟨each, ?_⟩⟩
    rw [same] at places
    exact (List.pairwise_flatMap.1 places).2
  · have comes := write_comesFrom run
    rw [constructs] at comes
    obtain ⟨marks, same, each⟩ := exists_marks (nodup_written ordered) comes
    exact ⟨marks, same, each, fun ends' => absurd ends' ends⟩

end Tree

end Stylesheet.Css
