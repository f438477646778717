import Stylesheet.Proofs.WrittenText

/-! A tree without the places in the sources that it names. Unless the places of rules are given in comments, the
CSS of a tree is that of its bare tree. -/

namespace Stylesheet.Css

def Span.nowhere : Span := ⟨0, .start⟩

def Item.bare : Item → Item
  | .declaration shown => .declaration { shown with span := .nowhere }
  | .comment text => .comment text

def Entry.bare (entry : Entry) : Entry := { entry with items := entry.items.map Item.bare, span := .nowhere }

mutual

def Node.bare : Node → Node
  | .node entry children => .node entry.bare (Node.bareAll children)

def Node.bareAll : List Node → List Node
  | [] => []
  | first :: rest => first.bare :: Node.bareAll rest

end

theorem Node.bareAll_eq_map (nodes : List Node) : Node.bareAll nodes = nodes.map Node.bare := by
  induction nodes with
  | nil => rfl
  | cons first rest tail => rw [bareAll, tail, List.map_cons]

namespace Tree

variable {tree : Tree}

def bare (tree : Tree) : Tree := ⟨tree.entries.map Entry.bare, []⟩

theorem getElem?_bare (tree : Tree) (id : Nat) : tree.bare.entries[id]? = tree.entries[id]?.map Entry.bare := by
  simp [bare]

theorem size_bare (tree : Tree) : tree.bare.entries.size = tree.entries.size := by simp [bare]

theorem isBlock_bare (tree : Tree) (id : Nat) : tree.bare.isBlock id = tree.isBlock id := by
  rw [isBlock, isBlock, getElem?_bare]
  cases tree.entries[id]? <;> rfl

theorem bare_push (tree : Tree) (holder : Option Nat) (content : Content) (depth : Nat) (span : Span) :
    (tree.push holder content depth span).2.bare = (tree.bare.push holder content depth .nowhere).2 := by
  simp only [push, funext tree.isBlock_bare]
  simp [bare, Entry.bare]

theorem bare_pushItem (tree : Tree) (id : Nat) (item : Item) :
    (tree.pushItem id item).bare = tree.bare.pushItem id item.bare := by
  simp only [bare, pushItem, mk.injEq, and_true]
  refine Array.ext_getElem? fun other => ?_
  simp only [Array.getElem?_map, Array.getElem?_modify]
  cases tree.entries[other]? with
  | none => split <;> rfl
  | some entry =>
    split
    · simp only [Option.map_some, Option.some.injEq]
      have takes : entry.bare.takesItems = entry.takesItems := rfl
      rw [takes]
      split
      · simp [Entry.bare]
      · rfl
    · rfl

theorem bare_addSource (tree : Tree) (path text : String) : (tree.addSource path text).2.bare = tree.bare := by
  unfold addSource
  split <;> rfl

theorem heldBy_bare (tree : Tree) (holder : Option Nat) : tree.bare.heldBy holder = tree.heldBy holder := by
  simp only [heldBy, size_bare, getElem?_bare]
  refine List.filter_congr fun id _ => ?_
  cases tree.entries[id]? <;> rfl

theorem nodesIn_bare (tree : Tree) (steps : Nat) (holder : Option Nat) :
    tree.bare.nodesIn steps holder = (tree.nodesIn steps holder).map Node.bare := by
  induction steps generalizing holder with
  | zero => rfl
  | succ steps deeper =>
    rw [nodesIn, nodesIn, heldBy_bare, List.map_filterMap]
    refine List.filterMap_congr fun id _ => ?_
    rw [getElem?_bare]
    cases tree.entries[id]? with
    | none => rfl
    | some entry =>
      have block : entry.bare.isBlock = entry.isBlock := rfl
      simp only [Option.map_some, Node.bare, Node.bareAll_eq_map, block, deeper]
      split <;> rfl

theorem forest_bare (tree : Tree) : tree.bare.forest = tree.forest.map Node.bare := by
  rw [forest, forest, size_bare, nodesIn_bare]

end Tree

namespace Output

/-- An action whose text does not depend on the marks. -/
def Uniform (action : Output → Output) : Prop :=
  ∀ {first second : Output}, first.text = second.text → (action first).text = (action second).text

theorem Appends.uniform {action : Output → Output} {added : List Char} (appends : Appends action added) :
    Uniform action := by
  intro first second same
  rw [(appends first).1, (appends second).1, same]

theorem uniform_dropSemicolon : Uniform dropSemicolon := by
  intro first second same
  rw [(dropSemicolon_text first).1, (dropSemicolon_text second).1, same]

theorem uniform_dropLinefeed (linefeed : String) : Uniform (·.dropLinefeed linefeed) := by
  intro first second same
  have reversed : first.reversed = second.reversed := List.reverse_inj.1 same
  simp only [dropLinefeed, text, reversed]
  split
  · rfl
  · exact congrArg List.reverse reversed

end Output

open Output

variable {format : Format}

theorem Format.uniform_closeBrace (level : Nat) : Uniform (format.closeBrace level) := by
  intro first second same
  unfold closeBrace
  split
  · exact (appends_write _).uniform (uniform_dropSemicolon same)
  · exact format.appends_newline.uniform ((appends_write _).uniform (uniform_dropLinefeed _ same))
  · exact format.appends_newline.uniform ((appends_write _).uniform (uniform_dropLinefeed _ same))
  · exact format.appends_newline.uniform ((appends_write _).uniform ((format.appends_indentTo level).uniform same))

/-- Two attempts to write give the same text, or fail for the same reason. -/
inductive SameWriting : Except WriteError Output → Except WriteError Output → Prop
  | ok {first second : Output} (same : first.text = second.text) : SameWriting (.ok first) (.ok second)
  | error {first second : WriteError} (same : first.error = second.error) :
    SameWriting (.error first) (.error second)

theorem SameWriting.bind {first second : Except WriteError Output} {next next' : Output → Except WriteError Output}
    (same : SameWriting first second)
    (rest : ∀ {output output'}, output.text = output'.text → SameWriting (next output) (next' output')) :
    SameWriting (first >>= next) (second >>= next') := by
  cases same with
  | ok same => exact rest same
  | error same => exact .error same

theorem Format.showsItem_bare (item : Item) : format.showsItem item.bare = format.showsItem item := by
  cases item <;> rfl

theorem Format.any_showsItem_bare (entry : Entry) :
    entry.bare.items.any format.showsItem = entry.items.any format.showsItem := by
  simp [Entry.bare, Function.comp_def, showsItem_bare]

theorem Format.writeItem_bare (level : Nat) (item : Item) {first second : Output} (same : first.text = second.text) :
    SameWriting (format.writeItem level item first) (format.writeItem level item.bare second) := by
  cases item with
  | declaration declaration =>
    obtain ⟨_, begins, -⟩ := format.appends_beginItem level
    simp only [writeItem, Item.bare]
    split
    · exact .ok (format.appends_endItem.uniform ((appends_write _).uniform (begins.uniform same)))
    · exact .error rfl
  | comment text =>
    obtain ⟨_, begins, -⟩ := format.appends_beginItem level
    simp only [writeItem, Item.bare]
    split
    · exact .ok (format.appends_endItem.uniform ((appends_write _).uniform (begins.uniform same)))
    · exact .ok same

theorem Format.writeItems_bare (level : Nat) (items : List Item) {first second : Output}
    (same : first.text = second.text) :
    SameWriting (format.writeItems level items first) (format.writeItems level (items.map Item.bare) second) := by
  induction items generalizing first second with
  | nil => exact .ok same
  | cons item rest tail => exact (format.writeItem_bare level item same).bind fun same => tail same

mutual

theorem Format.shows_bare (format : Format) : (node : Node) → format.shows node.bare = format.shows node
  | .node entry children => by
    rw [Node.bare, shows, shows, any_showsItem_bare, showsAny_bare format children]
    rfl

theorem Format.showsAny_bare (format : Format) :
    (nodes : List Node) → format.showsAny (Node.bareAll nodes) = format.showsAny nodes
  | [] => rfl
  | first :: rest => by rw [Node.bareAll, showsAny, showsAny, shows_bare format first, showsAny_bare format rest]

end

theorem Node.entry_bare (node : Node) : node.bare.entry = node.entry.bare := by
  cases node
  rw [bare, entry, entry]

mutual

theorem Format.writeNode_bare (format : Format) (off : format.sourceComments = false) (sources sources' : List Source) :
    (node : Node) → {level : Nat} → {first second : Output} → first.text = second.text →
      SameWriting (format.writeNode sources level node first) (format.writeNode sources' level node.bare second)
  | .node entry children, level, first, second, same => by
    have content : entry.bare.content = entry.content := rfl
    have depth : entry.bare.depth = entry.depth := rfl
    have items : entry.bare.items = entry.items.map Item.bare := rfl
    obtain ⟨indent, nested⟩ : ∃ indent, (if format.layout == .nested then entry.depth else level) = indent :=
      ⟨_, rfl⟩
    have begun (span span' : Span) (text : String) : (((format.indentTo indent first).mark span).write text).text =
        (((format.indentTo indent second).mark span').write text).text :=
      (appends_write text).uniform ((format.appends_indentTo indent).uniform same)
    have opened (span span' : Span) (text : String) := format.appends_openBrace.choose_spec.choose_spec.uniform
      (begun span span' text)
    rw [Node.bare]
    simp only [writeNode, content, depth, items, nested]
    split
    · have plain (span : Span) (sources : List Source) (output : Output) :
          format.writePlace sources indent span output = output := by
        rw [writePlace, off]
        rfl
      simp only [plain]
      exact (format.writeItems_bare indent entry.items (opened _ _ _)).bind fun same =>
        .ok (format.uniform_closeBrace indent same)
    · simp only [← items, any_showsItem_bare, showsAny_bare]
      have rest {one two : Output} (same : one.text = two.text) : SameWriting
          (if format.showsAny children then do
            return format.closeBrace indent (← format.writeNodes sources (level + 1) false children
              (format.beforeNodes (entry.items.any format.showsItem) one))
          else do return format.closeBrace indent (← .ok one))
          (if format.showsAny children then do
            return format.closeBrace indent (← format.writeNodes sources' (level + 1) false (Node.bareAll children)
              (format.beforeNodes (entry.items.any format.showsItem) two))
          else do return format.closeBrace indent (← .ok two)) := by
        split
        · obtain ⟨_, apart⟩ := format.appends_beforeNodes (entry.items.any format.showsItem)
          exact (writeNodes_bare format off sources sources' children (apart.uniform same)).bind fun same =>
            .ok (format.uniform_closeBrace indent same)
        · exact .ok (format.uniform_closeBrace indent same)
      split
      · exact (format.writeItems_bare indent entry.items (opened _ _ _)).bind rest
      · exact (SameWriting.ok (opened _ _ _)).bind rest
    · exact .ok (format.appends_newline.uniform (begun _ _ _))
    · exact .ok (format.appends_newline.uniform (begun _ _ _))

theorem Format.writeNodes_bare (format : Format) (off : format.sourceComments = false)
    (sources sources' : List Source) :
    (nodes : List Node) → {level : Nat} → {afterGroup : Bool} → {first second : Output} → first.text = second.text →
      SameWriting (format.writeNodes sources level afterGroup nodes first)
        (format.writeNodes sources' level afterGroup (Node.bareAll nodes) second)
  | [], _, _, _, _, same => .ok same
  | node :: rest, level, afterGroup, first, second, same => by
    rw [Node.bareAll]
    simp only [writeNodes, shows_bare, Node.entry_bare]
    split
    · refine (writeNode_bare format off sources sources' node ?_).bind fun same =>
        writeNodes_bare format off sources sources' rest same
      have group : format.startsGroup level node.entry.bare = format.startsGroup level node.entry := rfl
      rw [group]
      split
      · exact format.appends_newline.uniform same
      · exact same
    · exact writeNodes_bare format off sources sources' rest same

end

theorem Format.declareEncoding_css (format : Format) {first second : Output} (same : first.text = second.text) :
    (format.declareEncoding first).css = (format.declareEncoding second).css := by
  have reversed : first.reversed = second.reversed := List.reverse_inj.1 same
  simp only [declareEncoding, reversed]
  split
  · rfl
  · split <;> rfl

/-- The CSS of a tree, or why there is none, without the place where it fails. -/
def Tree.css (format : Format) (tree : Tree) : Except OperationError String :=
  ((tree.write format).map (·.css)).mapError (·.error)

/-- The CSS does not depend on the sources and on the places in them. -/
theorem Tree.css_bare (format : Format) (off : format.sourceComments = false) (tree : Tree) :
    tree.css format = tree.bare.css format := by
  have same : SameWriting (format.writeNodes tree.sources 0 false tree.forest .empty)
      (format.writeNodes tree.bare.sources 0 false (Node.bareAll tree.forest) .empty) :=
    Format.writeNodes_bare format off tree.sources tree.bare.sources tree.forest rfl
  rw [css, css, write, write, forest_bare, ← Node.bareAll_eq_map]
  generalize format.writeNodes tree.sources 0 false tree.forest .empty = one,
    format.writeNodes tree.bare.sources 0 false (Node.bareAll tree.forest) .empty = two at same
  cases same with
  | ok same => exact congrArg Except.ok (format.declareEncoding_css same)
  | error same => exact congrArg Except.error same

end Stylesheet.Css
