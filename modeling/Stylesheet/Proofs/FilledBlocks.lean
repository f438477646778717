import Stylesheet.Proofs.Wording

/-! What stands between braces. A rule or a block is written only if it has something to show, and what it shows is
between its braces in the end: a closing brace takes back a semicolon or a line separator. In a compact text no line
separator stands behind the items of a node, so one that reads like these items takes some of them back. -/

namespace Stylesheet.Css
open Output

namespace Format

section Texts

variable (format : Format)

def brace : List Char := if format.isCompressed then ['\x7b'] else [' ', '\x7b']

/-- What a node begins with, up to the opening brace if it has one. -/
def beginning (entry : Entry) : List Char :=
  match entry.content with
  | .rule selectors => (selectors.withoutPlaceholders.css format.isCompressed).toList ++ format.brace
  | .block name parameters => (directiveText name parameters).toList ++ format.brace
  | .directive name parameters => (directiveText name parameters).toList
  | .comment text => text.text.toList

/-- The text of an item that is to be seen. -/
def itemText? : Item → Option (List Char)
  | .declaration shown =>
    match shown.value.css format.places format.isCompressed with
    | .ok value => some (format.declarationText shown value).toList
    | .error _ => none
  | .comment text => if format.showsComment text then some text.text.toList else none

def itemTexts (entry : Entry) : List (List Char) := entry.items.filterMap format.itemText?

/-- The texts that a node has to show: its items, of which a semicolon at the end may be missing, and the beginnings of
the nodes that it holds. -/
def inside : Node → List (List Char)
  | .node entry children =>
    (format.itemTexts entry).map withoutSemicolon ++
      (children.filter format.shows).map fun child => format.beginning child.entry

mutual

/-- The nodes that are written: those that are to be seen, and in blocks those inside. -/
def shownNodes : List Node → List Node
  | [] => []
  | node :: rest => (if format.shows node then node :: shownInside node else []) ++ shownNodes rest

def shownInside : Node → List Node
  | .node entry children => if entry.isBlock then shownNodes children else []

end

/-- A text has what is written of a node, up to the brace that closes it. Behind the beginning of the node stands one of
the texts that it has to show. -/
def Filled (sources : List Source) (css : List Char) (node : Node) : Prop :=
  ∃ level output written lead body, format.writeNode sources level node output = .ok written ∧
    let own := lead ++ format.beginning node.entry ++ body ++ ['\x7d']
    written.text = output.text ++ own ++ format.lineEnd ∧ output.text ++ own <:+: css ∧
      ∃ text ∈ format.inside node, text ≠ [] ∧ text <:+: body

/-- Whether the brace that closes a node stands right behind its items. -/
def endsInItems : Node → Bool
  | .node entry children =>
    match entry.content with
    | .rule _ => true
    | .block _ _ => !format.showsAny children
    | .directive _ _ | .comment _ => false

/-- What stands in a compact text behind the first of some items, with the semicolon that this one may end in. -/
def behindFirst : List (List Char) → List Char
  | [] => []
  | first :: rest => first.drop (withoutSemicolon first).length ++ rest.flatMap (' ' :: ·)

/-- In a compact text no line separator stands behind the items of a node, but the closing brace looks for one. The first
item is spared: what is taken for a separator stands behind it, or the line of the node neither ends in the separator
nor is the end of it. -/
def SparesFirst : Node → Prop
  | .node entry _ =>
    let linefeed := format.linefeed.toList
    let line := format.beginning entry ++ (format.itemTexts entry).flatMap (' ' :: ·)
    linefeed <:+ behindFirst (format.itemTexts entry) ∨ ¬ linefeed <:+ line ∧ ¬ line <:+ linefeed

instance : DecidablePred format.SparesFirst
  | .node _ _ => inferInstanceAs (Decidable (_ ∨ ¬ _ ∧ ¬ _))

/-- No line separator is taken for the items of a node that is written. -/
def KeepsItems (nodes : List Node) : Prop :=
  format.layout = .compact →
    ∀ node ∈ format.shownNodes nodes, format.endsInItems node = true → format.SparesFirst node

instance (nodes : List Node) : Decidable (format.KeepsItems nodes) :=
  inferInstanceAs (Decidable (_ → ∀ node ∈ format.shownNodes nodes, _))

end Texts

variable {format : Format} {kept css css' : List Char} {output written : Output} {node : Node} {sources : List Source}

theorem Filled.mono (filled : format.Filled sources css node) (more : css <:+: css') :
    format.Filled sources css' node := by
  obtain ⟨level, output, written, lead, body, run, added, here, shown⟩ := filled
  exact ⟨level, output, written, lead, body, run, added, here.trans more, shown⟩

theorem beginning_ne_nil (format : Format) (entry : Entry) : format.beginning entry ≠ [] := by
  have brace : format.brace ≠ [] := by
    unfold Format.brace
    split <;> exact List.cons_ne_nil _ _
  unfold beginning
  split
  · exact List.append_ne_nil_of_right_ne_nil _ brace
  · exact List.append_ne_nil_of_right_ne_nil _ brace
  · simp [directiveText]
  · next text _ =>
    obtain ⟨inner, closed⟩ := text.closed
    simp [← closed]

theorem appends_brace (format : Format) :
    ∃ rest, Appends format.openBrace (format.brace ++ rest) ∧ (format.layout = .compact → rest = []) := by
  unfold openBrace brace isCompressed
  cases layout : format.layout with
  | compressed => exact ⟨[], appends_write "\x7b", fun _ => rfl⟩
  | compact => exact ⟨[], appends_write " \x7b", fun _ => rfl⟩
  | nested | expanded => exact ⟨_, (appends_write " \x7b").comp format.appends_newline, nofun⟩

/-! What a closing brace leaves -/

theorem takenBack_isPrefix (format : Format) (text : List Char) : format.takenBack text <+: text := by
  unfold takenBack
  cases format.layout with
  | compressed => exact withoutSemicolon_isPrefix text
  | expanded => exact List.prefix_rfl
  | nested | compact =>
    dsimp only
    split
    · exact List.take_prefix _ _
    · exact List.prefix_rfl

theorem withoutSemicolon_concat {c : Char} (other : c ≠ ';') (text : List Char) :
    withoutSemicolon (text ++ [c]) = text ++ [c] := by
  rw [withoutSemicolon, List.getLast?_concat, if_neg (by simpa using other)]

/-- What stands of a text without its semicolon stands if the text goes on. -/
theorem withoutSemicolon_prefix_append (text more : List Char) :
    withoutSemicolon text <+: withoutSemicolon (text ++ more) := by
  by_cases nothing : more = []
  · simp only [nothing, List.append_nil, List.prefix_rfl]
  · rw [withoutSemicolon_append _ nothing]
    exact (withoutSemicolon_isPrefix text).trans (List.prefix_append _ _)

theorem Closable.exists_append (closable : format.Closable kept written) : ∃ more, written.text = kept ++ more := by
  obtain ⟨more, same⟩ := closable.trans (format.takenBack_isPrefix written.text)
  exact ⟨more, same.symm⟩

/-- Behind a line, a closing brace takes the line separator, and a semicolon if there are no lines. -/
theorem closable_lineEnd (same : written.text = kept ++ format.lineEnd) :
    format.Closable (withoutSemicolon kept) written := by
  have short := withoutSemicolon_isPrefix kept
  unfold Closable takenBack
  rw [same]
  unfold lineEnd isCompressed
  cases layout : format.layout with
  | compressed => simp
  | expanded => exact short.trans (List.prefix_append _ _)
  | nested | compact =>
    simp only [reduceCtorEq, beq_iff_eq, if_false, List.isSuffixOf_iff_suffix]
    rw [if_pos (List.suffix_append _ _), List.length_append, Nat.add_sub_cancel, List.take_left' rfl]
    exact short

/-- In all layouts but the compact one, items end their lines, if there are lines. -/
theorem itemEnd_eq (other : format.layout ≠ .compact) : format.itemEnd = format.lineEnd := by
  unfold itemEnd lineEnd isCompressed
  cases layout : format.layout with
  | compressed => rfl
  | compact => exact absurd layout other
  | nested | expanded => rfl

/-- A line separator that is taken back of a compact text leaves what it does not reach. -/
theorem takenBack_of_suffix {separator tail : List Char} (compact : format.layout = .compact)
    (separates : format.linefeed.toList = separator) (short : separator <:+ tail) :
    kept <+: format.takenBack (kept ++ tail) := by
  obtain ⟨more, rfl⟩ := short
  unfold takenBack
  rw [compact, separates]
  dsimp only
  rw [← List.append_assoc, if_pos (List.isSuffixOf_iff_suffix.2 (List.suffix_append _ _)), List.length_append,
    Nat.add_sub_cancel, List.take_left' rfl]
  exact List.prefix_append _ _

/-- Nothing is taken back of a compact text that does not end in the line separator. -/
theorem takenBack_of_not_suffix {before line : List Char} (compact : format.layout = .compact)
    (apart : ¬ format.linefeed.toList <:+ line) (longer : ¬ line <:+ format.linefeed.toList) :
    format.takenBack (before ++ line) = before ++ line := by
  unfold takenBack
  rw [compact]
  dsimp only
  rw [if_neg]
  intro found
  have ends := List.isSuffixOf_iff_suffix.1 found
  rcases List.suffix_or_suffix_of_suffix ends (List.suffix_append before line) with inside | outside
  · exact apart inside
  · exact longer outside

/-- The first item of a node whose closing brace stands behind its items is not taken back. -/
theorem SparesFirst.takenBack {entry : Entry} {children : List Node} {first : List Char} {rest : List (List Char)}
    (spares : format.SparesFirst (.node entry children)) (compact : format.layout = .compact)
    (texts : format.itemTexts entry = first :: rest) (before : List Char) :
    before ++ (format.beginning entry ++ ' ' :: withoutSemicolon first) <+:
      format.takenBack (before ++ (format.beginning entry ++ (first :: rest).flatMap (' ' :: ·))) := by
  have ends := List.prefix_iff_eq_append.1 (withoutSemicolon_isPrefix first)
  have line : before ++ (format.beginning entry ++ (first :: rest).flatMap (' ' :: ·)) =
      before ++ (format.beginning entry ++ ' ' :: withoutSemicolon first) ++ behindFirst (first :: rest) := by
    conv_lhs => rw [List.flatMap_cons, ← ends]
    simp only [behindFirst, List.append_assoc, List.cons_append]
  rw [SparesFirst, texts] at spares
  obtain short | ⟨apart, longer⟩ := spares
  · rw [line]
    exact takenBack_of_suffix compact rfl short
  · rw [takenBack_of_not_suffix compact apart longer, line]
    exact List.prefix_append _ _

/-- Nothing is taken back of a closing brace. -/
theorem closable_closeBrace (level : Nat) (closable : format.Closable kept output) :
    ∃ rest, (format.closeBrace level output).text = kept ++ rest ++ ['\x7d'] ++ format.lineEnd ∧
      format.Closable (kept ++ rest ++ ['\x7d']) (format.closeBrace level output) := by
  obtain ⟨more, taken⟩ := closable
  obtain ⟨lead, closing⟩ : ∃ lead, format.closing level = lead ++ '\x7d' :: format.lineEnd := by
    unfold Format.closing lineEnd isCompressed
    cases format.layout with
    | compressed => exact ⟨[], rfl⟩
    | nested | compact => exact ⟨[' '], rfl⟩
    | expanded => exact ⟨_, rfl⟩
  have closed : (format.closeBrace level output).text = kept ++ (more ++ lead) ++ ['\x7d'] ++ format.lineEnd := by
    rw [(format.closeBrace_text level output).1, ← taken, closing]
    simp only [List.append_assoc, List.singleton_append]
  refine ⟨more ++ lead, closed, ?_⟩
  rw [← withoutSemicolon_concat (by decide) (kept ++ (more ++ lead))]
  exact closable_lineEnd closed

/-! What is written stays -/

theorem declarationText_ends (format : Format) (shown : Declaration) (value : String) :
    ∃ start, (format.declarationText shown value).toList = start ++ [';'] ∧ start ≠ [] := by
  refine ⟨(shown.property ++ (if format.isCompressed then ":" else ": ") ++ value
    ++ (if shown.important then " !important" else "")).toList, ?_, ?_⟩
  · rw [declarationText, String.toList_append]
    rfl
  · split <;> simp

variable {level : Nat} {item : Item} {items : List Item}

/-- An item that is to be seen has a text, and something of it is left without its semicolon. -/
theorem itemText_ne_nil {text : List Char} (found : format.itemText? item = some text) :
    withoutSemicolon text ≠ [] := by
  cases item with
  | declaration shown =>
    rw [itemText?] at found
    split at found
    · next value _ =>
      obtain ⟨start, ends, nonempty⟩ := declarationText_ends format shown value
      cases found
      simpa [withoutSemicolon, ends] using nonempty
    · cases found
  | comment text =>
    rw [itemText?] at found
    split at found
    · obtain ⟨inner, closed⟩ := text.closed
      have last : text.text.toList = inner ++ ['*'] ++ ['/'] := by simp [← closed]
      cases found
      rw [last, withoutSemicolon_concat (by decide)]
      exact List.concat_ne_nil _ _
    · cases found

/-- What stands before an item and behind it is the same for all items of a node. -/
theorem writeItem_text (format : Format) (level : Nat) :
    ∃ lead, (format.layout = .compact → lead = [' ']) ∧ ∀ {item output written},
      format.writeItem level item output = .ok written →
        written.text = output.text ++ (format.itemText? item).toList.flatMap (lead ++ · ++ format.itemEnd) ∧
          (format.showsItem item = true → format.itemText? item ≠ none) := by
  obtain ⟨lead, begins, compact⟩ := format.appends_beginItem level
  refine ⟨lead, compact, fun {item output written} run => ?_⟩
  have line (text : String) {begun : Output} (same : begun.text = output.text ++ lead) :
      (format.endItem (begun.write text)).text =
        output.text ++ (some text.toList).toList.flatMap (lead ++ · ++ format.itemEnd) := by
    have whole := (((appends_write text).comp format.appends_endItem) begun).1
    rw [same] at whole
    simpa using whole
  cases item with
  | declaration shown =>
    cases css : shown.value.css format.places format.isCompressed with
    | error => simp only [writeItem, css, reduceCtorEq] at run
    | ok value =>
      simp only [writeItem, css] at run
      cases run
      simp only [itemText?, css]
      exact ⟨line _ (begins output).1, fun _ => Option.some_ne_none _⟩
  | comment text =>
    rw [writeItem] at run
    rw [itemText?, showsItem]
    split at run
    · next shown =>
      cases run
      rw [if_pos shown]
      exact ⟨line _ (begins output).1, fun _ => Option.some_ne_none _⟩
    · next hidden =>
      cases run
      rw [if_neg hidden]
      exact ⟨(List.append_nil _).symm, fun shown => absurd shown hidden⟩

/-- The items of a node that are to be seen stand one behind the other. -/
theorem writeItems_text (format : Format) (level : Nat) :
    ∃ lead, (format.layout = .compact → lead = [' ']) ∧ ∀ {items output written},
      format.writeItems level items output = .ok written →
        written.text = output.text ++ (items.filterMap format.itemText?).flatMap (lead ++ · ++ format.itemEnd) ∧
          (items.any format.showsItem = true → items.filterMap format.itemText? ≠ []) := by
  obtain ⟨lead, compact, each⟩ := format.writeItem_text level
  refine ⟨lead, compact, fun {items} => ?_⟩
  induction items with
  | nil =>
    intro output written run
    cases run
    exact ⟨(List.append_nil _).symm, nofun⟩
  | cons item rest ih =>
    intro output written run
    rw [writeItems, List.foldlM_cons] at run
    obtain ⟨between, first, later⟩ := Except.bind_eq_ok run
    obtain ⟨here, seen⟩ := each first
    obtain ⟨behind, others⟩ := ih later
    rw [here] at behind
    cases found : format.itemText? item with
    | none =>
      rw [List.filterMap_cons_none found, behind, found]
      refine ⟨by simp, fun shown => others ?_⟩
      have hidden : format.showsItem item = false := by
        by_contra other
        exact seen (by simpa using other) found
      simpa [hidden] using shown
    | some text =>
      rw [List.filterMap_cons_some found, behind, found]
      exact ⟨by simp, fun _ => List.cons_ne_nil _ _⟩

/-- Behind the items of a node stands a closing brace, and the first of them is left. -/
theorem writeItems_closable {entry : Entry} {children : List Node} {opened filled : Output} {before rest : List Char}
    (spares : format.layout = .compact → format.SparesFirst (.node entry children))
    (begun : opened.text = before ++ (format.beginning entry ++ rest)) (tight : format.layout = .compact → rest = [])
    (shown : entry.items.any format.showsItem = true) (run : format.writeItems level entry.items opened = .ok filled) :
    ∃ added, format.Closable (opened.text ++ added) filled ∧
      ∃ text ∈ (format.itemTexts entry).map withoutSemicolon, text ≠ [] ∧ text <:+: added := by
  obtain ⟨lead, blank, each⟩ := format.writeItems_text level
  obtain ⟨same, some⟩ := each run
  obtain ⟨first, others, texts⟩ := List.exists_cons_of_ne_nil (some shown)
  have member : first ∈ format.itemTexts entry := by
    rw [itemTexts, texts]
    exact List.mem_cons_self
  obtain ⟨item, -, found⟩ := List.mem_filterMap.1 member
  have nonempty : withoutSemicolon first ≠ [] := itemText_ne_nil found
  refine ⟨lead ++ withoutSemicolon first, ?_, withoutSemicolon first, List.mem_map_of_mem member, nonempty,
    (List.suffix_append _ _).isInfix⟩
  rw [texts] at same
  by_cases compact : format.layout = .compact
  · have noEnd : format.itemEnd = [] := by rw [itemEnd, compact]
    have spared := (spares compact).takenBack compact texts before
    rw [Closable, same, begun, tight compact, blank compact, noEnd]
    simpa using spared
  · -- The text ends with the line of the last item, which may be the first one.
    obtain ⟨more, ends⟩ : ∃ more,
        (first :: others).flatMap (lead ++ · ++ format.itemEnd) = lead ++ first ++ more ++ format.itemEnd := by
      rcases others.eq_nil_or_concat with rfl | ⟨init, last, rfl⟩
      · exact ⟨[], by simp⟩
      · exact ⟨format.itemEnd ++ (init.flatMap (lead ++ · ++ format.itemEnd) ++ (lead ++ last)), by simp⟩
    have textual : first ≠ [] := fun empty => nonempty (by rw [empty]; rfl)
    rw [ends, itemEnd_eq compact, ← List.append_assoc] at same
    have short := withoutSemicolon_prefix_append (opened.text ++ (lead ++ first)) more
    rw [← List.append_assoc, withoutSemicolon_append _ textual, List.append_assoc] at short
    rw [← List.append_assoc, ← List.append_assoc] at same
    exact short.trans (closable_lineEnd same)

theorem writeNodes_hidden {nodes : List Node} {group : Bool} (hidden : format.showsAny nodes = false) :
    format.writeNodes sources level group nodes output = .ok output := by
  induction nodes with
  | nil => rfl
  | cons node rest ih =>
    rw [showsAny, Bool.or_eq_false_iff] at hidden
    rw [writeNodes, hidden.1, if_neg Bool.false_ne_true]
    exact ih hidden.2

theorem shownNodes_of_hidden {nodes : List Node} (hidden : format.showsAny nodes = false) :
    format.shownNodes nodes = [] := by
  induction nodes with
  | nil => rfl
  | cons node rest ih =>
    rw [showsAny, Bool.or_eq_false_iff] at hidden
    rw [shownNodes, hidden.1, if_neg Bool.false_ne_true]
    exact ih hidden.2

/-- The beginning of a rule or of a block, and what stands behind its brace in the same line. -/
theorem openBrace_text (format : Format) (head : String) (span : Span) :
    ∃ rest, (format.layout = .compact → rest = []) ∧ ∀ begun : Output,
      (format.openBrace ((begun.mark span).write head)).text = begun.text ++ (head.toList ++ (format.brace ++ rest)) := by
  obtain ⟨rest, opens, tight⟩ := format.appends_brace
  exact ⟨rest, tight, fun begun => (((appends_write head).comp opens) (begun.mark span)).1⟩

/-- What has been written of a node stays: its beginning, and the bodies of the rules and blocks in it. -/
def NodeStays (format : Format) (sources : List Source) (output : Output) (node : Node) (written : Output) : Prop :=
  ∃ added, format.Closable (output.text ++ added) written ∧ format.beginning node.entry <:+: added ∧
    ∀ inner ∈ node :: format.shownInside node, inner.entry.takesItems = true →
      format.Filled sources (output.text ++ added) inner

/-- What has been written of some nodes stays, and one of them has been written. -/
def NodesStay (format : Format) (sources : List Source) (output : Output) (nodes : List Node) (written : Output) :
    Prop :=
  ∃ added, format.Closable (output.text ++ added) written ∧
    (∃ node ∈ nodes, format.shows node = true ∧ format.beginning node.entry <:+: added) ∧
    ∀ inner ∈ format.shownNodes nodes, inner.entry.takesItems = true →
      format.Filled sources (output.text ++ added) inner

/-- A body with something in it is closed by a brace, and nothing of it is taken back. -/
theorem closeBrace_stays {entry : Entry} {children : List Node} {level indent : Nat} {lead rest added : List Char}
    {opened filled : Output}
    (run : format.writeNode sources level (.node entry children) output = .ok (format.closeBrace indent filled))
    (begun : opened.text = output.text ++ lead ++ (format.beginning entry ++ rest))
    (closable : format.Closable (opened.text ++ added) filled)
    (stands : ∃ text ∈ format.inside (.node entry children), text ≠ [] ∧ text <:+: added)
    (within : ∀ inner ∈ format.shownInside (.node entry children), inner.entry.takesItems = true →
      format.Filled sources (opened.text ++ added) inner) :
    format.NodeStays sources output (.node entry children) (format.closeBrace indent filled) := by
  obtain ⟨more, closed, kept⟩ := closable_closeBrace indent closable
  obtain ⟨text, member, nonempty, inside⟩ := stands
  have body : added <:+: rest ++ added ++ more := List.infix_append _ _ _
  have whole : opened.text ++ added ++ more ++ ['\x7d'] =
      output.text ++ (lead ++ format.beginning entry ++ (rest ++ added ++ more) ++ ['\x7d']) := by
    simp only [begun, List.append_assoc]
  have longer : opened.text ++ added <+: opened.text ++ added ++ more ++ ['\x7d'] :=
    (List.prefix_append _ _).trans (List.prefix_append _ _)
  rw [whole] at closed kept longer
  refine ⟨_, kept, ?_, ?_⟩
  · rw [List.append_assoc _ (rest ++ added ++ more)]
    exact List.infix_append _ _ _
  · rintro inner (_ | ⟨_, member'⟩) takes
    · exact ⟨level, output, _, lead, _, run, closed, List.infix_rfl, text, member, nonempty, inside.trans body⟩
    · exact (within inner member' takes).mono longer.isInfix

section Nodes

variable {entry : Entry} {children : List Node}

theorem shownInside_of_not_block (other : entry.isBlock = false) (children : List Node) :
    format.shownInside (.node entry children) = [] := by
  rw [shownInside, other, if_neg Bool.false_ne_true]

theorem shownInside_of_block {name parameters : String} (content : entry.content = .block name parameters)
    (children : List Node) : format.shownInside (.node entry children) = format.shownNodes children := by
  rw [shownInside, Entry.isBlock, content, if_pos rfl]

/-- A directive without a block and a comment end their line, which may cost them a semicolon. -/
theorem writeLine_stays {head : String} (nonempty : head.toList ≠ []) (leaf : entry.takesItems = false)
    (begins : withoutSemicolon head.toList = format.beginning entry) (level : Nat) (output : Output) :
    format.NodeStays sources output (.node entry children)
      (format.newline (((format.indentTo level output).mark entry.span).write head)) := by
  have begun : ((format.indentTo level output).mark entry.span).text = output.text ++ format.indentation level :=
    (format.appends_indentTo level output).1
  have same := (((appends_write head).comp format.appends_newline) ((format.indentTo level output).mark entry.span)).1
  rw [begun, ← List.append_assoc] at same
  have line := closable_lineEnd same
  rw [withoutSemicolon_append _ nonempty, List.append_assoc, begins] at line
  have other : entry.isBlock = false := by
    rw [Entry.takesItems] at leaf
    rw [Entry.isBlock]
    cases content : entry.content <;> simp_all
  refine ⟨_, line, (List.suffix_append _ _).isInfix, ?_⟩
  rw [shownInside_of_not_block other]
  rintro inner (_ | ⟨_, ⟨⟩⟩) takes
  exact absurd (leaf.symm.trans takes) Bool.false_ne_true

theorem writeRule_stays {selectors : Selectors} (content : entry.content = .rule selectors)
    (spares : format.layout = .compact → format.SparesFirst (.node entry children))
    (shown : format.shows (.node entry children) = true)
    (run : format.writeNode sources level (.node entry children) output = .ok written) :
    format.NodeStays sources output (.node entry children) written := by
  have beginning : format.beginning entry =
      (selectors.withoutPlaceholders.css format.isCompressed).toList ++ format.brace := by
    rw [Format.beginning, content]
  obtain ⟨indent, nested⟩ : ∃ indent, (if format.layout == .nested then entry.depth else level) = indent :=
    ⟨_, rfl⟩
  simp only [shows, content, Bool.and_eq_true] at shown
  have steps := run
  simp only [writeNode, content, nested] at steps
  obtain ⟨filled, items, closing⟩ := Except.bind_eq_ok steps
  cases closing
  obtain ⟨place, placed⟩ := format.appends_writePlace sources indent entry.span
  have begun : (format.indentTo indent (format.writePlace sources indent entry.span output)).text =
      output.text ++ (place ++ format.indentation indent) :=
    ((placed.comp (format.appends_indentTo indent)) output).1
  obtain ⟨rest, tight, opens⟩ :=
    format.openBrace_text (selectors.withoutPlaceholders.css format.isCompressed) entry.span
  have opened := opens (format.indentTo indent (format.writePlace sources indent entry.span output))
  rw [← List.append_assoc _ format.brace, ← beginning, begun] at opened
  obtain ⟨added, closable, text, member, stands⟩ := writeItems_closable spares opened tight shown.2 items
  refine closeBrace_stays run opened closable ⟨text, List.mem_append_left _ member, stands⟩ ?_
  rw [shownInside_of_not_block (by rw [Entry.isBlock, content])]
  exact nofun

/-- The items of a block and the nodes in it, of which the items may be none or the nodes may be none. -/
theorem writeBlock_stays {name parameters : String} (content : entry.content = .block name parameters)
    (spares : format.layout = .compact → format.showsAny children = false → format.SparesFirst (.node entry children))
    (shown : format.shows (.node entry children) = true)
    (deeper : ∀ {level group} {output written : Output}, format.showsAny children = true →
      format.writeNodes sources level group children output = .ok written →
      format.NodesStay sources output children written)
    (run : format.writeNode sources level (.node entry children) output = .ok written) :
    format.NodeStays sources output (.node entry children) written := by
  have beginning : format.beginning entry = (directiveText name parameters).toList ++ format.brace := by
    rw [Format.beginning, content]
  have inner : format.shownInside (.node entry children) = format.shownNodes children :=
    shownInside_of_block content children
  obtain ⟨indent, nested⟩ : ∃ indent, (if format.layout == .nested then entry.depth else level) = indent :=
    ⟨_, rfl⟩
  simp only [shows, content, Bool.or_eq_true] at shown
  have steps := run
  rw [format.writeNode_block content] at steps
  simp only [nested] at steps
  obtain ⟨last, body, closing⟩ := Except.bind_eq_ok steps
  cases closing
  obtain ⟨filled, items, nodes⟩ := Except.bind_eq_ok body
  obtain ⟨rest, tight, opens⟩ := format.openBrace_text (directiveText name parameters) entry.span
  have opened := opens (format.indentTo indent output)
  rw [← List.append_assoc _ format.brace, ← beginning, (format.appends_indentTo indent output).1] at opened
  cases below : format.showsAny children with
  | false =>
    rw [below, if_neg Bool.false_ne_true] at nodes
    cases nodes
    obtain ⟨added, closable, text, member, stands⟩ := writeItems_closable (spares · below) opened tight
      (shown.resolve_right (by simp [below])) items
    refine closeBrace_stays run opened closable ⟨text, List.mem_append_left _ member, stands⟩ ?_
    rw [inner, shownNodes_of_hidden below]
    exact nofun
  | true =>
    rw [below, if_pos rfl] at nodes
    obtain ⟨lead, -, each⟩ := format.writeItems_text indent
    obtain ⟨blank, apart⟩ := format.appends_beforeNodes (entry.items.any format.showsItem)
    obtain ⟨added, closable, ⟨child, member, seen, stands⟩, within⟩ := deeper below nodes
    rw [(apart _).1, (each items).1, List.append_assoc, List.append_assoc] at closable within
    have held : format.beginning child.entry ∈ format.inside (.node entry children) :=
      List.mem_append_right _ (List.mem_map.2 ⟨child, List.mem_filter.2 ⟨member, seen⟩, rfl⟩)
    refine closeBrace_stays run opened closable ⟨_, held, format.beginning_ne_nil _, stands.trans ?_⟩ ?_
    · exact ((List.suffix_append _ _).trans (List.suffix_append _ _)).isInfix
    · rw [inner]
      exact within

/-- Some nodes, and others behind them. -/
theorem NodeStays.cons {gap : List Char} {node : Node} {rest : List Node} {separated between : Output}
    (apart : separated.text = output.text ++ gap) (shown : format.shows node = true)
    (here : format.NodeStays sources separated node between)
    (later : format.showsAny rest = true → format.NodesStay sources between rest written)
    (done : format.showsAny rest = false → written = between) :
    format.NodesStay sources output (node :: rest) written := by
  obtain ⟨added, closable, stands, filled⟩ := here
  rw [apart, List.append_assoc] at closable filled
  have begins : format.beginning node.entry <:+: gap ++ added := stands.trans (List.suffix_append _ _).isInfix
  rw [NodesStay, shownNodes, if_pos shown]
  cases behind : format.showsAny rest with
  | false =>
    obtain rfl := done behind
    rw [shownNodes_of_hidden behind, List.append_nil]
    exact ⟨_, closable, ⟨node, .head _, shown, begins⟩, filled⟩
  | true =>
    obtain ⟨more, same⟩ := closable.exists_append
    obtain ⟨added', closable', -, filled'⟩ := later behind
    have longer : output.text ++ (gap ++ added) <+: between.text ++ added' := by
      rw [same, List.append_assoc]
      exact List.prefix_append _ _
    rw [same, List.append_assoc, List.append_assoc] at closable' filled' longer
    refine ⟨_, closable', ⟨node, .head _, shown, begins.trans (List.prefix_append _ _).isInfix⟩, ?_⟩
    intro inner member takes
    rcases List.mem_append.1 member with member | member
    · exact (filled inner member takes).mono longer.isInfix
    · exact filled' inner member takes

mutual

theorem writeNode_stays : (node : Node) → {level : Nat} → {output written : Output} →
    (format.layout = .compact → ∀ inner ∈ node :: format.shownInside node, format.endsInItems inner = true →
      format.SparesFirst inner) →
    format.shows node = true → format.writeNode sources level node output = .ok written →
    format.NodeStays sources output node written
  | .node entry children, level, output, written, keeps, shown, run => by
    cases content : entry.content with
    | rule selectors =>
      exact writeRule_stays content (fun compact => keeps compact _ (.head _) (by rw [endsInItems, content])) shown run
    | block name parameters =>
      have inner : format.shownInside (.node entry children) = format.shownNodes children :=
        shownInside_of_block content children
      refine writeBlock_stays content (fun compact below => keeps compact _ (.head _) ?_) shown
        (writeNodes_stay children fun compact node member => keeps compact node (.tail _ (inner ▸ member))) run
      rw [endsInItems, content, below]
      rfl
    | directive name parameters =>
      simp only [writeNode, content] at run
      cases run
      refine writeLine_stays (by simp [directiveText]) (by rw [Entry.takesItems, content]) ?_ _ output
      simp [beginning, content, withoutSemicolon]
    | comment text =>
      obtain ⟨start, closed⟩ := text.closed
      have ends : text.text.toList = start ++ ['*'] ++ ['/'] := by simp [← closed]
      simp only [writeNode, content] at run
      cases run
      refine writeLine_stays (by simp [ends]) (by rw [Entry.takesItems, content]) ?_ _ output
      rw [ends, withoutSemicolon_concat (by decide), ← ends, beginning, content]

theorem writeNodes_stay : (nodes : List Node) → format.KeepsItems nodes → {level : Nat} → {group : Bool} →
    {output written : Output} → format.showsAny nodes = true →
    format.writeNodes sources level group nodes output = .ok written → format.NodesStay sources output nodes written
  | [], _, _, _, _, _, shown, _ => by cases shown
  | node :: rest, keeps, level, group, output, written, shown, run => by
    rw [writeNodes] at run
    rw [KeepsItems, shownNodes] at keeps
    have behind : format.KeepsItems rest := fun compact inner member =>
      keeps compact inner (List.mem_append_right _ member)
    cases here : format.shows node with
    | false =>
      rw [here, if_neg Bool.false_ne_true] at run
      obtain ⟨added, closable, ⟨inner, member, seen, stands⟩, filled⟩ :=
        writeNodes_stay rest behind (by simpa [showsAny, here] using shown) run
      rw [NodesStay, shownNodes, here, if_neg Bool.false_ne_true]
      exact ⟨added, closable, ⟨inner, .tail _ member, seen, stands⟩, filled⟩
    | true =>
      rw [here, if_pos rfl] at run keeps
      obtain ⟨between, first, later⟩ := Except.bind_eq_ok run
      obtain ⟨gap, apart⟩ : ∃ gap, (if (group && format.startsGroup level node.entry) = true
          then format.newline output else output).text = output.text ++ gap := by
        split
        · exact ⟨_, (format.appends_newline output).1⟩
        · exact ⟨[], (List.append_nil _).symm⟩
      have stays := writeNode_stays node (fun compact inner member =>
        keeps compact inner (List.mem_append_left _ member)) here first
      exact stays.cons apart here (fun shown => writeNodes_stay rest behind shown later) fun hidden =>
        Except.ok.inj (later.symm.trans (writeNodes_hidden hidden))

end

end Nodes

theorem text_isSuffix_declareEncoding (format : Format) (output : Output) :
    output.text <:+ (format.declareEncoding output).css.toList := by
  have whole : (String.ofList output.reversed.reverse).toList = output.text := String.toList_ofList
  unfold declareEncoding
  split
  · exact ⟨[], whole.symm⟩
  · split <;>
    · rw [String.toList_append, whole]
      exact List.suffix_append _ _

end Format

/-- The text of a tree has a body for each rule and for each block that is written. -/
theorem Tree.write_filled {tree : Tree} {format : Format} {written : Written} (keeps : format.KeepsItems tree.forest)
    (run : tree.write format = .ok written) :
    ∀ node ∈ format.shownNodes tree.forest, node.entry.takesItems = true →
      format.Filled tree.sources written.css.toList node := by
  intro node member takes
  obtain ⟨output, nodes, rfl⟩ := Except.map_eq_ok run
  cases shown : format.showsAny tree.forest with
  | false =>
    rw [Format.shownNodes_of_hidden shown] at member
    cases member
  | true =>
    obtain ⟨added, closable, -, filled⟩ := Format.writeNodes_stay tree.forest keeps shown nodes
    obtain ⟨more, same⟩ := closable.exists_append
    refine (filled node member takes).mono ?_
    have inside : Output.empty.text ++ added <:+: output.text := same ▸ (List.prefix_append _ _).isInfix
    exact inside.trans (format.text_isSuffix_declareEncoding output).isInfix

end Stylesheet.Css
