import Stylesheet.Proofs.WrittenText

/-! The mappings of a written tree point at what they belong to: to every selector, declaration and
directive that is written, and to every comment between them, there is one mapping, and it gives the
place in the finished text where the text of that construct begins. -/

namespace Stylesheet

def Mapping.place (mapping : Mapping) : Position := ⟨mapping.line + 1, mapping.column + 1⟩

namespace Css

/-- Something that has a mapping: its text and the place that it comes from. -/
structure Construct where
  text : String
  span : Span

/-- A mapping stands where a text goes on with a construct. The semicolon at the end of the construct
is left out, because the end of a block takes it back in a compressed text. -/
structure BeginsAt (css : List Char) (construct : Construct) (mapping : Mapping) : Prop where
  place : ∃ before, before ++ withoutSemicolon construct.text.toList <+: css ∧
    Position.start.after before = mapping.place
  source : mapping.source = construct.span.source
  sourceLine : mapping.sourceLine = construct.span.pos.line - 1
  sourceColumn : mapping.sourceColumn = construct.span.pos.column - 1

theorem BeginsAt.mono {css longer : List Char} {construct : Construct} {mapping : Mapping}
    (begins : BeginsAt css construct mapping) (more : css <+: longer) : BeginsAt longer construct mapping := by
  obtain ⟨before, here, place⟩ := begins.place
  exact { begins with place := ⟨before, here.trans more, place⟩ }

namespace Format

variable (format : Format)

def itemConstruct? : Item → Option Construct
  | .declaration declaration =>
    match declaration.value.css format.places format.isCompressed with
    | .ok value => some ⟨format.declarationText declaration value, declaration.span⟩
    | .error _ => none
  | .comment _ => none

mutual

/-- What is written of a node and has a mapping, in the order in which it is written. -/
def constructs : Node → List Construct
  | .node entry children =>
    match entry.content with
    | .rule selectors =>
      ⟨selectors.withoutPlaceholders.css format.isCompressed, entry.span⟩ ::
        entry.items.filterMap format.itemConstruct?
    | .block name parameters =>
      ⟨directiveText name parameters, entry.span⟩ ::
        (entry.items.filterMap format.itemConstruct? ++ shownConstructs children)
    | .directive name parameters => [⟨directiveText name parameters ++ ";", entry.span⟩]
    | .comment text => [⟨text, entry.span⟩]

def shownConstructs : List Node → List Construct
  | [] => []
  | node :: rest => (if format.shows node then constructs node else []) ++ shownConstructs rest

end

/-- All constructs so far have their mappings inside `kept`, and the text has gone on behind them. -/
structure Marked (kept : List Char) (constructs : List Construct) (output : Output) : Prop where
  inside : kept <+: output.text
  begins : List.Forall₂ (BeginsAt kept) constructs output.marks.reverse
  ordered : output.marks.Pairwise fun later earlier => earlier.place.Before later.place
  behind : ∀ mark ∈ output.marks, mark.place.Before (Position.start.after output.text)

/-- The next closing brace takes nothing back of `kept`. -/
def Closable (kept : List Char) (output : Output) : Prop := kept <+: format.takenBack output.text

end Format

open Output Format

theorem marked_empty : Marked [] [] Output.empty :=
  ⟨List.prefix_rfl, .nil, .nil, nofun⟩

variable {kept added : List Char} {constructs : List Construct} {output : Output}

theorem Format.Marked.appends (marked : Marked kept constructs output) {action : Output → Output}
    (appends : Appends action added) : Marked kept constructs (action output) := by
  obtain ⟨text, marks⟩ := appends output
  refine ⟨?_, ?_, ?_, ?_⟩
  · rw [text]
    exact marked.inside.trans (List.prefix_append _ _)
  · rw [marks]
    exact marked.begins
  · rw [marks]
    exact marked.ordered
  · rw [marks, text, Position.after_append]
    exact fun mark member => Position.before_after (marked.behind mark member) added

/-- A mark, the text of its construct and what follows it in the same step. -/
theorem Format.Marked.construct (marked : Marked kept constructs output) (construct : Construct) {written : Output}
    (text : written.text = output.text ++ (construct.text.toList ++ added))
    (marks : written.marks = (output.mark construct.span).marks) (nonempty : construct.text.toList ++ added ≠ []) :
    Marked (output.text ++ withoutSemicolon construct.text.toList) (constructs ++ [construct]) written := by
  have here := output.place_eq
  refine ⟨?_, ?_, ?_, ?_⟩
  · rw [text, ← List.append_assoc]
    exact ((List.prefix_append_right_inj _).2 (withoutSemicolon_isPrefix _)).trans (List.prefix_append _ _)
  · rw [marks, Output.mark, List.reverse_cons]
    refine List.rel_append (marked.begins.imp fun _ _ begins => ?_) (.cons ?_ .nil)
    · exact begins.mono (marked.inside.trans (List.prefix_append _ _))
    · exact ⟨⟨output.text, List.prefix_rfl, here⟩, rfl, rfl, rfl⟩
  · rw [marks]
    refine .cons ?_ marked.ordered
    intro mark member
    have before := marked.behind mark member
    rwa [here] at before
  · rw [marks, text, Position.after_append]
    intro mark member
    rcases List.mem_cons.1 member with rfl | member
    · rw [here]
      exact Position.before_after_of_ne_nil _ nonempty
    · exact Position.before_after (marked.behind mark member) _

/-- Whatever ends in this way, a closing brace takes back nothing that stood before it. -/
def Format.Seals (format : Format) (ending : List Char) : Prop :=
  match format.layout with
  | .compressed => ending ≠ []
  | .nested | .compact => format.linefeed.toList <:+ ending ∨ ending ≠ [] ∧ ending.getLast? ≠ some '\n'
  | .expanded => True

/-- The line separator ends in a line feed and holds no other. -/
def EndsLine (linefeed : String) : Prop := ∃ lead, '\n' ∉ lead ∧ linefeed.toList = lead ++ ['\n']

variable {format : Format}

theorem EndsLine.ne_nil {linefeed : String} (ends : EndsLine linefeed) : linefeed.toList ≠ [] := by
  obtain ⟨lead, -, same⟩ := ends
  simp [same]

private theorem not_suffix_of_getLast? {linefeed : String} (ends : EndsLine linefeed) {text : List Char}
    (nonempty : text ≠ []) (last : text.getLast? ≠ some '\n') (before : List Char) :
    ¬ linefeed.toList <:+ before ++ text := by
  obtain ⟨lead, -, same⟩ := ends
  rintro ⟨rest, split⟩
  apply last
  rw [← List.getLast?_append_of_ne_nil before nonempty, ← split, same, ← List.append_assoc, List.getLast?_concat]

theorem Format.closable_of_seals (ends : EndsLine format.linefeed) {written : Output} {before ending : List Char}
    (inside : kept <+: before) (text : written.text = before ++ ending) (seals : format.Seals ending) :
    format.Closable kept written := by
  unfold Closable takenBack
  unfold Seals at seals
  rw [text]
  cases layout : format.layout with
  | compressed =>
    simp only [layout] at seals
    rw [withoutSemicolon_append _ seals]
    exact inside.trans (List.prefix_append _ _)
  | nested | compact =>
    simp only [layout] at seals
    obtain ⟨rest, rfl⟩ | ⟨nonempty, last⟩ := seals
    · rw [← List.append_assoc, if_pos (List.isSuffixOf_iff_suffix.2 (List.suffix_append _ _)), List.length_append,
        Nat.add_sub_cancel, List.take_left']
      · exact inside.trans (List.prefix_append _ _)
      · rfl
    · rw [if_neg]
      · exact inside.trans (List.prefix_append _ _)
      · rw [List.isSuffixOf_iff_suffix]
        exact not_suffix_of_getLast? ends nonempty last before
  | expanded => exact inside.trans (List.prefix_append _ _)

/-- In a block a brace follows the last construct; only in a compressed or compact text it stands
directly behind it. -/
theorem Format.closable_construct (ends : EndsLine format.linefeed) {written : Output} {before text : List Char}
    (semicolon : ∃ start, text = start ++ [';']) (same : written.text = before ++ (text ++ format.itemEnd)) :
    format.Closable (before ++ withoutSemicolon text) written := by
  obtain ⟨start, rfl⟩ := semicolon
  have short : before ++ withoutSemicolon (start ++ [';']) <+: before ++ (start ++ [';']) :=
    (List.prefix_append_right_inj _).2 (withoutSemicolon_isPrefix _)
  unfold itemEnd at same
  cases layout : format.layout with
  | compressed =>
    simp only [layout, List.append_nil] at same
    simp only [Closable, takenBack, layout, same, withoutSemicolon_append before (List.append_ne_nil_of_right_ne_nil
      start (List.cons_ne_nil _ [])), List.prefix_rfl]
  | compact =>
    simp only [layout, List.append_nil] at same
    have last : ¬ format.linefeed.toList <:+ before ++ (start ++ [';']) :=
      not_suffix_of_getLast? ends (by simp) (by simp) before
    simpa only [Closable, takenBack, layout, same, List.isSuffixOf_iff_suffix, if_neg last] using short
  | nested =>
    simp only [layout] at same
    rw [← List.append_assoc] at same
    refine closable_of_seals ends short same ?_
    simp only [Seals, layout, lineEnd, isCompressed]
    exact .inl List.suffix_rfl
  | expanded =>
    simp only [layout] at same
    rw [← List.append_assoc] at same
    simp only [Closable, takenBack, layout, same]
    exact short.trans (List.prefix_append _ _)

theorem Format.before_closing (ends : EndsLine format.linefeed) (level : Nat) {p : Position} {text : List Char}
    (before : p.Before (Position.start.after text)) :
    p.Before (Position.start.after (format.takenBack text ++ format.closing level)) := by
  obtain ⟨lead, inLine, same⟩ := ends
  unfold takenBack closing
  cases layout : format.layout with
  | compressed =>
    simp only [withoutSemicolon]
    split
    next last =>
      obtain ⟨rest, rfl⟩ := List.getLast?_eq_some_iff.1 last
      rw [List.dropLast_concat]
      rwa [Position.after_append] at before ⊢
    next =>
      rw [Position.after_append]
      exact Position.before_after before _
  | nested | compact =>
    simp only [lineEnd, isCompressed, layout]
    split
    next found =>
      obtain ⟨rest, rfl⟩ := List.isSuffixOf_iff_suffix.1 found
      rw [List.length_append, Nat.add_sub_cancel, List.take_left' rfl]
      rw [same, Position.after_append, Position.after_linefeed _ inLine] at before
      have closed : ' ' :: '\x7d' :: (lead ++ ['\n']) = (' ' :: '\x7d' :: lead) ++ ['\n'] := rfl
      have inLine' : '\n' ∉ ' ' :: '\x7d' :: lead := by simpa using inLine
      simp only [same]
      rwa [Position.after_append, if_neg (by decide), closed, Position.after_linefeed _ inLine']
    next =>
      rw [Position.after_append]
      exact Position.before_after before _
  | expanded =>
    rw [Position.after_append]
    exact Position.before_after before _

theorem Format.seals_closing (level : Nat) : format.Seals (format.closing level) := by
  unfold Seals closing lineEnd isCompressed
  cases layout : format.layout with
  | compressed => simp
  | nested | compact => exact .inl (List.suffix_append [' ', '\x7d'] _)
  | expanded => trivial

/-- A closing brace keeps the mappings that it finds, and so does the next one behind it. -/
theorem Format.Marked.closeBrace (ends : EndsLine format.linefeed) (level : Nat)
    (marked : Marked kept constructs output) (closable : format.Closable kept output) :
    Marked kept constructs (format.closeBrace level output) ∧
      format.Closable kept (format.closeBrace level output) := by
  obtain ⟨text, marks⟩ := format.closeBrace_text level output
  refine ⟨⟨?_, ?_, ?_, ?_⟩, closable_of_seals ends closable text (seals_closing level)⟩
  · rw [text]
    exact closable.trans (List.prefix_append _ _)
  · rw [marks]
    exact marked.begins
  · rw [marks]
    exact marked.ordered
  · rw [marks, text]
    exact fun mark member => before_closing ends level (marked.behind mark member)

/-- A computation that goes well consists of two that do. -/
theorem Except.bind_eq_ok {ε α β : Type} {first : Except ε α} {next : α → Except ε β} {b : β}
    (run : first >>= next = .ok b) : ∃ a, first = .ok a ∧ next a = .ok b := by
  cases first with
  | error e => cases run
  | ok a => exact ⟨a, rfl, run⟩

theorem Except.map_eq_ok {ε α β : Type} {f : α → β} {first : Except ε α} {b : β} (run : first.map f = .ok b) :
    ∃ a, first = .ok a ∧ f a = b := by
  cases first with
  | error e => cases run
  | ok a => exact ⟨a, rfl, Except.ok.inj run⟩

theorem Except.ite_bind_eq_ok {ε α β : Type} {c : Prop} [Decidable c] {first second : Except ε α}
    {next : α → Except ε β} {b : β} (run : (if c then first >>= next else second >>= next) = .ok b) :
    ∃ a, (if c then first else second) = .ok a ∧ next a = .ok b := by
  split at run
  next holds => simpa only [if_pos holds] using bind_eq_ok run
  next fails => simpa only [if_neg fails] using bind_eq_ok run

section Items

variable {level : Nat} {written : Output}

theorem Format.writeItem_marked (ends : EndsLine format.linefeed) {item : Item}
    (marked : Marked kept constructs output) (run : format.writeItem level item output = .ok written) :
    ∃ kept', Marked kept' (constructs ++ (format.itemConstruct? item).toList) written ∧
      (format.Closable kept output ∨ format.showsItem item = true → format.Closable kept' written) := by
  obtain ⟨blank, begins, compact⟩ := format.appends_beginItem level
  cases item with
  | declaration declaration =>
    cases css : declaration.value.css format.places format.isCompressed with
    | error => simp only [writeItem, css, reduceCtorEq] at run
    | ok value =>
      simp only [writeItem, css] at run
      cases run
      obtain ⟨text, marks⟩ := (appends_write (format.declarationText declaration value)).comp format.appends_endItem
        ((format.beginItem level output).mark declaration.span)
      have semicolon : ∃ start, (format.declarationText declaration value).toList = start ++ [';'] :=
        ⟨_, by rw [declarationText, String.toList_append]; rfl⟩
      simp only [itemConstruct?, css]
      refine ⟨_, (marked.appends begins).construct ⟨_, declaration.span⟩ text marks ?_, fun _ => ?_⟩
      · obtain ⟨start, same⟩ := semicolon
        simp [same]
      · exact closable_construct ends semicolon text
  | comment comment =>
    obtain ⟨inner, closed⟩ := comment.closed
    have last : comment.text.toList = (inner ++ ['*']) ++ ['/'] := by simp [← closed]
    simp only [writeItem] at run
    split at run
    next shown =>
      cases run
      have appends := (begins.comp (appends_write comment)).comp format.appends_endItem
      refine ⟨kept, ?_, fun _ => closable_of_seals ends marked.inside (appends output).1 ?_⟩
      · rw [itemConstruct?, Option.toList, List.append_nil]
        exact marked.appends appends
      unfold Seals itemEnd
      cases layout : format.layout with
      | compressed =>
        simp [last]
      | nested =>
        simp only [lineEnd, isCompressed, layout]
        exact .inl (List.suffix_append _ _)
      | compact =>
        rw [compact layout, List.append_nil]
        refine .inr ⟨by simp, ?_⟩
        rw [last, ← List.append_assoc, List.getLast?_concat]
        decide
      | expanded => trivial
    next hidden =>
      cases run
      refine ⟨kept, by simpa only [itemConstruct?, Option.toList, List.append_nil] using marked, ?_⟩
      rintro (closable | shown)
      · exact closable
      · exact absurd shown hidden

theorem Format.writeItems_marked (ends : EndsLine format.linefeed) {items : List Item}
    (marked : Marked kept constructs output) (run : format.writeItems level items output = .ok written) :
    ∃ kept', Marked kept' (constructs ++ items.filterMap format.itemConstruct?) written ∧
      (format.Closable kept output ∨ items.any format.showsItem = true → format.Closable kept' written) := by
  induction items generalizing kept constructs output with
  | nil =>
    cases run
    refine ⟨kept, by simpa using marked, ?_⟩
    simp
  | cons item rest ih =>
    cases first : format.writeItem level item output with
    | error error =>
      simp only [writeItems, List.foldlM_cons, first] at run
      cases run
    | ok next =>
      simp only [writeItems, List.foldlM_cons, first] at run
      obtain ⟨middle, begun, seals⟩ := writeItem_marked ends marked first
      obtain ⟨last, filled, seals'⟩ := ih begun run
      refine ⟨last, ?_, ?_⟩
      · have split : (item :: rest).filterMap format.itemConstruct?
            = (format.itemConstruct? item).toList ++ rest.filterMap format.itemConstruct? := by
          cases found : format.itemConstruct? item <;> simp [found]
        rwa [split, ← List.append_assoc]
      · rw [List.any_cons, Bool.or_eq_true]
        rintro (closable | shown | shown)
        · exact seals' (.inl (seals (.inl closable)))
        · exact seals' (.inl (seals (.inr shown)))
        · exact seals' (.inr shown)

theorem Format.writeItem_hidden {item : Item} (hidden : format.showsItem item = false) :
    format.writeItem level item output = .ok output := by
  cases item with
  | declaration declaration => cases hidden
  | comment text =>
    have skipped : ¬ format.showsComment text = true := by simpa [showsItem] using hidden
    rw [writeItem, if_neg skipped]

/-- Items that are not to be seen leave no trace. -/
theorem Format.writeItems_hidden {items : List Item} (hidden : items.any format.showsItem = false) :
    format.writeItems level items output = .ok output := by
  induction items with
  | nil => rfl
  | cons item rest ih =>
    rw [List.any_cons, Bool.or_eq_false_iff] at hidden
    rw [writeItems, List.foldlM_cons, writeItem_hidden hidden.1]
    exact ih hidden.2

end Items

section Nodes

variable {sources : List Source}

/-- A rule and the block of a directive begin alike: a construct, an opening brace and the items. -/
private theorem writeBlock_marked (ends : EndsLine format.linefeed) (construct : Construct) {level : Nat}
    {items : List Item} {before written : Output}
    (marked : Marked kept constructs before)
    (run : format.writeItems level items (format.openBrace ((before.mark construct.span).write construct.text))
      = .ok written) :
    ∃ kept', Marked kept' (constructs ++ [construct] ++ items.filterMap format.itemConstruct?) written ∧
      (items.any format.showsItem = true → format.Closable kept' written) := by
  obtain ⟨c, rest, opens⟩ := format.appends_openBrace
  obtain ⟨text, marks⟩ := (appends_write construct.text).comp opens (before.mark construct.span)
  have begun := marked.construct construct text marks (by simp)
  obtain ⟨kept', filled, seals⟩ := writeItems_marked ends begun run
  exact ⟨kept', filled, fun shown => seals (.inr shown)⟩

/-- A directive without a block and a comment are one construct that ends its line. -/
private theorem writeLine_marked (ends : EndsLine format.linefeed) (construct : Construct) {before : Output}
    (visible : format.layout = .compressed → construct.text ≠ "") (marked : Marked kept constructs before) :
    ∃ kept', Marked kept' (constructs ++ [construct])
        (format.newline ((before.mark construct.span).write construct.text)) ∧
      format.Closable kept' (format.newline ((before.mark construct.span).write construct.text)) := by
  obtain ⟨text, marks⟩ := (appends_write construct.text).comp format.appends_newline (before.mark construct.span)
  have nonempty : construct.text.toList ++ format.lineEnd ≠ [] := by
    cases layout : format.layout with
    | compressed => simpa using fun empty => absurd empty (visible layout)
    | _ => simp [lineEnd, isCompressed, layout, ends.ne_nil]
  refine ⟨_, marked.construct construct text marks nonempty, ?_⟩
  cases layout : format.layout with
  | compressed =>
    have bare : format.lineEnd = [] := by simp [lineEnd, isCompressed, layout]
    have chars : construct.text.toList ≠ [] := by simpa using visible layout
    rw [bare, List.append_nil] at text
    simp only [Closable, takenBack, layout]
    rw [Function.comp] at text
    rw [text, withoutSemicolon_append _ chars]
    exact List.prefix_rfl
  | _ =>
    rw [← List.append_assoc] at text
    refine closable_of_seals ends ((List.prefix_append_right_inj _).2 (withoutSemicolon_isPrefix _)) text ?_
    simp [Seals, layout, lineEnd, isCompressed]

theorem Format.shownConstructs_of_hidden {nodes : List Node} (hidden : format.showsAny nodes = false) :
    format.shownConstructs nodes = [] := by
  induction nodes with
  | nil => rfl
  | cons node rest ih =>
    rw [showsAny, Bool.or_eq_false_iff] at hidden
    rw [shownConstructs, hidden.1, ih hidden.2]
    rfl

/-- Items are written alike whether it is asked before that any is to be seen, or not. -/
theorem Format.writeItems_if_shown (level : Nat) (items : List Item) (output : Output) :
    (if items.any format.showsItem = true then format.writeItems level items output else .ok output)
      = format.writeItems level items output := by
  split
  · rfl
  · next hidden => rw [writeItems_hidden (by simpa using hidden)]

mutual

theorem Format.writeNode_marked (ends : EndsLine format.linefeed) (node : Node) {level : Nat} {kept : List Char}
    {constructs : List Construct} {output written : Output} (shown : format.shows node = true)
    (marked : Marked kept constructs output)
    (run : format.writeNode sources level node output = .ok written) :
    ∃ kept', Marked kept' (constructs ++ format.constructs node) written ∧ format.Closable kept' written := by
  match node with
  | .node entry children =>
    obtain ⟨indent, nested⟩ : ∃ indent, (if format.layout == .nested then entry.depth else level) = indent :=
      ⟨_, rfl⟩
    have begun := marked.appends (format.appends_indentTo indent)
    cases content : entry.content with
    | rule selectors =>
      simp only [shows, content, Bool.and_eq_true] at shown
      obtain ⟨comment, placed⟩ := format.appends_writePlace sources indent entry.span
      simp only [writeNode, content, nested] at run
      obtain ⟨inner, filled, closing⟩ := Except.bind_eq_ok run
      cases closing
      obtain ⟨kept', block, seals⟩ := writeBlock_marked ends
        ⟨selectors.withoutPlaceholders.css format.isCompressed, entry.span⟩
        ((marked.appends placed).appends (format.appends_indentTo indent)) filled
      simp only [Format.constructs, content]
      rw [List.append_assoc] at block
      exact ⟨kept', block.closeBrace ends _ (seals shown.2)⟩
    | block name parameters =>
      simp only [shows, content, Bool.or_eq_true] at shown
      simp only [writeNode, content, nested] at run
      obtain ⟨inner, filled, rest⟩ := Except.ite_bind_eq_ok run
      obtain ⟨last, nodes, closing⟩ := Except.ite_bind_eq_ok rest
      cases closing
      rw [writeItems_if_shown] at filled
      obtain ⟨kept', block, seals⟩ :=
        writeBlock_marked ends ⟨directiveText name parameters, entry.span⟩ begun filled
      simp only [Format.constructs, content]
      rw [List.append_assoc] at block
      split at nodes
      next some =>
        obtain ⟨blank, apart⟩ := format.appends_beforeNodes (entry.items.any format.showsItem)
        obtain ⟨kept'', filled, seals⟩ := writeNodes_marked ends children (block.appends apart) nodes
        rw [List.append_assoc] at filled
        exact ⟨kept'', filled.closeBrace ends _ (seals (.inr some))⟩
      next none =>
        cases nodes
        rw [shownConstructs_of_hidden (by simpa using none), List.append_nil]
        exact ⟨kept', block.closeBrace ends _ (seals (shown.resolve_right none))⟩
    | directive name parameters =>
      simp only [writeNode, content, nested] at run
      cases run
      simp only [Format.constructs, content]
      exact writeLine_marked ends ⟨directiveText name parameters ++ ";", entry.span⟩
        (fun _ => by simp [directiveText]) begun
    | comment text =>
      simp only [writeNode, content, nested] at run
      cases run
      simp only [Format.constructs, content]
      refine writeLine_marked ends ⟨text, entry.span⟩ (fun _ empty => ?_) begun
      obtain ⟨inner, closed⟩ := text.closed
      have none : text.text = "" := empty
      simp [none] at closed

theorem Format.writeNodes_marked (ends : EndsLine format.linefeed) (nodes : List Node) {level : Nat} {group : Bool}
    {kept : List Char} {constructs : List Construct} {output written : Output}
    (marked : Marked kept constructs output)
    (run : format.writeNodes sources level group nodes output = .ok written) :
    ∃ kept', Marked kept' (constructs ++ format.shownConstructs nodes) written ∧
      (format.Closable kept output ∨ format.showsAny nodes = true → format.Closable kept' written) := by
  match nodes with
  | [] =>
    cases run
    exact ⟨kept, by simpa [shownConstructs] using marked, by simp [showsAny]⟩
  | node :: rest =>
    simp only [writeNodes] at run
    split at run
    next shown =>
      obtain ⟨next, here, later⟩ := Except.bind_eq_ok run
      have separated : Marked kept constructs
          (if (group && format.startsGroup level node.entry) = true then format.newline output else output) := by
        split
        · exact marked.appends format.appends_newline
        · exact marked
      obtain ⟨middle, begun, closable⟩ := writeNode_marked ends node shown separated here
      obtain ⟨last, filled, seals⟩ := writeNodes_marked ends rest begun later
      rw [shownConstructs, if_pos shown, ← List.append_assoc]
      exact ⟨last, filled, fun _ => seals (.inl closable)⟩
    next hidden =>
      obtain ⟨last, filled, seals⟩ := writeNodes_marked ends rest marked run
      have skipped : format.shows node = false := by simpa using hidden
      rw [shownConstructs, if_neg hidden, List.nil_append, showsAny, skipped, Bool.false_or]
      exact ⟨last, filled, seals⟩

end

end Nodes

section Encoding

/-- Where a mapping is when one more character stands in front of the text. -/
def behindMark (mapping : Mapping) : Mapping :=
  if mapping.line = 0 then { mapping with column := mapping.column + 1 } else mapping

/-- Where a mapping is when one more line stands in front of the text. -/
def behindLine (mapping : Mapping) : Mapping := { mapping with line := mapping.line + 1 }

theorem behindMark_place (mapping : Mapping) : (behindMark mapping).place
    = if mapping.line = 0 then ⟨1, mapping.place.column + 1⟩ else mapping.place := by
  unfold behindMark Mapping.place
  split
  next first => simp [first]
  next => rfl

theorem BeginsAt.behindMark {css : List Char} {construct : Construct} {mapping : Mapping}
    (begins : BeginsAt css construct mapping) {c : Char} (inLine : c ≠ '\n') :
    BeginsAt (c :: css) construct (Css.behindMark mapping) := by
  obtain ⟨before, here, place⟩ := begins.place
  have shifted := Position.after_columns Position.start 1 before
  refine ⟨⟨c :: before, (List.prefix_cons_inj c).2 here, ?_⟩, ?_, ?_, ?_⟩
  · rw [Position.after_cons, Position.next, if_neg inLine, shifted, place, behindMark_place]
    simp [Mapping.place, Position.start]
  all_goals
    unfold Css.behindMark
    split
  · exact begins.source
  · exact begins.source
  · exact begins.sourceLine
  · exact begins.sourceLine
  · exact begins.sourceColumn
  · exact begins.sourceColumn

theorem BeginsAt.behindLine {css lead : List Char} {construct : Construct} {mapping : Mapping}
    (begins : BeginsAt css construct mapping) (inLine : '\n' ∉ lead) :
    BeginsAt (lead ++ ['\n'] ++ css) construct (Css.behindLine mapping) := by
  obtain ⟨before, here, place⟩ := begins.place
  have shifted := Position.after_lines Position.start 1 before
  refine ⟨⟨lead ++ ['\n'] ++ before, ?_, ?_⟩, begins.source, begins.sourceLine, begins.sourceColumn⟩
  · rw [List.append_assoc _ before]
    exact (List.prefix_append_right_inj _).2 here
  · rw [Position.after_append, Position.after_linefeed _ inLine]
    refine shifted.trans ?_
    rw [place]
    rfl

theorem before_behindMark {first second : Mapping} (before : first.place.Before second.place) :
    (Css.behindMark first).place.Before (Css.behindMark second).place := by
  rw [behindMark_place, behindMark_place]
  unfold Position.Before Mapping.place at *
  split <;> split <;> simp_all

theorem before_behindLine {first second : Mapping} (before : first.place.Before second.place) :
    (Css.behindLine first).place.Before (Css.behindLine second).place := by
  unfold Position.Before Css.behindLine Mapping.place at *
  simpa using before

/-- The mark of the encoding moves all mappings with the text. -/
theorem Format.Marked.declareEncoding (ends : EndsLine format.linefeed) (marked : Marked kept constructs output) :
    List.Forall₂ (BeginsAt (format.declareEncoding output).css.toList) constructs
        (format.declareEncoding output).mappings ∧
      (format.declareEncoding output).mappings.Pairwise fun first second => first.place.Before second.place := by
  have begins : List.Forall₂ (BeginsAt output.text) constructs output.marks.reverse :=
    marked.begins.imp fun _ _ begins => begins.mono marked.inside
  have ordered := List.pairwise_reverse.2 marked.ordered
  unfold Format.declareEncoding
  split
  · exact ⟨by simpa [Output.text] using begins, ordered⟩
  · split
    · refine ⟨?_, ?_⟩
      · simp only [String.toList_append, String.toList_ofList]
        exact List.forall₂_map_right_iff.2 (begins.imp fun _ _ begins => begins.behindMark (by decide))
      · exact List.pairwise_map.2 (ordered.imp before_behindMark)
    · refine ⟨?_, ?_⟩
      · obtain ⟨lead, inLine, same⟩ := ends
        have charset : '\n' ∉ "@charset \"UTF-8\";".toList ++ lead := by simpa using inLine
        simp only [String.toList_append, String.toList_ofList, same, ← List.append_assoc]
        exact List.forall₂_map_right_iff.2 (begins.imp fun _ _ begins => begins.behindLine charset)
      · exact List.pairwise_map.2 (ordered.imp before_behindLine)

end Encoding

section Trees

/-- Every construct that is written has one mapping, which stands where the construct begins in the
text, and the mappings stand in the order of the text. The line and the column that the writer keeps
never fall below zero when it takes characters back. -/
theorem mappings_at_constructs (tree : Tree) (format : Format) (ends : EndsLine format.linefeed) :
    (∀ written, tree.write format = .ok written →
      List.Forall₂ (BeginsAt written.css.toList) (format.shownConstructs tree.forest) written.mappings ∧
      written.mappings.Pairwise fun first second => first.place.Before second.place) ∧
    ∀ output : Output,
      (format.linefeed.toList <:+ output.text →
        (output.dropLinefeed format.linefeed).line + format.linefeed.toList.count '\n' = output.line) ∧
      ([';'] <:+ output.text → output.dropSemicolon.column + 1 = output.column) := by
  refine ⟨fun written run => ?_, fun output => ⟨?_, ?_⟩⟩
  · obtain ⟨output, nodes, rfl⟩ := Except.map_eq_ok run
    obtain ⟨kept, marked, -⟩ := writeNodes_marked ends tree.forest marked_empty nodes
    exact marked.declareEncoding ends
  · exact output.dropLinefeed_line ends.ne_nil
  · exact output.dropSemicolon_column

/-- A rule of a media block, with a text that is not ASCII and a comment. -/
def sampleTree : Tree :=
  let span (line column : Nat) : Span := ⟨0, ⟨line, column⟩⟩
  let tree := (Tree.empty.addSource "stdin" "").2
  let (media, tree) := tree.push none (.block "media" "screen") 0 (span 1 1)
  let (rule, tree) := tree.push (some media) (.rule [⟨[⟨[.className "a"], .none⟩]⟩]) 1 (span 2 3)
  let tree := tree.pushItem rule (.declaration ⟨"content", .unquoted "é", false, span 3 5⟩)
  tree.pushItem rule (.comment ⟨"/* end */", by decide⟩)

theorem mappings_at_constructs_sample :
    EndsLine "\r\n" ∧
      ∃ written, sampleTree.write ⟨.compact, 5, "  ", "\r\n", false⟩ = .ok written ∧
        written.mappings = [⟨1, 0, 0, 0, 0⟩, ⟨2, 2, 0, 1, 2⟩, ⟨2, 7, 0, 2, 4⟩] ∧
        List.Forall₂ (BeginsAt written.css.toList)
          (Format.shownConstructs ⟨.compact, 5, "  ", "\r\n", false⟩ sampleTree.forest) written.mappings := by
  have ends : EndsLine "\r\n" := ⟨['\r'], by decide, rfl⟩
  refine ⟨ends, _, rfl, rfl, ?_⟩
  exact ((mappings_at_constructs sampleTree _ ends).1 _ rfl).1

end Trees

end Css

end Stylesheet
