import Stylesheet.Proofs.MappingPlaces
import Stylesheet.Text.Cuts

/-! What a tree says in every layout but the compressed one. The layouts put blanks of their own between the same
texts, and at least one blank between any two of them, so the CSS of each is the same sequence of words. -/

namespace Stylesheet

namespace Text

/-- The blank characters of ASCII. -/
def isAsciiBlank (c : Char) : Bool := [' ', '\t', '\n', '\x0c', '\r'].contains c

/-- The maximal runs of characters that are not blank, whatever counts as blank. -/
def wordsBy (blank : Char → Bool) (cs : List Char) : List (List Char) := (pieces blank cs).filter (!·.isEmpty)

variable {blank : Char → Bool} {c : Char} {cs rest : List Char}

theorem isBlank_of_isAsciiBlank (ascii : isAsciiBlank c = true) : isBlank c = true := by
  simp only [isAsciiBlank, List.contains_iff_mem, List.mem_cons, List.not_mem_nil, or_false] at ascii
  rcases ascii with rfl | rfl | rfl | rfl | rfl <;> decide

theorem lt_of_isAsciiBlank (ascii : isAsciiBlank c = true) : c.toNat < 128 := by
  simp only [isAsciiBlank, List.contains_iff_mem, List.mem_cons, List.not_mem_nil, or_false] at ascii
  rcases ascii with rfl | rfl | rfl | rfl | rfl <;> decide

/-- Blank characters alone, such as what separates two words. -/
def Spaces (blank : Char → Bool) (cs : List Char) : Prop := ∀ c ∈ cs, blank c = true

/-- A text behind which a word begins. -/
def Ended (blank : Char → Bool) (cs : List Char) : Prop := ∀ c ∈ cs.getLast?, blank c = true

theorem wordsBy_append_separator (separates : blank c = true) (cs rest : List Char) :
    wordsBy blank (cs ++ c :: rest) = wordsBy blank cs ++ wordsBy blank rest := by
  rw [wordsBy, pieces_append_separator separates, List.filter_append, wordsBy, wordsBy]

theorem wordsBy_append_of_ended (ended : Ended blank cs) (rest : List Char) :
    wordsBy blank (cs ++ rest) = wordsBy blank cs ++ wordsBy blank rest := by
  cases cs using List.reverseRecOn with
  | nil => rfl
  | append_singleton cs c =>
    have separates : blank c = true := ended c List.getLast?_concat
    rw [List.append_assoc, List.singleton_append, wordsBy_append_separator separates,
      wordsBy_append_separator separates, List.append_assoc]
    rfl

theorem wordsBy_spaces (spaces : Spaces blank cs) : wordsBy blank cs = [] := by
  induction cs with
  | nil => rfl
  | cons c cs ih =>
    have separates : blank c = true := spaces c List.mem_cons_self
    have begun := wordsBy_append_separator separates [] cs
    rwa [ih fun c member => spaces c (List.mem_cons_of_mem _ member), List.nil_append] at begun

theorem Spaces.ended (spaces : Spaces blank cs) : Ended blank cs :=
  fun c last => spaces c (List.mem_of_getLast? last)

theorem ended_append (spaces : Spaces blank rest) (nonempty : rest ≠ []) (cs : List Char) :
    Ended blank (cs ++ rest) := by
  intro last found
  rw [List.getLast?_append_of_ne_nil _ nonempty] at found
  exact spaces.ended last found

/-- Blanks between two texts, or at an end of one, make no word. -/
theorem wordsBy_append_spaces (spaces : Spaces blank rest) (nonempty : rest ≠ []) (cs more : List Char) :
    wordsBy blank (cs ++ (rest ++ more)) = wordsBy blank cs ++ wordsBy blank more := by
  cases rest with
  | nil => exact absurd rfl nonempty
  | cons c rest =>
    have separates : blank c = true := spaces c List.mem_cons_self
    have tail : Spaces blank rest := fun c member => spaces c (List.mem_cons_of_mem _ member)
    rw [List.cons_append, wordsBy_append_separator separates, wordsBy_append_of_ended tail.ended, wordsBy_spaces tail,
      List.nil_append]

theorem wordsBy_trailing (spaces : Spaces blank rest) (cs : List Char) :
    wordsBy blank (cs ++ rest) = wordsBy blank cs := by
  cases rest with
  | nil => rw [List.append_nil]
  | cons c rest =>
    have apart := wordsBy_append_spaces spaces (List.cons_ne_nil _ _) cs []
    rwa [List.append_nil, show wordsBy blank [] = [] from rfl, List.append_nil] at apart

/-- If all blanks are of a kind, a text is of that kind if its words are. -/
theorem all_wordsBy {kind : Char → Bool} (blanks : ∀ c, blank c = true → kind c = true) (cs : List Char) :
    (wordsBy blank cs).all (·.all kind) = cs.all kind := by
  have dropped (lists : List (List Char)) : (lists.filter (!·.isEmpty)).all (·.all kind) = lists.all (·.all kind) := by
    induction lists with
    | nil => rfl
    | cons first rest ih => cases first <;> simp_all
  rw [wordsBy, dropped]
  induction cs with
  | nil => rfl
  | cons c cs ih =>
    rw [List.all_cons, ← ih, pieces]
    split
    · next separates => simp [blanks c separates]
    · cases known : pieces blank cs with
      | nil => exact absurd known (pieces_ne_nil blank cs)
      | cons piece others => simp [Bool.and_assoc]

end Text

namespace Css
open Text Output

/-- The comment that tells where a rule comes from. -/
def Span.note (sources : List Source) (span : Span) : String :=
  "/* line " ++ toString span.pos.line ++ ", " ++ (sources[span.source]?.map Source.path).getD "" ++ " */"

def Item.wording (places : Nat) : Item → Except WriteError String
  | .declaration shown =>
    match shown.value.css places false with
    | .ok value => .ok (shown.property ++ ": " ++ value ++ (if shown.important then " !important" else "") ++ ";")
    | .error error => .error ⟨error, shown.span⟩
  | .comment text => .ok text

mutual

/-- Whether a node is written where all comments are. -/
def Node.isSeen : Node → Bool
  | .node entry children =>
    match entry.content with
    | .rule selectors => !selectors.withoutPlaceholders.isEmpty && !entry.items.isEmpty
    | .block _ _ => !entry.items.isEmpty || Node.anySeen children
    | .directive _ _ | .comment _ => true

def Node.anySeen : List Node → Bool
  | [] => false
  | first :: rest => first.isSeen || Node.anySeen rest

end

/-- Texts that stand behind each other. -/
def joinedTexts (first second : Except WriteError (List String)) : Except WriteError (List String) := do
  let texts ← first
  return texts ++ (← second)

section Wording

variable (places : Nat) (located : Bool) (sources : List Source)

mutual

/-- The texts of a node, between any two of which there is a blank. -/
def Node.wording : Node → Except WriteError (List String)
  | .node entry children =>
    match entry.content with
    | .rule selectors => do
      let inside ← entry.items.mapM (Item.wording places)
      let note := if located then [entry.span.note sources] else []
      return note ++ [selectors.withoutPlaceholders.css false, "\x7b"] ++ inside ++ ["\x7d"]
    | .block name parameters => do
      let inside ← joinedTexts (entry.items.mapM (Item.wording places)) (Node.wordings children)
      return [Format.directiveText name parameters, "\x7b"] ++ inside ++ ["\x7d"]
    | .directive name parameters => .ok [Format.directiveText name parameters ++ ";"]
    | .comment comment => .ok [comment]

def Node.wordings : List Node → Except WriteError (List String)
  | [] => .ok []
  | first :: rest =>
    if first.isSeen then joinedTexts first.wording (Node.wordings rest) else Node.wordings rest

end

/-- What stands in front of a text that is not ASCII. -/
def encodingTexts (texts : List String) : List String :=
  if texts.all (·.toList.all (·.toNat < 128)) then [] else ["@charset \"UTF-8\";"]

/-- The texts of a tree, in the order in which they are written. -/
def Tree.wording (tree : Tree) : Except WriteError (List String) :=
  (Node.wordings places located tree.sources tree.forest).map fun texts => encodingTexts texts ++ texts

end Wording

/-- A format that keeps texts apart, with blanks only. -/
structure Format.Spaced (blank : Char → Bool) (format : Format) : Prop where
  layout : format.layout ≠ .compressed
  space : blank ' ' = true
  indent : Spaces blank format.indent.toList
  linefeed : Spaces blank format.linefeed.toList
  nonempty : format.linefeed.toList ≠ []

/-- What stands behind the first text in the second one are these texts. -/
def Adds (blank : Char → Bool) (texts : List String) (before after : List Char) : Prop :=
  wordsBy blank after = wordsBy blank before ++ texts.flatMap (wordsBy blank ·.toList)

variable {blank : Char → Bool} {format : Format} {texts more : List String} {before between after : List Char}
  {lead trail added : List Char}

theorem Adds.trans (first : Adds blank texts before between) (second : Adds blank more between after) :
    Adds blank (texts ++ more) before after := by
  rw [Adds, second, first, List.flatMap_append, List.append_assoc]

/-- A text between blanks. -/
theorem adds_text (before : List Char) (text : String) (begins : Spaces blank lead) (ends : Spaces blank trail)
    (apart : lead = [] → Ended blank before) :
    Adds blank [text] before (before ++ (lead ++ (text.toList ++ trail))) := by
  have word : wordsBy blank (text.toList ++ trail) = wordsBy blank text.toList := wordsBy_trailing ends _
  rw [Adds, List.flatMap_singleton]
  by_cases empty : lead = []
  · rw [empty, List.nil_append, wordsBy_append_of_ended (apart empty), word]
  · rw [wordsBy_append_spaces begins empty, word]

theorem adds_spaces (before : List Char) (spaces : Spaces blank added) : Adds blank [] before (before ++ added) := by
  rw [Adds, wordsBy_trailing spaces, List.flatMap_nil, List.append_nil]

/-- In a compact layout each text brings the blank in front of it along. -/
def Format.Ready (blank : Char → Bool) (format : Format) (text : List Char) : Prop :=
  format.layout ≠ .compact → Ended blank text

namespace Format.Spaced

variable (spaced : format.Spaced blank)

include spaced

theorem isCompressed : format.isCompressed = false := by
  have other := spaced.layout
  unfold Format.isCompressed
  cases layout : format.layout <;> simp_all

theorem indentation (level : Nat) : Spaces blank (format.indentation level) := by
  unfold Format.indentation
  rw [spaced.isCompressed, if_neg (by decide)]
  intro c member
  obtain ⟨piece, copied, inside⟩ := List.mem_flatten.1 member
  exact spaced.indent c (List.eq_of_mem_replicate copied ▸ inside)

theorem lineEnd : Spaces blank format.lineEnd ∧ format.lineEnd ≠ [] := by
  unfold Format.lineEnd
  rw [spaced.isCompressed, if_neg (by decide)]
  exact ⟨spaced.linefeed, spaced.nonempty⟩

theorem one : Spaces blank [' '] := by
  intro c member
  rw [List.mem_singleton.1 member]
  exact spaced.space

theorem beginItem (level : Nat) : ∃ lead, Appends (format.beginItem level) lead ∧ Spaces blank lead ∧
    (format.layout = .compact → lead ≠ []) := by
  have other := spaced.layout
  unfold Format.beginItem
  cases layout : format.layout with
  | nested | expanded => exact ⟨_, format.appends_indentTo (level + 1), spaced.indentation _, nofun⟩
  | compact => exact ⟨_, appends_write " ", spaced.one, fun _ => by decide⟩
  | compressed => exact absurd layout other

theorem itemEnd : Spaces blank format.itemEnd ∧ (format.layout ≠ .compact → format.itemEnd ≠ []) := by
  have other := spaced.layout
  unfold Format.itemEnd
  cases layout : format.layout with
  | nested | expanded => exact ⟨spaced.lineEnd.1, fun _ => spaced.lineEnd.2⟩
  | compact => exact ⟨nofun, fun apart => absurd rfl apart⟩
  | compressed => exact absurd layout other

theorem ended_lineEnd (text : List Char) : Ended blank (text ++ format.lineEnd) :=
  ended_append spaced.lineEnd.1 spaced.lineEnd.2 text

theorem openBrace (output : Output) : Adds blank ["\x7b"] output.text (format.openBrace output).text ∧
    format.Ready blank (format.openBrace output).text := by
  have other := spaced.layout
  have brace {trail : List Char} (spaces : Spaces blank trail) :
      Adds blank ["\x7b"] output.text (output.text ++ (" \x7b".toList ++ trail)) :=
    adds_text output.text "\x7b" spaced.one spaces nofun
  unfold Format.openBrace Format.Ready
  cases layout : format.layout with
  | compact =>
    dsimp only
    rw [(appends_write " \x7b" output).1]
    have alone := brace (show Spaces blank [] from nofun)
    rw [List.append_nil] at alone
    exact ⟨alone, fun apart => absurd rfl apart⟩
  | nested | expanded =>
    have same := ((appends_write " \x7b").comp format.appends_newline output).1
    rw [Function.comp] at same
    dsimp only
    rw [same]
    refine ⟨brace spaced.lineEnd.1, fun _ => ?_⟩
    rw [← List.append_assoc]
    exact spaced.ended_lineEnd _
  | compressed => exact absurd layout other

/-- What a closing brace takes back is no part of a word. -/
theorem takenBack (text : List Char) : wordsBy blank (format.takenBack text) = wordsBy blank text := by
  have other := spaced.layout
  unfold Format.takenBack
  cases layout : format.layout with
  | compressed => exact absurd layout other
  | expanded => rfl
  | nested | compact =>
    dsimp only
    split
    · next found =>
      obtain ⟨rest, split⟩ := List.isSuffixOf_iff_suffix.1 found
      rw [← split, List.length_append, Nat.add_sub_cancel, List.take_left' rfl, wordsBy_trailing spaced.linefeed]
    · rfl

theorem closeBrace (level : Nat) {output : Output} (ready : format.Ready blank output.text) :
    Adds blank ["\x7d"] output.text (format.closeBrace level output).text ∧
      Ended blank (format.closeBrace level output).text := by
  have other := spaced.layout
  obtain ⟨lead, closing, spaces, apart⟩ : ∃ lead, format.closing level = lead ++ ("\x7d".toList ++ format.lineEnd) ∧
      Spaces blank lead ∧ (lead = [] → Ended blank (format.takenBack output.text)) := by
    unfold Format.closing Format.takenBack
    cases layout : format.layout with
    | compressed => exact absurd layout other
    | nested | compact => exact ⟨[' '], rfl, spaced.one, nofun⟩
    | expanded => exact ⟨_, rfl, spaced.indentation level, fun _ => ready (by rw [layout]; decide)⟩
  rw [(format.closeBrace_text level output).1, closing]
  constructor
  · have closed := adds_text (format.takenBack output.text) "\x7d" spaces spaced.lineEnd.1 apart
    rwa [Adds, spaced.takenBack] at closed
  · rw [← List.append_assoc, ← List.append_assoc]
    exact spaced.ended_lineEnd _

end Format.Spaced

/-- An attempt to write gives these texts and ends as it should, or fails for the same reason as they do. -/
inductive Spells (blank : Char → Bool) (ends : List Char → Prop) (before : List Char) :
    Except WriteError (List String) → Except WriteError Output → Prop
  | ok {texts : List String} {output : Output} (adds : Adds blank texts before output.text) (holds : ends output.text) :
    Spells blank ends before (.ok texts) (.ok output)
  | error (error : WriteError) : Spells blank ends before (.error error) (.error error)

/-- What is written behind something else. -/
theorem Spells.bind {mid ends : List Char → Prop} {texts more : Except WriteError (List String)}
    {run : Except WriteError Output} {next : Output → Except WriteError Output}
    (first : Spells blank mid before texts run)
    (rest : ∀ {output}, mid output.text → Spells blank ends output.text more (next output)) :
    Spells blank ends before (joinedTexts texts more) (run >>= next) := by
  cases first with
  | error error => exact .error error
  | @ok _ output adds holds =>
    have later := rest holds
    change Spells blank ends before _ (next output)
    generalize next output = written at later
    cases later with
    | ok more holds => exact .ok (adds.trans more) holds
    | error error => exact .error error

theorem Spells.behind {ends : List Char → Prop} {texts : Except WriteError (List String)}
    {run : Except WriteError Output} (spells : Spells blank ends between texts run)
    (blanks : Adds blank [] before between) : Spells blank ends before texts run := by
  cases spells with
  | error error => exact .error error
  | ok adds holds => exact .ok (blanks.trans adds) holds

theorem Spells.imp {ends ends' : List Char → Prop} {texts : Except WriteError (List String)}
    {run : Except WriteError Output} (spells : Spells blank ends before texts run)
    (implies : ∀ {text}, ends text → ends' text) : Spells blank ends' before texts run := by
  cases spells with
  | error error => exact .error error
  | ok adds holds => exact .ok adds (implies holds)

theorem Node.wordings_of_unseen {places : Nat} {located : Bool} {sources : List Source} {nodes : List Node}
    (unseen : Node.anySeen nodes = false) : Node.wordings places located sources nodes = .ok [] := by
  induction nodes with
  | nil => rfl
  | cons first rest later =>
    rw [Node.anySeen, Bool.or_eq_false_iff] at unseen
    rw [Node.wordings, unseen.1, later unseen.2]
    rfl

/-- What is written of a block: the items, the nodes in it and the closing brace. -/
theorem Format.writeNode_block (format : Format) {sources : List Source} {level : Nat} {entry : Entry}
    {children : List Node} {name parameters : String} (content : entry.content = .block name parameters)
    (before : Output) :
    let indent := if format.layout == .nested then entry.depth else level
    let opened := format.openBrace (((format.indentTo indent before).mark entry.span).write
      (directiveText name parameters))
    format.writeNode sources level (.node entry children) before =
      ((format.writeItems indent entry.items opened >>= fun filled =>
        if format.showsAny children then format.writeNodes sources (level + 1) false children
          (format.beforeNodes (entry.items.any format.showsItem) filled) else .ok filled) >>=
        fun output => .ok (format.closeBrace indent output)) := by
  intro indent opened
  rw [← writeItems_if_shown]
  simp only [writeNode, content]
  split
  · cases format.writeItems indent entry.items opened with
    | error error => rfl
    | ok filled =>
      change (if format.showsAny children = true then _ else _) = (if format.showsAny children = true then _ else _) >>= _
      split <;> rfl
  · change (if format.showsAny children = true then _ else _) = (if format.showsAny children = true then _ else _) >>= _
    split <;> rfl

mutual

theorem Format.shows_spaced (spaced : format.Spaced blank) : (node : Node) → format.shows node = node.isSeen
  | .node entry children => by
    have seen (items : List Item) : items.any format.showsItem = !items.isEmpty := by
      cases items with
      | nil => rfl
      | cons item rest => cases item <;> simp [showsItem, showsComment, spaced.isCompressed]
    rw [shows, Node.isSeen]
    cases entry.content <;> simp [seen, showsAny_spaced spaced children, showsComment, spaced.isCompressed]

theorem Format.showsAny_spaced (spaced : format.Spaced blank) : (nodes : List Node) →
    format.showsAny nodes = Node.anySeen nodes
  | [] => rfl
  | first :: rest => by rw [showsAny, Node.anySeen, shows_spaced spaced first, showsAny_spaced spaced rest]

end

section Nodes

variable {sources : List Source} (spaced : format.Spaced blank)

include spaced

/-- Between what stands before and behind an item there is a blank. -/
theorem Format.writeItem_spells (level : Nat) (item : Item) {before : Output}
    (ready : format.Ready blank before.text) :
    Spells blank (format.Ready blank) before.text ((item.wording format.places).map ([·]))
      (format.writeItem level item before) := by
  obtain ⟨lead, begins, spaces, apart⟩ := spaced.beginItem level
  obtain ⟨blanks, nonempty⟩ := spaced.itemEnd
  have begun : lead = [] → Ended blank before.text := fun empty => ready fun compact => apart compact empty
  have written (text : String) (output : Output) (same : output.text = (format.beginItem level before).text) :
      Adds blank [text] before.text (format.endItem (output.write text)).text ∧
        format.Ready blank (format.endItem (output.write text)).text := by
    rw [(format.appends_endItem _).1, (appends_write text _).1, same, (begins before).1]
    refine ⟨?_, fun other => ended_append blanks (nonempty other) _⟩
    rw [List.append_assoc, List.append_assoc]
    exact adds_text before.text text spaces blanks begun
  cases item with
  | declaration declaration =>
    have plain (value : String) : format.declarationText declaration value = declaration.property ++ ": " ++ value ++
        (if declaration.important then " !important" else "") ++ ";" := by
      rw [declarationText, spaced.isCompressed, if_neg (by decide)]
    simp only [writeItem, Item.wording, spaced.isCompressed]
    cases declaration.value.css format.places false with
    | error error => exact .error _
    | ok value =>
      dsimp only
      rw [← plain]
      obtain ⟨adds, ready⟩ := written (format.declarationText declaration value)
        ((format.beginItem level before).mark declaration.span) rfl
      exact .ok adds ready
  | comment comment =>
    have shown : format.showsComment comment = true := by rw [showsComment, spaced.isCompressed]; rfl
    simp only [writeItem, Item.wording, if_pos shown]
    obtain ⟨adds, ready⟩ := written comment (format.beginItem level before) rfl
    exact .ok adds ready

theorem Format.writeItems_spells (level : Nat) (items : List Item) {before : Output}
    (ready : format.Ready blank before.text) :
    Spells blank (format.Ready blank) before.text (items.mapM (Item.wording format.places))
      (format.writeItems level items before) := by
  induction items generalizing before with
  | nil => exact .ok (by simp [Adds]) ready
  | cons item rest tail =>
    have first := format.writeItem_spells spaced level item ready
    rw [writeItems, List.foldlM_cons, List.mapM_cons]
    generalize item.wording format.places = text, format.writeItem level item before = written at first
    cases text with
    | error error => cases first; exact .error error
    | ok text =>
      cases first with
      | @ok _ output adds ready =>
        have later := tail ready
        rw [writeItems] at later
        change Spells blank _ before.text (rest.mapM (Item.wording format.places) >>= fun more => .ok (text :: more))
          (rest.foldlM (fun output item => format.writeItem level item output) output)
        generalize rest.mapM (Item.wording format.places) = texts,
          rest.foldlM (fun output item => format.writeItem level item output) output = written at later
        cases later with
        | ok more ready => exact .ok (adds.trans more) ready
        | error error => exact .error error

/-- A text and the brace that opens a block behind it. -/
theorem Format.openBlock_adds (indent : Nat) (span : Span) (text : String) {before : Output}
    (ended : Ended blank before.text) :
    let opened := format.openBrace (((format.indentTo indent before).mark span).write text)
    Adds blank [text, "\x7b"] before.text opened.text ∧ format.Ready blank opened.text := by
  intro opened
  obtain ⟨brace, ready⟩ := spaced.openBrace (((format.indentTo indent before).mark span).write text)
  have front : Adds blank [text] before.text (((format.indentTo indent before).mark span).write text).text := by
    rw [(appends_write text _).1]
    change Adds blank [text] before.text ((format.indentTo indent before).text ++ text.toList)
    rw [(format.appends_indentTo indent before).1, List.append_assoc, ← List.append_nil text.toList]
    exact adds_text before.text text (spaced.indentation indent) nofun fun _ => ended
  exact ⟨front.trans brace, ready⟩

/-- A block, from what stands before it to the brace that closes it. -/
theorem Spells.closeBrace {texts : Except WriteError (List String)} {run : Except WriteError Output}
    {fronts : List String} (level : Nat) (front : Adds blank fronts before between)
    (inside : Spells blank (format.Ready blank) between texts run) :
    Spells blank (Ended blank) before (texts >>= fun inside => .ok (fronts ++ inside ++ ["\x7d"]))
      (run >>= fun output => .ok (format.closeBrace level output)) := by
  cases inside with
  | error error => exact .error error
  | ok adds ready =>
    obtain ⟨brace, ended⟩ := spaced.closeBrace level ready
    exact .ok ((front.trans adds).trans brace) ended

/-- A text that has its line alone. -/
theorem Format.writeLine_adds (indent : Nat) (text : String) {before : Output} (ended : Ended blank before.text)
    (begun : Output) (same : begun.text = (format.indentTo indent before).text) :
    Adds blank [text] before.text (format.newline (begun.write text)).text ∧
      Ended blank (format.newline (begun.write text)).text := by
  rw [(format.appends_newline _).1, (appends_write text _).1, same, (format.appends_indentTo indent before).1]
  refine ⟨?_, spaced.ended_lineEnd _⟩
  rw [List.append_assoc, List.append_assoc]
  exact adds_text before.text text (spaced.indentation indent) spaced.lineEnd.1 fun _ => ended

theorem Format.writePlace_adds (sources : List Source) (indent : Nat) (span : Span) {before : Output}
    (ended : Ended blank before.text) :
    let placed := format.writePlace sources indent span before
    Adds blank (if format.sourceComments then [span.note sources] else []) before.text placed.text ∧
      Ended blank placed.text := by
  intro placed
  cases located : format.sourceComments with
  | false =>
    have none : placed = before := by simp [placed, writePlace, located]
    rw [none]
    exact ⟨by simp [Adds], ended⟩
  | true =>
    have line : placed = format.newline ((format.indentTo indent before).write (span.note sources)) := by
      simp [placed, writePlace, located, spaced.isCompressed, Span.note]
    rw [line]
    exact format.writeLine_adds spaced indent (span.note sources) ended _ rfl

theorem Format.beforeNodes_adds (hasItems : Bool) {before : Output} (ready : format.Ready blank before.text) :
    Adds blank [] before.text (format.beforeNodes hasItems before).text ∧
      Ended blank (format.beforeNodes hasItems before).text := by
  have other := spaced.layout
  have line : Adds blank [] before.text (format.newline before).text ∧ Ended blank (format.newline before).text := by
    rw [(format.appends_newline before).1]
    exact ⟨adds_spaces _ spaced.lineEnd.1, spaced.ended_lineEnd _⟩
  have space : Adds blank [] before.text (before.write " ").text ∧ Ended blank (before.write " ").text := by
    rw [(appends_write " " before).1]
    exact ⟨adds_spaces _ spaced.one, ended_append spaced.one (by decide) _⟩
  unfold beforeNodes
  cases layout : format.layout with
  | compressed => exact absurd layout other
  | compact => cases hasItems <;> assumption
  | nested | expanded =>
    have still : Adds blank [] before.text before.text ∧ Ended blank before.text :=
      ⟨by simp [Adds], ready (by rw [layout]; decide)⟩
    cases hasItems <;> assumption

mutual

/-- Where a word may begin, the texts of a node are written, and a word may begin behind it. -/
theorem Format.writeNode_spells (level : Nat) : (node : Node) → {before : Output} → Ended blank before.text →
    Spells blank (Ended blank) before.text (node.wording format.places format.sourceComments sources)
      (format.writeNode sources level node before)
  | .node entry children, before, ended => by
    obtain ⟨indent, nested⟩ : ∃ indent, (if format.layout == .nested then entry.depth else level) = indent :=
      ⟨_, rfl⟩
    cases content : entry.content with
    | directive name parameters =>
      simp only [writeNode, Node.wording, content, nested]
      obtain ⟨adds, ended⟩ := format.writeLine_adds spaced indent (directiveText name parameters ++ ";") ended
        ((format.indentTo indent before).mark entry.span) rfl
      exact .ok adds ended
    | comment comment =>
      simp only [writeNode, Node.wording, content, nested]
      obtain ⟨adds, ended⟩ := format.writeLine_adds spaced indent comment ended
        ((format.indentTo indent before).mark entry.span) rfl
      exact .ok adds ended
    | rule selectors =>
      simp only [writeNode, Node.wording, content, nested, spaced.isCompressed]
      obtain ⟨note, ended⟩ := format.writePlace_adds spaced sources indent entry.span ended
      obtain ⟨front, ready⟩ :=
        format.openBlock_adds spaced indent entry.span (selectors.withoutPlaceholders.css false) ended
      exact .closeBrace spaced indent (note.trans front) (format.writeItems_spells spaced indent entry.items ready)
    | block name parameters =>
      obtain ⟨front, ready⟩ := format.openBlock_adds spaced indent entry.span (directiveText name parameters) ended
      have items := format.writeItems_spells spaced indent entry.items ready
      have inside {output : Output} (ready : format.Ready blank output.text) : Spells blank (format.Ready blank)
          output.text (Node.wordings format.places format.sourceComments sources children)
          (if format.showsAny children then format.writeNodes sources (level + 1) false children
            (format.beforeNodes (entry.items.any format.showsItem) output) else .ok output) := by
        split
        · obtain ⟨blanks, ended⟩ := format.beforeNodes_adds spaced (entry.items.any format.showsItem) ready
          exact ((writeNodes_spells (level + 1) false children ended).behind blanks).imp fun ended _ => ended
        · next hidden =>
          have unseen : Node.anySeen children = false := by simpa [← format.showsAny_spaced spaced] using hidden
          rw [Node.wordings_of_unseen unseen]
          exact .ok (by simp [Adds]) ready
      rw [format.writeNode_block content, Node.wording, content, nested]
      exact (items.bind inside).closeBrace spaced indent front

theorem Format.writeNodes_spells (level : Nat) (group : Bool) : (nodes : List Node) → {before : Output} →
    Ended blank before.text →
    Spells blank (Ended blank) before.text (Node.wordings format.places format.sourceComments sources nodes)
      (format.writeNodes sources level group nodes before)
  | [], before, ended => .ok (by simp [Adds]) ended
  | node :: rest, before, ended => by
    rw [writeNodes, Node.wordings, format.shows_spaced spaced]
    split
    · have separated : Adds blank [] before.text
          (if group && format.startsGroup level node.entry then format.newline before else before).text ∧
          Ended blank
            (if group && format.startsGroup level node.entry then format.newline before else before).text := by
        split
        · rw [(format.appends_newline before).1]
          exact ⟨adds_spaces _ spaced.lineEnd.1, spaced.ended_lineEnd _⟩
        · exact ⟨by simp [Adds], ended⟩
      exact ((writeNode_spells level node separated.2).behind separated.1).bind fun ended =>
        writeNodes_spells level (isGroup node.entry) rest ended
    · exact writeNodes_spells level group rest ended

end

end Nodes

theorem Format.Spaced.mono {wider : Char → Bool} (spaced : format.Spaced blank)
    (wide : ∀ c, blank c = true → wider c = true) : format.Spaced wider where
  layout := spaced.layout
  space := wide _ spaced.space
  indent c member := wide c (spaced.indent c member)
  linefeed c member := wide c (spaced.linefeed c member)
  nonempty := spaced.nonempty

/-- A text that is all ASCII has words that are. -/
theorem Adds.all_ascii (adds : Adds isAsciiBlank texts [] after) :
    after.all (·.toNat < 128) = texts.all (·.toList.all (·.toNat < 128)) := by
  have ascii : ∀ c, isAsciiBlank c = true → decide (c.toNat < 128) = true := fun c blank =>
    decide_eq_true (lt_of_isAsciiBlank blank)
  have words : wordsBy isAsciiBlank after = texts.flatMap (wordsBy isAsciiBlank ·.toList) := adds
  rw [← all_wordsBy ascii, words, List.all_flatMap]
  exact congrArg (texts.all ·) (funext fun text => all_wordsBy ascii text.toList)

/-- In front of a text that is not ASCII there is one more line. -/
theorem Format.declareEncoding_words (spaced : format.Spaced isAsciiBlank) {output : Output}
    (ascii : Adds isAsciiBlank texts [] output.text) (wide : ∀ c, isAsciiBlank c = true → blank c = true)
    (adds : Adds blank texts [] output.text) :
    wordsBy blank (format.declareEncoding output).css.toList =
      (encodingTexts texts ++ texts).flatMap (wordsBy blank ·.toList) := by
  have words : wordsBy blank output.text = texts.flatMap (wordsBy blank ·.toList) := adds
  have same : output.reversed.all (·.toNat < 128) = texts.all (·.toList.all (·.toNat < 128)) := by
    rw [← ascii.all_ascii, Output.text, List.all_reverse]
  unfold declareEncoding encodingTexts
  rw [spaced.isCompressed, same]
  split
  · exact (congrArg (wordsBy blank) String.toList_ofList).trans words
  · have wider := spaced.mono wide
    rw [if_neg (by decide), List.singleton_append, List.flatMap_cons, ← words]
    simp only [String.toList_append, String.toList_ofList, List.append_assoc]
    exact wordsBy_append_spaces wider.linefeed wider.nonempty _ _

/-- A format that keeps texts apart writes the texts of a tree, or fails where one of them cannot be told. -/
theorem Tree.write_spaced (tree : Tree) (spaced : format.Spaced isAsciiBlank) :
    (∃ error, tree.wording format.places format.sourceComments = .error error ∧
      tree.write format = .error error) ∨
    ∃ texts written, tree.wording format.places format.sourceComments = .ok texts ∧
      tree.write format = .ok written ∧
      ∀ blank : Char → Bool, (∀ c, isAsciiBlank c = true → blank c = true) →
        wordsBy blank written.css.toList = texts.flatMap (wordsBy blank ·.toList) := by
  have spells {blank : Char → Bool} (wide : ∀ c, isAsciiBlank c = true → blank c = true) :
      Spells blank (Ended blank) Output.empty.text
        (Node.wordings format.places format.sourceComments tree.sources tree.forest)
        (format.writeNodes tree.sources 0 false tree.forest Output.empty) :=
    format.writeNodes_spells (spaced.mono wide) 0 false tree.forest nofun
  unfold Tree.wording Tree.write
  generalize Node.wordings format.places format.sourceComments tree.sources tree.forest = texts,
    format.writeNodes tree.sources 0 false tree.forest Output.empty = run at spells
  have itself : ∀ c, isAsciiBlank c = true → isAsciiBlank c = true := fun _ blank => blank
  cases spells itself with
  | error error => exact .inl ⟨error, rfl, rfl⟩
  | ok ascii _ =>
    refine .inr ⟨_, _, rfl, rfl, fun blank wide => ?_⟩
    cases spells wide with
    | ok adds _ => exact format.declareEncoding_words spaced ascii wide adds

/-- The layouts that are not compressed differ in blanks only, whatever else counts as a blank besides those of
ASCII. Either a tree is written in all of them, in the same words, or in none, for the same reason. -/
theorem layouts_differ_in_blanks (tree : Tree) (places : Nat) (sourceComments : Bool) (indent linefeed : String)
    (indentBlank : ∀ c ∈ indent.toList, isAsciiBlank c = true)
    (linefeedBlank : ∀ c ∈ linefeed.toList, isAsciiBlank c = true) (nonempty : linefeed ≠ "") :
    let write (layout : Layout) := tree.write ⟨layout, places, indent, linefeed, sourceComments⟩
    (∃ error, ∀ layout ≠ .compressed, write layout = .error error) ∨
    ∃ written : Layout → Written, (∀ layout ≠ .compressed, write layout = .ok (written layout)) ∧
      ∀ blank : Char → Bool, (∀ c, isAsciiBlank c = true → blank c = true) →
        ∀ layout ≠ .compressed, ∀ other ≠ .compressed,
          wordsBy blank (written layout).css.toList = wordsBy blank (written other).css.toList := by
  intro write
  have spaced {layout : Layout} (apart : layout ≠ .compressed) :
      Format.Spaced isAsciiBlank ⟨layout, places, indent, linefeed, sourceComments⟩ :=
    ⟨apart, by decide, indentBlank, linefeedBlank, fun empty => nonempty (String.toList_eq_nil_iff.1 empty)⟩
  cases said : tree.wording places sourceComments with
  | error error =>
    refine .inl ⟨error, fun layout apart => ?_⟩
    rcases tree.write_spaced (spaced apart) with ⟨_, told, run⟩ | ⟨_, _, told, -⟩
    · cases said.symm.trans told
      exact run
    · cases said.symm.trans told
  | ok texts =>
    have written (layout : Layout) : ∃ written, layout ≠ .compressed → write layout = .ok written ∧
        ∀ blank : Char → Bool, (∀ c, isAsciiBlank c = true → blank c = true) →
          wordsBy blank written.css.toList = texts.flatMap (wordsBy blank ·.toList) := by
      by_cases apart : layout = .compressed
      · exact ⟨⟨"", []⟩, fun other => absurd apart other⟩
      · rcases tree.write_spaced (spaced apart) with ⟨_, told, -⟩ | ⟨_, written, told, run, words⟩
        · cases said.symm.trans told
        · cases said.symm.trans told
          exact ⟨written, fun _ => ⟨run, words⟩⟩
    choose written holds using written
    refine .inr ⟨written, fun layout apart => (holds layout apart).1, fun blank wide layout apart other differs => ?_⟩
    rw [(holds layout apart).2 blank wide, (holds other differs).2 blank wide]

/-- A media block with a text that is not ASCII, written with tabs and carriage returns. -/
theorem layouts_differ_in_blanks_sample :
    let write (layout : Layout) := sampleTree.write ⟨layout, 5, "\t", "\r\n", true⟩
    (∀ c ∈ "\t".toList, isAsciiBlank c = true) ∧ (∀ c ∈ "\r\n".toList, isAsciiBlank c = true) ∧ "\r\n" ≠ "" ∧
    ∃ nested compact, write .nested = .ok nested ∧ write .compact = .ok compact ∧
      words nested.css.toList = words compact.css.toList ∧
      words compact.css.toList = ["@charset", "\"UTF-8\";", "@media", "screen", "\x7b", "/*", "line", "2,", "stdin", "*/",
        ".a", "\x7b", "content:", "é;", "/*", "end", "*/", "\x7d", "\x7d"].map String.toList := by
  intro write
  have tab : ∀ c ∈ "\t".toList, isAsciiBlank c = true := by simp [isAsciiBlank]
  have ending : ∀ c ∈ "\r\n".toList, isAsciiBlank c = true := by simp [isAsciiBlank]
  refine ⟨tab, ending, by decide, ?_⟩
  have shown : (write .compact).map (words ·.css.toList) = .ok (["@charset", "\"UTF-8\";", "@media", "screen", "\x7b",
      "/*", "line", "2,", "stdin", "*/", ".a", "\x7b", "content:", "é;", "/*", "end", "*/", "\x7d", "\x7d"].map
        String.toList) := by rfl
  rcases layouts_differ_in_blanks sampleTree 5 true "\t" "\r\n" tab ending (by decide) with
    ⟨error, fails⟩ | ⟨written, writes, same⟩
  · rw [show write .compact = .error error from fails .compact (by decide)] at shown
    cases shown
  · rw [show write .compact = .ok (written .compact) from writes .compact (by decide)] at shown
    exact ⟨_, _, writes .nested (by decide), writes .compact (by decide),
      same isBlank (fun _ => isBlank_of_isAsciiBlank) .nested (by decide) .compact (by decide), Except.ok.inj shown⟩

end Css

end Stylesheet
