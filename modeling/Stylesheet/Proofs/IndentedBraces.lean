import Mathlib.Data.List.Infix
import Stylesheet.Proofs.IndentedBlocks
import Stylesheet.Text.Cuts

/-! The conversion of an indented stylesheet, for lines without comments and shorthands. It holds the latest line with
text back until the next one shows which blocks end there. -/

namespace Stylesheet.Indented

/-- A text that is neither a comment nor a shorthand, and holds no comment. -/
structure PlainText (text : List Char) : Prop where
  begins : text.head?.any (!Text.isBlank ·) = true
  unmarked : ∀ mark ∈ ["//".toList, "/*".toList, "=".toList, "+".toList, ":".toList, "@import".toList], ¬ mark <+: text
  uncommented : ¬ "//".toList <:+: text

/-- A line without text, or one with a plain text behind its indentation. -/
def Plain (line : List Char) : Prop :=
  '\n' ∉ line ∧ (hasText line = false ∨ PlainText (line.drop (indentation line)))

def joined (lines : List (List Char)) (ended : Bool) : List Char :=
  List.intercalate ['\n'] lines ++ if ended then ['\n'] else []

section Lines

variable {line text before cs : List Char} {later earlier : List (List Char)} {p : Progress}

theorem hasText_eq (line : List Char) : hasText line = !(Text.trimEnd line).isEmpty := by
  rw [Bool.eq_iff_iff]
  simp [hasText, Text.trimEnd_eq_nil]

theorem trim_isEmpty (line : List Char) : (!(Text.trim line).isEmpty) = hasText line := by
  have same : (∀ c ∈ line.dropWhile Text.isBlank, Text.isBlank c = true) ↔ ∀ c ∈ line, Text.isBlank c = true := by
    rw [← List.dropWhile_eq_nil_iff, ← List.dropWhile_eq_nil_iff, List.dropWhile_idempotent]
  rw [Bool.eq_iff_iff]
  simp [hasText, Text.trim, Text.trimStart, Text.trimEnd_eq_nil, same]

/-- Without two slashes in it a text stays as it is, up to the blanks at its end. -/
theorem stripComment_of_plain (quote : Option Char) (uncommented : ¬ "//".toList <:+: before.reverse ++ cs) :
    stripComment quote before cs = Text.trimEnd (before.reverse ++ cs) := by
  induction cs generalizing quote before with
  | nil => rw [stripComment, List.append_nil]
  | cons c rest ih =>
    have same : before.reverse ++ c :: rest = (c :: before).reverse ++ rest := by simp
    have goes (quote : Option Char) :
        stripComment quote (c :: before) rest = Text.trimEnd (before.reverse ++ c :: rest) := by
      rw [same]
      apply ih
      rwa [← same]
    -- A comment opens at the second of two slashes, and `before` ends in the first one then.
    cases quote with
    | some q => rw [stripComment, goes]
    | none =>
      unfold stripComment
      split
      · exact goes _
      · split
        next slash =>
          split
          · exact goes _
          next earlier _ =>
            have comment : "//".toList <:+: ('/' :: earlier).reverse ++ c :: rest := by
              subst slash
              exact ⟨earlier.reverse, rest, by simp⟩
            exact absurd comment uncommented
          · exact goes _
        next => exact goes _

theorem PlainText.eq_cons (plain : PlainText text) : ∃ c rest, text = c :: rest ∧ Text.isBlank c = false := by
  have begins := plain.begins
  cases text with
  | nil => simp at begins
  | cons c rest => exact ⟨c, rest, rfl, by simpa using begins⟩

/-- A line with a plain text, cut into its indentation and the text. -/
structure Laid (line blanks : List Char) (c : Char) (rest : List Char) : Prop where
  line_eq : line = blanks ++ c :: rest
  blank : ∀ d ∈ blanks, Text.isBlank d = true
  seen : Text.isBlank c = false
  plain : PlainText (c :: rest)

theorem Plain.laid (plain : Plain line) (text : hasText line = true) : ∃ blanks c rest, Laid line blanks c rest := by
  have plain := plain.2.resolve_left (by simp [text])
  obtain ⟨c, rest, same, seen⟩ := plain.eq_cons
  have blank : ∀ d ∈ line.take (indentation line), Text.isBlank d = true := by
    intro d member
    have begins := List.takeWhile_prefix (l := line) fun c => c == ' ' || c == '\t'
    rw [indentation, ← List.prefix_iff_eq_take.1 begins] at member
    have known := List.mem_takeWhile_imp member
    simp only [Bool.or_eq_true, beq_iff_eq] at known
    rcases known with rfl | rfl <;> rfl
  refine ⟨line.take (indentation line), c, rest, ?_, blank, seen, same ▸ plain⟩
  rw [← same, List.take_append_drop]

namespace Laid

variable {blanks rest : List Char} {c : Char}

theorem trimEnd (laid : Laid line blanks c rest) : Text.trimEnd line = blanks ++ c :: Text.trimEnd rest := by
  have kept := Text.trimEnd_cons laid.seen rest
  rw [laid.line_eq, Text.trimEnd_append_of_ne _ (by rw [kept]; exact List.cons_ne_nil _ _), kept]

theorem stops (laid : Laid line blanks c rest) (text : List Char) :
    ∀ d ∈ (c :: text).head?, Text.isBlank d = false := by
  rintro d ⟨⟩
  exact laid.seen

theorem trimStart (laid : Laid line blanks c rest) : Text.trimStart (Text.trimEnd line) = c :: Text.trimEnd rest := by
  rw [laid.trimEnd]
  exact Text.dropWhile_again laid.blank (laid.stops _)

theorem kept_isPrefix (laid : Laid line blanks c rest) : c :: Text.trimEnd rest <+: c :: rest := by
  rw [← Text.trimEnd_cons laid.seen]
  exact Text.trimEnd_isPrefix _

theorem unmarked (laid : Laid line blanks c rest) (mark : List Char)
    (known : mark ∈ ["//".toList, "/*".toList, "=".toList, "+".toList, ":".toList, "@import".toList]) :
    ¬ mark <+: c :: Text.trimEnd rest :=
  fun begins => laid.plain.unmarked mark known (begins.trans laid.kept_isPrefix)

theorem expandShorthand (laid : Laid line blanks c rest) : expandShorthand (Text.trimEnd line) = Text.trimEnd line := by
  have uncommented : ¬ "//".toList <:+: [].reverse ++ c :: Text.trimEnd rest :=
    fun comment => laid.plain.uncommented (comment.trans laid.kept_isPrefix.isInfix)
  have content : stripComment none [] (c :: Text.trimEnd rest) = c :: Text.trimEnd rest := by
    rw [stripComment_of_plain none uncommented, List.reverse_nil, List.nil_append, Text.trimEnd_cons laid.seen,
      Text.trimEnd_trimEnd]
  have blank : (Text.trimEnd line).takeWhile Text.isBlank = blanks := by
    rw [laid.trimEnd]
    exact Text.takeWhile_again laid.blank (laid.stops _)
  have begins : (Text.trimEnd line).dropWhile Text.isBlank = c :: Text.trimEnd rest := laid.trimStart
  have imported : "@import".toList.isPrefixOf (c :: Text.trimEnd rest) = false := by
    rw [Bool.eq_false_iff]
    exact fun known => laid.unmarked _ (by simp) (List.isPrefixOf_iff_prefix.1 known)
  have mark {d : Char}
      (other : [d] ∈ ["//".toList, "/*".toList, "=".toList, "+".toList, ":".toList, "@import".toList]) : d ≠ c := by
    rintro rfl
    exact laid.unmarked _ other ⟨Text.trimEnd rest, rfl⟩
  unfold Indented.expandShorthand
  simp only [blank, begins, content]
  rw [laid.trimEnd]
  split
  next same => exact absurd (List.cons.inj same).1.symm (mark (by simp))
  next same => exact absurd (List.cons.inj same).1.symm (mark (by simp))
  next same => exact absurd (List.cons.inj same).1.symm (mark (by simp))
  next => rw [imported, if_neg Bool.false_ne_true]

end Laid

theorem closeComment_of_quiet (quiet : p.comment = none) : p.closeComment = p := by
  obtain ⟨finished, last, blanks, blocks, comment⟩ := p
  subst quiet
  rfl

theorem step_blank (blank : hasText line = false) : step p line later = p.addBlank := by
  rw [step]
  rw [hasText_eq, Bool.not_eq_false'] at blank
  rw [if_pos blank]

theorem step_text (later : List (List Char)) (quiet : p.comment = none) (plain : Plain line)
    (text : hasText line = true) :
    step p line later =
      { (p.closeBlocks (indentation line)).addLine (Text.trimEnd line ++ ending line later) with
        blocks := if opens line later then indentation line :: (p.closeBlocks (indentation line)).blocks
          else (p.closeBlocks (indentation line)).blocks } := by
  obtain ⟨blanks, c, rest, laid⟩ := plain.laid text
  have seen : (Text.trimEnd line).isEmpty = false := by
    rw [hasText_eq] at text
    simpa using text
  have next : (fun next => !(Text.trim next).isEmpty) = hasText := funext trim_isEmpty
  unfold step
  simp only [seen, quiet, Option.filter_none, closeComment_of_quiet quiet, laid.trimStart, laid.expandShorthand, next]
  rw [if_neg Bool.false_ne_true]
  split
  next same => exact absurd ⟨_, same.symm⟩ (laid.unmarked "//".toList (by simp))
  next same => exact absurd ⟨_, same.symm⟩ (laid.unmarked "/*".toList (by simp))
  next =>
    rw [Text.trimEnd_trimEnd, ending, opens]
    split
    · rfl
    · split
      · rw [List.append_nil]
        rfl
      · rfl

theorem flatMap_closings (blocks : List α) : (blocks.flatMap fun _ => [' ', '}']) = closingBraces blocks.length := by
  rw [closingBraces, ← List.map_const', List.flatMap]

/-- A line that leaves blocks closes them behind the line before it. -/
theorem closeBlocks_of_text (text : hasText line = true)
    (blocks : p.blocks = (standing earlier (line :: later)).map Block.indent) :
    p.closeBlocks (indentation line) =
      { p.append (closingBraces (ended earlier (line :: later)).length) with
        blocks := (ancestors (indentation line) earlier).map Block.indent } := by
  have same : leaves (line :: later) = (fun indent => decide (indentation line ≤ indent)) ∘ Block.indent := by
    funext block
    rw [leaves, List.find?_cons_of_pos text]
    rfl
  have closed : p.blocks.takeWhile (indentation line ≤ ·) = (ended earlier (line :: later)).map Block.indent := by
    rw [blocks, List.takeWhile_map, ended_eq_takeWhile, same]
  have left : p.blocks.drop (ended earlier (line :: later)).length =
      (ancestors (indentation line) earlier).map Block.indent := by
    rw [blocks, ← List.map_drop, standing_eq, List.drop_left, around_of_text text]
  simp only [Progress.closeBlocks, closed, flatMap_closings, List.length_map, left]

/-- One line: the blocks that it leaves are closed behind the line before it, and those that are open behind its text
stay. -/
theorem step_braced (plain : Plain line) (text : hasText line = true) (quiet : p.comment = none)
    (blocks : p.blocks = (standing earlier (line :: later)).map Block.indent) :
    let q := step p line later
    q.comment = none ∧ q.blocks = (standing (line :: earlier) later).map Block.indent ∧
      q.last = some (Text.trimEnd line ++ ending line later) ∧ q.blanks = 0 ∧
      q.finished = List.replicate p.blanks [] ++
        (p.last.map (· ++ closingBraces (ended earlier (line :: later)).length)).toList ++ p.finished := by
  intro q
  have known : q = _ := step_text later quiet plain text
  rw [closeBlocks_of_text text blocks] at known
  rw [known]
  refine ⟨quiet, ?_, rfl, rfl, rfl⟩
  rw [standing_text text, inside]
  split <;> rfl

theorem ended_nil (earlier : List (List Char)) : ended earlier [] = standing earlier [] := by
  simp [ended, around]

/-- What the conversion makes of the lines from here on, when the open blocks are those behind the latest line with
text: that line gets its closing braces, and each further line is braced. -/
theorem run_braced (earlier : List (List Char)) (plain : ∀ line ∈ later, Plain line) (quiet : p.comment = none)
    (blocks : p.blocks = (standing earlier later).map Block.indent) :
    let q := run p later
    q.comment = none ∧ (q.append (q.blocks.flatMap fun _ => [' ', '}'])).lines =
      p.finished.reverse ++ (p.last.map (· ++ closingBraces (ended earlier later).length)).toList ++
        List.replicate p.blanks [] ++ bracedFrom earlier later := by
  induction later generalizing p earlier with
  | nil =>
    refine ⟨quiet, ?_⟩
    rw [run, flatMap_closings, blocks, List.length_map, ended_nil, bracedFrom, List.append_nil]
    rfl
  | cons line later ih =>
    have plain' : ∀ line ∈ later, Plain line := fun line member => plain line (List.mem_cons_of_mem _ member)
    rw [run]
    by_cases text : hasText line = true
    · obtain ⟨quiet, blocks, last, blanks, finished⟩ := step_braced (plain line List.mem_cons_self) text quiet blocks
      obtain ⟨still, lines⟩ := ih _ plain' quiet blocks
      refine ⟨still, lines.trans ?_⟩
      rw [last, blanks, finished, bracedFrom, braced, if_pos text, closings_eq text]
      cases p.last <;> simp
    · -- A line without text stands between the blocks and the line that shows which of them end.
      have blank := Bool.eq_false_iff.2 text
      have same : ended (line :: earlier) later = ended earlier (line :: later) := by
        rw [ended, ended, standing_blank blank, around_blank blank]
      rw [step_blank blank]
      have blocks : p.blocks = (standing (line :: earlier) later).map Block.indent := by
        rw [standing_blank blank, blocks]
      obtain ⟨still, lines⟩ := ih (line :: earlier) (p := p.addBlank) plain' quiet blocks
      refine ⟨still, lines.trans ?_⟩
      rw [bracedFrom, braced, if_neg text, same, Progress.addBlank, List.replicate_succ', List.append_assoc,
        List.append_assoc, List.append_assoc]
      simp

theorem braceLines_eq (plain : ∀ line ∈ later, Plain line) : braceLines later = bracedFrom [] later := by
  obtain ⟨quiet, lines⟩ := run_braced [] plain (p := Progress.start) rfl rfl
  rw [braceLines, closeComment_of_quiet quiet]
  simpa [Progress.start] using lines

end Lines

section Joining

variable {lines before : List (List Char)} {last : List Char} {ending : Bool}

theorem bracedFrom_length (earlier : List (List Char)) (lines : List (List Char)) :
    (bracedFrom earlier lines).length = lines.length := by
  induction lines generalizing earlier with
  | nil => rfl
  | cons line lines ih => rw [bracedFrom, List.length_cons, List.length_cons, ih]

/-- An empty line behind the others changes none of them. -/
theorem bracedFrom_concat (earlier : List (List Char)) (lines : List (List Char)) :
    bracedFrom earlier (lines ++ [[]]) = bracedFrom earlier lines ++ [[]] := by
  induction lines generalizing earlier with
  | nil => rfl
  | cons line lines ih =>
    have same : (lines ++ [[]]).find? hasText = lines.find? hasText := by
      rw [List.find?_append]
      exact Option.or_none
    have opened : opens line (lines ++ [[]]) = opens line lines := by rw [opens, opens, same]
    have after (earlier : List (List Char)) : around earlier (lines ++ [[]]) = around earlier lines := by
      rw [around, around, same]
    have closed : closings earlier line (lines ++ [[]]) = closings earlier line lines := by
      rw [closings, closings, inside, inside, opened, after]
    rw [List.cons_append, bracedFrom, ih, bracedFrom, List.cons_append, braced, braced, Indented.ending,
      Indented.ending, opened, closed]

theorem joined_false (lines : List (List Char)) : joined lines false = List.intercalate ['\n'] lines := by
  rw [joined, if_neg Bool.false_ne_true, List.append_nil]

theorem joined_true (lines : List (List Char)) : joined lines true = List.intercalate ['\n'] lines ++ ['\n'] := by
  rw [joined, if_pos rfl]

/-- A line feed at the end, or an empty last line: the texts are the same. -/
theorem joined_concat (nonempty : lines ≠ []) : joined (lines ++ [[]]) false = joined lines true := by
  rw [joined_false, joined_true, Text.intercalate_concat _ nonempty, List.append_nil]

theorem bracedFrom_ne_nil (nonempty : lines ≠ []) : bracedFrom [] lines ≠ [] := by
  intro empty
  have same := bracedFrom_length [] lines
  rw [empty] at same
  exact nonempty (List.length_eq_zero_iff.1 same.symm)

theorem toBraces_of_lines {cs : List Char} (cut : Text.lines cs = lines) (plain : ∀ line ∈ lines, Plain line) :
    toBraces (String.ofList cs) =
      String.ofList (joined (bracedFrom [] lines) (cs.getLast? == some '\n')) := by
  have same := braceLines_eq plain
  rw [toBraces, String.toList_ofList, cut, same]
  by_cases last : cs.getLast? = some '\n' <;> simp [joined, last]

theorem toBraces_ended (nonempty : lines ≠ []) (plain : ∀ line ∈ lines, Plain line) :
    toBraces (String.ofList (joined lines true)) = String.ofList (joined (bracedFrom [] lines) true) := by
  have free : ∀ line ∈ lines ++ [[]], '\n' ∉ line := by
    intro line member
    rcases List.mem_append.1 member with member | member
    · exact (plain line member).1
    · simp_all
  have cut : Text.lines (joined lines true) = lines := by
    rw [Text.lines, ← joined_concat nonempty, joined_false, Text.pieces_joined (by simp) free]
    simp
  rw [toBraces_of_lines cut plain]
  simp [joined_true]

theorem toBraces_text (some_text : last ≠ []) (plain : ∀ line ∈ before ++ [last], Plain line) :
    toBraces (String.ofList (joined (before ++ [last]) false)) =
      String.ofList (joined (bracedFrom [] (before ++ [last])) false) := by
  have free : '\n' ∉ last := (plain last (by simp)).1
  have cut : Text.lines (joined (before ++ [last]) false) = before ++ [last] := by
    rw [Text.lines, joined_false, Text.pieces_joined (by simp) fun line member => (plain line member).1]
    simp [some_text]
  have ends : (joined (before ++ [last]) false).getLast? ≠ some '\n' := by
    obtain ⟨start, same⟩ : ∃ start, joined (before ++ [last]) false = start ++ last := by
      rw [joined_false]
      by_cases empty : before = []
      · exact ⟨[], by simp [empty]⟩
      · exact ⟨_, Text.intercalate_concat _ empty last⟩
    rw [same, List.getLast?_append_of_ne_nil start some_text]
    exact fun known => free (List.mem_of_getLast? known)
  rw [toBraces_of_lines cut plain, beq_eq_false_iff_ne.2 ends]

theorem toBraces_joined (lines : List (List Char)) (ended : Bool) (plain : ∀ line ∈ lines, Plain line) :
    toBraces (String.ofList (joined lines ended)) = String.ofList (joined (bracedFrom [] lines) ended) := by
  cases ended with
  | true =>
    by_cases empty : lines = []
    · subst empty
      rfl
    · exact toBraces_ended empty plain
  | false =>
    rcases List.eq_nil_or_concat' lines with rfl | ⟨before, last, rfl⟩
    · rfl
    · by_cases blank : last = []
      · -- The cut into lines does not see an empty last line, but the line feed in front of it.
        subst blank
        by_cases empty : before = []
        · subst empty
          rfl
        · have plain : ∀ line ∈ before, Plain line := fun line member => plain line (List.mem_append_left _ member)
          rw [joined_concat empty, bracedFrom_concat, joined_concat (bracedFrom_ne_nil empty)]
          exact toBraces_ended empty plain
      · exact toBraces_text blank plain

end Joining

/-- Indentation becomes the braces that match it. Each line stays in its place; the blocks that the braces keep open
around the text of a line are those of its ancestors, and behind the last line none is open. -/
theorem toBraces_matches_indentation (lines : List (List Char)) (ended : Bool) (plain : ∀ line ∈ lines, Plain line) :
    toBraces (String.ofList (joined lines ended)) = String.ofList (joined (bracedFrom [] lines) ended) ∧
      (bracedFrom [] lines).length = lines.length ∧
      (∀ before line later, lines = before ++ line :: later → hasText line = true →
        openBehind before.reverse (line :: later) = some (ancestors (indentation line) before.reverse)) ∧
      openBehind lines.reverse [] = some [] := by
  refine ⟨toBraces_joined lines ended plain, bracedFrom_length [] lines, ?_, openBehind_eq _ _⟩
  intro before line later _ text
  rw [openBehind_eq, around_of_text text]

instance (text : List Char) : Decidable (PlainText text) :=
  decidable_of_iff (_ ∧ _ ∧ _)
    ⟨fun ⟨begins, unmarked, uncommented⟩ => ⟨begins, unmarked, uncommented⟩,
      fun ⟨begins, unmarked, uncommented⟩ => ⟨begins, unmarked, uncommented⟩⟩

instance (line : List Char) : Decidable (Plain line) := inferInstanceAs (Decidable (_ ∧ _))

/-- Lines that leave several blocks at once, and one that is indented between two others. -/
def sampleLines : List (List Char) :=
  ["a", "    b", "      c: d", " ", "  e,", "  f", "\tg", "    h: i", "j: k"].map String.toList

theorem toBraces_matches_indentation_sample :
    (∀ line ∈ sampleLines, Plain line) ∧
      toBraces (String.ofList (joined sampleLines true)) =
        "a \x7b\n    b \x7b\n      c: d; \x7d\n\n  e,\n  f;\n\tg \x7b\n    h: i; \x7d \x7d\nj: k;\n" ∧
      openBehind sampleLines.reverse [] = some [] := by
  have plain : ∀ line ∈ sampleLines, Plain line := by decide
  obtain ⟨same, -, -, closed⟩ := toBraces_matches_indentation sampleLines true plain
  exact ⟨plain, same.trans (by decide), closed⟩

end Stylesheet.Indented
