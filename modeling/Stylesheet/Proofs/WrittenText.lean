import Stylesheet.Css.Writer
import Mathlib.Data.List.Forall2

/-! What the steps of the writer do to the text, and how places in a text move when it grows. A
closing brace is the only step that takes characters back: a semicolon, or one line separator. -/

namespace Stylesheet

namespace Position

/-- The order of places in one text. -/
def Before (p q : Position) : Prop := p.line < q.line ∨ p.line = q.line ∧ p.column < q.column

theorem Before.trans {p q r : Position} (first : p.Before q) (second : q.Before r) : p.Before r := by
  unfold Before at *
  omega

private theorem before_next (p : Position) (c : Char) : p.Before (p.next c) := by
  unfold Before next
  split <;> simp

theorem before_after {p q : Position} (before : p.Before q) (text : List Char) : p.Before (q.after text) := by
  induction text generalizing q with
  | nil => exact before
  | cons c text ih => exact ih (before.trans (before_next q c))

theorem before_after_of_ne_nil (p : Position) {text : List Char} (nonempty : text ≠ []) :
    p.Before (p.after text) := by
  cases text with
  | nil => exact absurd rfl nonempty
  | cons c text => exact before_after (before_next p c) text

theorem line_le_after (p : Position) (text : List Char) : p.line ≤ (p.after text).line := by
  cases text with
  | nil => exact Nat.le_refl _
  | cons c text =>
    have before := before_after_of_ne_nil p (List.cons_ne_nil c text)
    unfold Before at before
    omega

/-- In a text without line feeds only the column moves. -/
theorem after_of_notMem (p : Position) {text : List Char} (inLine : '\n' ∉ text) :
    p.after text = ⟨p.line, p.column + text.length⟩ := by
  induction text generalizing p with
  | nil => rfl
  | cons c text ih =>
    simp only [List.mem_cons, not_or] at inLine
    rw [after_cons, ih _ inLine.2, next, if_neg (Ne.symm inLine.1), List.length_cons, Nat.add_assoc, Nat.add_comm 1]

theorem after_linefeed (p : Position) {text : List Char} (inLine : '\n' ∉ text) :
    p.after (text ++ ['\n']) = ⟨p.line + 1, 1⟩ := by
  rw [after_append, after_of_notMem p inLine]
  rfl

theorem after_lines (p : Position) (count : Nat) (text : List Char) :
    (Position.mk (p.line + count) p.column).after text
      = ⟨(p.after text).line + count, (p.after text).column⟩ := by
  induction text generalizing p with
  | nil => rfl
  | cons c text ih =>
    rw [after_cons, after_cons, ← ih]
    congr 1
    unfold next
    split <;> simp [Nat.add_right_comm]

theorem after_columns (p : Position) (count : Nat) (text : List Char) :
    (Position.mk p.line (p.column + count)).after text
      = if (p.after text).line = p.line then ⟨p.line, (p.after text).column + count⟩ else p.after text := by
  induction text generalizing p with
  | nil => simp
  | cons c text ih =>
    rw [after_cons, after_cons]
    by_cases newline : c = '\n'
    · have later := line_le_after ⟨p.line + 1, 1⟩ text
      have moved : ¬ ((Position.mk (p.line + 1) 1).after text).line = p.line := by
        simp only at later
        omega
      simp only [next, if_pos newline, if_neg moved]
    · have shifted := ih ⟨p.line, p.column + 1⟩
      simp only [next, if_neg newline]
      rw [← shifted, Nat.add_right_comm]

theorem after_reverse (reversed : List Char) : start.after reversed.reverse
    = ⟨reversed.count '\n' + 1, (reversed.takeWhile (· != '\n')).length + 1⟩ := by
  induction reversed with
  | nil => rfl
  | cons c reversed ih =>
    rw [List.reverse_cons, after_append, ih, after_cons, after_nil, next]
    split
    next newline => simp [newline]
    next other => simp [other]

end Position

namespace Css

/-- A text without the semicolon at its end, if there is one. -/
def withoutSemicolon (text : List Char) : List Char := if text.getLast? = some ';' then text.dropLast else text

theorem withoutSemicolon_isPrefix (text : List Char) : withoutSemicolon text <+: text := by
  unfold withoutSemicolon
  split
  · exact List.dropLast_prefix text
  · exact List.prefix_rfl

theorem withoutSemicolon_append (first : List Char) {text : List Char} (nonempty : text ≠ []) :
    withoutSemicolon (first ++ text) = first ++ withoutSemicolon text := by
  unfold withoutSemicolon
  rw [List.getLast?_append_of_ne_nil _ nonempty, List.dropLast_append_of_ne_nil nonempty]
  split <;> rfl

namespace Output

def text (output : Output) : List Char := output.reversed.reverse

theorem place_eq (output : Output) :
    Position.start.after output.text = ⟨output.line + 1, output.column + 1⟩ := by
  rw [text, Position.after_reverse, ← output.line_eq, ← output.column_eq]

/-- An action that adds characters and no marks. -/
def Appends (action : Output → Output) (added : List Char) : Prop :=
  ∀ output, (action output).text = output.text ++ added ∧ (action output).marks = output.marks

theorem Appends.nil : Appends id [] := fun output => ⟨(List.append_nil output.text).symm, rfl⟩

theorem Appends.comp {first second : Output → Output} {left right : List Char}
    (before : Appends first left) (after : Appends second right) : Appends (second ∘ first) (left ++ right) := by
  intro output
  obtain ⟨text, marks⟩ := before output
  obtain ⟨text', marks'⟩ := after (first output)
  exact ⟨by rw [Function.comp, text', text, List.append_assoc], marks'.trans marks⟩

private theorem appends_writeChar (c : Char) : Appends (·.writeChar c) [c] := by
  intro output
  unfold writeChar text
  split <;> simp

theorem appends_write (added : String) : Appends (·.write added) added.toList := by
  intro output
  unfold write
  induction added.toList generalizing output with
  | nil => exact Appends.nil output
  | cons c added ih => exact ((appends_writeChar c).comp ih) output

theorem dropLinefeed_of_suffix (output : Output) {linefeed : String} (nonempty : linefeed.toList ≠ [])
    {rest : List Char} (ends : output.text = rest ++ linefeed.toList) :
    (output.dropLinefeed linefeed).text = rest ∧ (output.dropLinefeed linefeed).marks = output.marks := by
  have reversed : output.reversed = linefeed.toList.reverse ++ rest.reverse := by
    rw [← List.reverse_append, ← ends, text, List.reverse_reverse]
  have found : (!linefeed.toList.reverse.isEmpty && linefeed.toList.reverse.isPrefixOf output.reversed) = true := by
    simp [reversed, nonempty]
  simp only [dropLinefeed, dif_pos found]
  exact ⟨by simp [text, reversed], trivial⟩

theorem dropLinefeed_of_empty (output : Output) {linefeed : String} (empty : linefeed.toList = []) :
    output.dropLinefeed linefeed = output := by
  have missing : ¬ (!linefeed.toList.reverse.isEmpty && linefeed.toList.reverse.isPrefixOf output.reversed) = true := by
    simp [empty]
  simp only [dropLinefeed, dif_neg missing]

/-- A separator at the end of the text is counted in its line, so the line without it is a number. -/
theorem dropLinefeed_line (output : Output) {linefeed : String} (nonempty : linefeed.toList ≠ [])
    (ends : linefeed.toList <:+ output.text) :
    (output.dropLinefeed linefeed).line + linefeed.toList.count '\n' = output.line := by
  obtain ⟨rest, split⟩ := ends
  have text := (output.dropLinefeed_of_suffix nonempty split.symm).1
  have lines (output : Output) : output.line = output.text.count '\n' := by
    rw [output.line_eq, Output.text, List.count_reverse]
  rw [lines, text, lines, ← split, List.count_append]

theorem dropLinefeed_of_not_suffix (output : Output) {linefeed : String}
    (ends : ¬ linefeed.toList <:+ output.text) : output.dropLinefeed linefeed = output := by
  have missing : ¬ (!linefeed.toList.reverse.isEmpty && linefeed.toList.reverse.isPrefixOf output.reversed) = true := by
    intro found
    obtain ⟨rest, split⟩ := List.isPrefixOf_iff_prefix.1 (Bool.and_eq_true_iff.1 found).2
    exact ends ⟨rest.reverse, by rw [text, ← split, List.reverse_append, List.reverse_reverse]⟩
  simp only [dropLinefeed, dif_neg missing]

theorem dropSemicolon_text (output : Output) : output.dropSemicolon.text = withoutSemicolon output.text
    ∧ output.dropSemicolon.marks = output.marks := by
  unfold dropSemicolon withoutSemicolon text
  split
  next rest last => simp [last]
  next other =>
    refine ⟨?_, rfl⟩
    rw [if_neg]
    rw [List.getLast?_reverse]
    intro last
    obtain ⟨rest, same⟩ := List.head?_eq_some_iff.1 last
    exact other rest same

theorem dropSemicolon_column (output : Output) (ends : [';'] <:+ output.text) :
    output.dropSemicolon.column + 1 = output.column := by
  obtain ⟨rest, split⟩ := ends
  have last : output.reversed = ';' :: rest.reverse := by
    rw [← List.reverse_reverse output.reversed, ← Output.text, ← split]
    simp
  have dropped : output.dropSemicolon.reversed = rest.reverse := by
    rw [← List.reverse_reverse output.dropSemicolon.reversed, ← Output.text, output.dropSemicolon_text.1, ← split,
      withoutSemicolon, if_pos List.getLast?_concat, List.dropLast_concat]
  rw [output.dropSemicolon.column_eq, output.column_eq, dropped, last]
  rfl

end Output

namespace Format

open Output

variable (format : Format)

/-- What a line ends in; a compressed text has no lines. -/
def lineEnd : List Char := if format.isCompressed then [] else format.linefeed.toList

theorem appends_newline : Appends format.newline format.lineEnd := by
  unfold newline lineEnd
  split
  · exact Appends.nil
  · exact appends_write _

/-- What stands at the beginning of a line. -/
def indentation (level : Nat) : List Char :=
  if format.isCompressed then [] else (List.replicate level format.indent.toList).flatten

theorem appends_indentTo (level : Nat) : Appends (format.indentTo level) (format.indentation level) := by
  unfold indentTo indentation
  split
  · exact Appends.nil
  · induction level with
    | zero => exact Appends.nil
    | succ level ih =>
      rw [List.replicate_succ, List.replicate_succ, List.flatten_cons]
      exact (appends_write format.indent).comp ih

theorem appends_openBrace : ∃ c rest, Appends format.openBrace (c :: rest) := by
  unfold openBrace
  cases format.layout with
  | compressed => exact ⟨_, _, appends_write "\x7b"⟩
  | compact => exact ⟨_, _, appends_write " \x7b"⟩
  | nested | expanded => exact ⟨_, _, (appends_write " \x7b").comp format.appends_newline⟩

theorem appends_beginItem (level : Nat) : ∃ blank, Appends (format.beginItem level) blank
    ∧ (format.layout = .compact → blank = [' ']) := by
  unfold beginItem
  cases format.layout with
  | nested | expanded => exact ⟨_, format.appends_indentTo (level + 1), nofun⟩
  | compact => exact ⟨_, appends_write " ", fun _ => rfl⟩
  | compressed => exact ⟨[], Appends.nil, nofun⟩

/-- What stands behind an item of a block. -/
def itemEnd : List Char :=
  match format.layout with
  | .nested | .expanded => format.lineEnd
  | .compact | .compressed => []

theorem appends_endItem : Appends format.endItem format.itemEnd := by
  unfold endItem itemEnd
  cases format.layout with
  | nested | expanded => exact format.appends_newline
  | compact | compressed => exact Appends.nil

theorem appends_beforeNodes (hasItems : Bool) : ∃ blank, Appends (format.beforeNodes hasItems) blank := by
  unfold beforeNodes
  cases format.layout <;> cases hasItems
  all_goals first
    | exact ⟨_, appends_write " "⟩
    | exact ⟨_, format.appends_newline⟩
    | exact ⟨[], Appends.nil⟩

theorem appends_writePlace (sources : List Source) (level : Nat) (span : Span) :
    ∃ comment, Appends (format.writePlace sources level span) comment := by
  unfold writePlace
  split
  · exact ⟨_, ((format.appends_indentTo level).comp (appends_write _)).comp format.appends_newline⟩
  · exact ⟨[], Appends.nil⟩

/-- A text without what a closing brace takes back from its end. -/
def takenBack (text : List Char) : List Char :=
  match format.layout with
  | .compressed => withoutSemicolon text
  | .nested | .compact =>
    if format.linefeed.toList.isSuffixOf text then text.take (text.length - format.linefeed.toList.length) else text
  | .expanded => text

/-- What a closing brace writes. -/
def closing (level : Nat) : List Char :=
  match format.layout with
  | .compressed => ['\x7d']
  | .nested | .compact => ' ' :: '\x7d' :: format.lineEnd
  | .expanded => format.indentation level ++ '\x7d' :: format.lineEnd

theorem closeBrace_text (level : Nat) (output : Output) :
    (format.closeBrace level output).text = format.takenBack output.text ++ format.closing level
      ∧ (format.closeBrace level output).marks = output.marks := by
  unfold closeBrace takenBack closing
  cases format.layout with
  | compressed =>
    obtain ⟨text, marks⟩ := appends_write "\x7d" output.dropSemicolon
    obtain ⟨dropped, kept⟩ := output.dropSemicolon_text
    exact ⟨text.trans (congrArg (· ++ _) dropped), marks.trans kept⟩
  | nested | compact =>
    obtain ⟨text, marks⟩ :=
      (appends_write " \x7d").comp format.appends_newline (output.dropLinefeed format.linefeed)
    by_cases empty : format.linefeed.toList = []
    · rw [output.dropLinefeed_of_empty empty] at text marks
      simp only [output.dropLinefeed_of_empty empty, empty, List.isSuffixOf_iff_suffix, if_pos List.nil_suffix,
        List.length_nil, Nat.sub_zero, List.take_length]
      exact ⟨text, marks⟩
    by_cases ends : format.linefeed.toList <:+ output.text
    · obtain ⟨rest, split⟩ := ends
      obtain ⟨dropped, kept⟩ := output.dropLinefeed_of_suffix empty split.symm
      rw [dropped] at text
      simp only [← split, List.isSuffixOf_iff_suffix.2 (List.suffix_append rest _), if_true, List.length_append,
        Nat.add_sub_cancel, List.take_left']
      exact ⟨text, marks.trans kept⟩
    · rw [output.dropLinefeed_of_not_suffix ends] at text marks
      simp only [List.isSuffixOf_iff_suffix, if_neg ends, output.dropLinefeed_of_not_suffix ends]
      exact ⟨text, marks⟩
  | expanded =>
    exact ((format.appends_indentTo level).comp (appends_write "\x7d")).comp format.appends_newline output
      |>.imp (fun text => text.trans (by simp)) id

end Format

end Css

end Stylesheet
