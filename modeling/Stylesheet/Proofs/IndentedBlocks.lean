import Mathlib.Data.List.TakeWhile
import Stylesheet.Indented

/-! Indentation as nesting. The parent of a line is the nearest earlier line that is indented less, and a line stands in
the blocks of its parent, of the parent of that one, and so on. The conversion looks at no earlier line again: it keeps
the indentations of the open blocks, and these are the ones of the ancestors of the line at hand. -/

namespace Stylesheet.Indented

def hasText (line : List Char) : Bool := line.any (!Text.isBlank ·)

/-- A block, by the line that opens it. -/
structure Block where
  number : Nat
  indent : Nat
deriving DecidableEq

/-- The blocks around a line with this indentation, the innermost first, where `earlier` holds the lines before it, the
last one first. The parent is the nearest of them that has text and is indented less. -/
def ancestors (indent : Nat) : (earlier : List (List Char)) → List Block
  | [] => []
  | line :: earlier =>
    if hasText line ∧ indentation line < indent then
      ⟨earlier.length, indentation line⟩ :: ancestors (indentation line) earlier
    else ancestors indent earlier

/-- The blocks around the next line with text. -/
def around (earlier later : List (List Char)) : List Block :=
  match later.find? hasText with
  | some line => ancestors (indentation line) earlier
  | none => []

/-- A line opens a block when the next line with text is indented more. -/
def opens (line : List Char) (later : List (List Char)) : Bool :=
  (later.find? hasText).any (indentation line < indentation ·)

/-- The blocks that are open behind the text of a line. -/
def inside (earlier : List (List Char)) (line : List Char) (later : List (List Char)) : List Block :=
  if opens line later then ⟨earlier.length, indentation line⟩ :: ancestors (indentation line) earlier
  else ancestors (indentation line) earlier

/-- How many blocks end with a line: those that the next line with text is not in. -/
def closings (earlier : List (List Char)) (line : List Char) (later : List (List Char)) : Nat :=
  ((inside earlier line later).filter (· ∉ around (line :: earlier) later)).length

/-- What is put behind the text of a line, in front of the braces that close blocks. -/
def ending (line : List Char) (later : List (List Char)) : List Char :=
  if opens line later then [' ', '{'] else if (Text.trimEnd line).getLast? = some ',' then [] else [';']

def closingBraces (count : Nat) : List Char := (List.replicate count [' ', '}']).flatten

/-- A line with what is put behind it. -/
def braced (earlier : List (List Char)) (line : List Char) (later : List (List Char)) : List Char :=
  if hasText line then Text.trimEnd line ++ ending line later ++ closingBraces (closings earlier line later) else []

def bracedFrom (earlier : List (List Char)) : List (List Char) → List (List Char)
  | [] => []
  | line :: later => braced earlier line later :: bracedFrom (line :: earlier) later

/-- The blocks that are open behind the lines `earlier` by the braces that are put there, the innermost first. There are
none if more blocks are closed than are open. -/
def openBehind : (earlier later : List (List Char)) → Option (List Block)
  | [], _ => some []
  | line :: earlier, later => do
    let blocks ← openBehind earlier (line :: later)
    if hasText line then
      let inner := if opens line later then ⟨earlier.length, indentation line⟩ :: blocks else blocks
      if closings earlier line later ≤ inner.length then some (inner.drop (closings earlier line later)) else none
    else some blocks

section Blocks

variable {earlier later : List (List Char)} {line : List Char} {indent : Nat}

theorem around_of_text (text : hasText line = true) :
    around earlier (line :: later) = ancestors (indentation line) earlier := by
  rw [around, List.find?_cons_of_pos text]

theorem ancestors_blank (blank : hasText line = false) :
    ancestors indent (line :: earlier) = ancestors indent earlier := by
  simp [ancestors, blank]

theorem around_blank (blank : hasText line = false) :
    around earlier (line :: later) = around (line :: earlier) later := by
  rw [around, around, List.find?_cons_of_neg (by simp [blank])]
  split
  · rw [ancestors_blank blank]
  · rfl

theorem ancestors_lt {block : Block} (member : block ∈ ancestors indent earlier) : block.indent < indent := by
  induction earlier generalizing indent with
  | nil => simp [ancestors] at member
  | cons line earlier ih =>
    rw [ancestors] at member
    split at member
    next parent =>
      rcases List.mem_cons.1 member with rfl | above
      · exact parent.2
      · exact Nat.lt_trans (ih above) parent.2
    next => exact ih member

theorem ancestors_of_le {less : Nat} (le : less ≤ indent) :
    ancestors less earlier = (ancestors indent earlier).dropWhile (less ≤ ·.indent) := by
  induction earlier generalizing indent with
  | nil => rfl
  | cons line earlier ih =>
    by_cases parent : hasText line = true ∧ indentation line < indent
    · by_cases stays : indentation line < less
      · rw [ancestors, if_pos ⟨parent.1, stays⟩, ancestors, if_pos parent,
          List.dropWhile_cons_of_neg (by simpa using stays)]
      · -- A block between the two indentations: it is left, and its parents are sought as before.
        rw [ancestors, if_neg (fun other => stays other.2), ancestors, if_pos parent,
          List.dropWhile_cons_of_pos (by simpa using stays)]
        exact ih (Nat.le_of_not_lt stays)
    · have skipped : ¬ (hasText line = true ∧ indentation line < less) :=
        fun other => parent ⟨other.1, Nat.lt_of_lt_of_le other.2 le⟩
      rw [ancestors, if_neg skipped, ancestors, if_neg parent]
      exact ih le

/-- The blocks that are open behind the text of the latest line that has one. -/
def standing : (earlier later : List (List Char)) → List Block
  | [], _ => []
  | line :: earlier, later => if hasText line then inside earlier line later else standing earlier (line :: later)

/-- The blocks that end in front of the next line with text. -/
def ended (earlier later : List (List Char)) : List Block :=
  (standing earlier later).filter (· ∉ around earlier later)

theorem standing_blank (blank : hasText line = false) :
    standing (line :: earlier) later = standing earlier (line :: later) := by
  rw [standing, if_neg (by simp [blank])]

theorem standing_text (text : hasText line = true) : standing (line :: earlier) later = inside earlier line later := by
  rw [standing, if_pos text]

/-- Whether the next line with text is indented no more than the line of a block, so that the block has to end. -/
def leaves (later : List (List Char)) (block : Block) : Bool :=
  (later.find? hasText).all (indentation · ≤ block.indent)

theorem leaves_blank (blank : hasText line = false) : leaves (line :: later) = leaves later := by
  funext block
  rw [leaves, leaves, List.find?_cons_of_neg (by simp [blank])]

theorem standing_dropWhile (earlier later : List (List Char)) :
    (standing earlier later).dropWhile (leaves later) = around earlier later := by
  induction earlier generalizing later with
  | nil =>
    rw [standing, around]
    split <;> rfl
  | cons line earlier ih =>
    by_cases text : hasText line = true
    · rw [standing_text text]
      unfold leaves inside opens around
      cases next : later.find? hasText with
      | none => simp
      | some below =>
        simp only [Option.any_some, Option.all_some, decide_eq_true_eq, ancestors]
        by_cases deeper : indentation line < indentation below
        · rw [if_pos deeper, if_pos ⟨text, deeper⟩, List.dropWhile_cons_of_neg (by simpa using deeper)]
        · rw [if_neg deeper, if_neg (fun other => deeper other.2), ancestors_of_le (Nat.le_of_not_lt deeper)]
    · have blank := Bool.eq_false_iff.2 text
      rw [standing_blank blank, ← around_blank blank, ← ih, leaves_blank blank]

theorem leaves_of_mem_around {block : Block} (member : block ∈ around earlier later) : leaves later block = false := by
  unfold around at member
  split at member
  next below next =>
    have less := ancestors_lt member
    simpa [leaves, next] using less
  next => simp at member

theorem ended_eq_takeWhile (earlier later : List (List Char)) :
    ended earlier later = (standing earlier later).takeWhile (leaves later) := by
  have split := List.takeWhile_append_dropWhile (p := leaves later) (l := standing earlier later)
  -- The two parts share no block, so the blocks that are not around the next line are those of the first part.
  rw [standing_dropWhile] at split
  have out : ((standing earlier later).takeWhile (leaves later)).filter (· ∉ around earlier later) =
      (standing earlier later).takeWhile (leaves later) := by
    apply List.filter_eq_self.2
    intro block member
    have goes := List.mem_takeWhile_imp member
    have other : block ∉ around earlier later := by
      intro stays
      rw [leaves_of_mem_around stays] at goes
      exact absurd goes Bool.false_ne_true
    exact decide_eq_true other
  have kept : (around earlier later).filter (· ∉ around earlier later) = [] := by
    apply List.filter_eq_nil_iff.2
    intro block member
    simpa using member
  unfold ended
  conv => lhs; rw [← split]
  rw [List.filter_append, out, kept, List.append_nil]

/-- The open blocks are those that end and, outside of them, those around the next line with text. -/
theorem standing_eq (earlier later : List (List Char)) :
    standing earlier later = ended earlier later ++ around earlier later := by
  rw [ended_eq_takeWhile, ← standing_dropWhile, List.takeWhile_append_dropWhile]

theorem closings_eq (text : hasText line = true) :
    closings earlier line later = (ended (line :: earlier) later).length := by
  rw [closings, ended, standing_text text]

/-- The braces open and close the blocks around every line. -/
theorem openBehind_eq (earlier later : List (List Char)) : openBehind earlier later = some (around earlier later) := by
  induction earlier generalizing later with
  | nil =>
    rw [openBehind, around]
    split <;> rfl
  | cons line earlier ih =>
    rw [openBehind, ih, Option.bind_eq_bind, Option.bind_some]
    by_cases text : hasText line = true
    · have inner : (if opens line later then
          ⟨earlier.length, indentation line⟩ :: around earlier (line :: later) else around earlier (line :: later)) =
            ended (line :: earlier) later ++ around (line :: earlier) later := by
        rw [← standing_eq, standing_text text, inside, around_of_text text]
      simp only [if_pos text, inner, closings_eq text]
      rw [if_pos (by simp), List.drop_left]
    · have blank := Bool.eq_false_iff.2 text
      rw [if_neg text, around_blank blank]

end Blocks

end Stylesheet.Indented
