import Stylesheet.Proofs.BlockReading

/-! Statements in their usual form are read back as they are, blocks in blocks by induction. -/

namespace Stylesheet.Canonical

open Grammar
open Spelling (mark space dollarWord atSignWord)

variable {context : Context} {before between after more : List Spelling}
variable {statement : Statement} {behind : List Statement → Prop} {inBlock : Bool} {n : Nat}

/-- No branch of a branching follows. -/
def NoBranch (spellings : List Spelling) : Prop :=
  ∀ s rest, Spelling.significant spellings = s :: rest → ∀ name, s.kind = .atKeyword name →
    Text.sameWord name "elseif" = false ∧ Text.sameWord name "else" = false

theorem elseAt?_eq_none {tokens : List Token} (spelled : tokens.map Token.spelling = more) (ends : NoBranch more) :
    elseAt? tokens = none := by
  have same := map_significant tokens
  rw [spelled] at same
  rw [elseAt?]
  cases known : significant tokens with
  | nil => rfl
  | cons token rest =>
    rw [known] at same
    have other := ends token.spelling _ same.symm
    dsimp only
    split
    · next name kind =>
      obtain ⟨first, second⟩ := other name kind
      rw [first, second]
      rfl
    · rfl

theorem noBranch_plain {s : Spelling} (solid : s.isTrivia = false) (plain : ∀ name, s.kind ≠ .atKeyword name)
    (more : List Spelling) : NoBranch (s :: more) := by
  intro t rest same name kind
  rw [Spelling.significant, List.dropWhile_cons_of_neg (by simp [solid])] at same
  cases same
  exact absurd kind (plain name)

theorem noBranch_directive {name : String} (small : isSmall name = true) (other : name ≠ "elseif" ∧ name ≠ "else")
    (more : List Spelling) : NoBranch (atSignWord name :: more) := by
  rintro _ _ ⟨⟩ _ ⟨⟩
  exact ⟨sameWord_eq_false small (by decide) other.1, sameWord_eq_false small (by decide) other.2⟩

/-- Only a comment lets the next statement be seen. -/
theorem Tree.noBranch (tree : Tree) (ends : NoBranch more) : NoBranch (tree.spellings ++ more) := by
  cases tree with
  | simple simple =>
    rw [Tree.spellings]
    cases simple with
    | declaration | assignment => exact noBranch_plain rfl (by rintro _ ⟨⟩) _
    | inclusion | content | result => exact noBranch_directive (by decide) (by decide) _
    | comment => exact ends
  | block head body =>
    rw [Tree.spellings, List.append_assoc]
    cases head with
    | rule selector =>
      obtain ⟨tail, begins⟩ := selector.begins
      rw [Head.spellings, begins]
      exact noBranch_plain rfl (by rintro _ ⟨⟩) _
    | media | mixin | function | inclusion | forEach | forRange | whileTrue =>
      exact noBranch_directive (by decide) (by decide) _
  | branch condition body others =>
    rw [Tree.spellings]
    exact noBranch_directive (by decide) (by decide) _

theorem Tree.noBranch_spaced (trees : List Tree) (ends : NoBranch more) : NoBranch (Tree.spaced trees ++ more) := by
  induction trees with
  | nil => exact ends
  | cons tree trees ih =>
    have first := tree.noBranch ih
    rw [Tree.spaced, List.cons_append, List.cons_append, List.append_assoc]
    exact first

theorem parses_block {body : List Spelling} {inside : List Statement}
    (parses : Parses context (statements n true) (body ++ space :: mark '}' :: more) more (Statement.bareAll · = inside))
    (starts : Spelling.significant before = inBraces body ++ more) :
    Parses context (block (n + 1)) before more (Statement.bareAll · = inside) := by
  rw [inBraces, List.cons_append, List.cons_append, List.append_assoc] at starts
  rw [block]
  exact (parses_expectMark starts).bind fun _ _ => parses

/-- A branching, where `clauses` and `last` are the branches behind the first one. -/
theorem parses_if (condition : Variable) {body others : List Spelling} {inside : List Statement}
    {clauses : List (Expr × List Statement)} {last : Option (List Statement)}
    (reads : ReadsBlock context body (others ++ more) inside) (enough : 16 * body.length + 12 ≤ n)
    (branching : Parses context (branches n) (others ++ more) more fun read =>
      Statement.bareClauses read.1 = clauses ∧ Statement.bareBlock read.2 = last) (pos : Position) :
    Parses context (directive (n + 1) "if" pos)
      (space :: condition.spelling :: space :: (inBraces body ++ (others ++ more))) more
      (·.bare = .branch .start ((condition.expr, inside) :: clauses) last) := by
  rw [directive]
  simp only [show "if".toLower = "if" from toLower_eq_self (by decide)]
  refine (parses_whole rfl rfl (by simp) (by omega)).bind fun read same => ?_
  refine (reads (by omega) rfl).bind fun block known => ?_
  refine branching.bind fun rest behind => .pure ?_
  rw [Statement.bare, Statement.bareClauses, same, known, behind.1, behind.2]

theorem sameWord_else : Text.sameWord "else" "elseif" = false := sameWord_eq_false (by decide) (by decide) (by decide)

theorem elseAt?_elseIf {tokens : List Token}
    (spelled : tokens.map Token.spelling = space :: atSignWord "else" :: space :: Spelling.word "if" :: more) :
    ∃ left, elseAt? tokens = some (true, left) ∧ left.map Token.spelling = more := by
  obtain ⟨token, rest, same, first, spelled⟩ := significant_eq_cons spelled rfl
  obtain ⟨next, left, same', second, spelled⟩ := significant_eq_cons spelled rfl
  have kind : token.kind = .atKeyword "else" := congrArg Spelling.kind first
  have isIf : isWord next "if" = true := by
    rw [isWord, show next.kind = .ident "if" from congrArg Spelling.kind second]
    exact sameWord_self "if"
  refine ⟨left, ?_, spelled⟩
  rw [elseAt?, same]
  dsimp only
  rw [kind]
  dsimp only
  rw [sameWord_else, sameWord_self, same']
  dsimp only
  rw [isIf]
  rfl

theorem elseAt?_else {tokens : List Token}
    (spelled : tokens.map Token.spelling = space :: atSignWord "else" :: space :: mark '{' :: more) :
    ∃ left, elseAt? tokens = some (false, left) ∧ left.map Token.spelling = space :: mark '{' :: more := by
  obtain ⟨token, left, same, first, spelled⟩ := significant_eq_cons spelled rfl
  obtain ⟨next, behind, same', second, -⟩ := significant_eq_cons spelled rfl
  have kind : token.kind = .atKeyword "else" := congrArg Spelling.kind first
  have noIf : isWord next "if" = false := by
    rw [isWord, show next.kind = .mark '{' from congrArg Spelling.kind second]
  refine ⟨left, ?_, spelled⟩
  rw [elseAt?, same]
  dsimp only
  rw [kind]
  dsimp only
  rw [sameWord_else, sameWord_self, same']
  dsimp only
  rw [noIf]
  rfl

theorem parses_noBranches (ends : NoBranch more) :
    Parses context (branches (n + 1)) more more (· = ([], none)) := by
  rw [branches]
  refine .get_bind fun tokens spelled => ?_
  rw [elseAt?_eq_none spelled ends]
  exact .pure spelled rfl

theorem parses_else {body : List Spelling} {inside : List Statement} (reads : ReadsBlock context body more inside)
    (enough : 16 * body.length + 3 ≤ n) :
    Parses context (branches (n + 1)) (space :: atSignWord "else" :: space :: (inBraces body ++ more)) more
      fun read => Statement.bareClauses read.1 = [] ∧ Statement.bareBlock read.2 = some inside := by
  rw [branches]
  refine .get_bind fun tokens spelled => ?_
  obtain ⟨left, known, spelled⟩ := elseAt?_else spelled
  rw [known]
  refine .set_bind spelled ?_
  exact (reads enough rfl).bind fun block same => .pure ⟨rfl, congrArg some same⟩

theorem parses_elseIf (condition : Variable) {body others : List Spelling} {inside : List Statement}
    {clauses : List (Expr × List Statement)} {last : Option (List Statement)}
    (reads : ReadsBlock context body (others ++ more) inside) (enough : 16 * body.length + 12 ≤ n)
    (branching : Parses context (branches n) (others ++ more) more fun read =>
      Statement.bareClauses read.1 = clauses ∧ Statement.bareBlock read.2 = last) :
    Parses context (branches (n + 1))
      (space :: atSignWord "else" :: space :: Spelling.word "if" :: space :: condition.spelling :: space ::
        (inBraces body ++ (others ++ more))) more
      fun read => Statement.bareClauses read.1 = (condition.expr, inside) :: clauses ∧
        Statement.bareBlock read.2 = last := by
  rw [branches]
  refine .get_bind fun tokens spelled => ?_
  obtain ⟨left, known, spelled⟩ := elseAt?_elseIf spelled
  rw [known]
  refine .set_bind spelled ?_
  refine (parses_whole rfl rfl (by simp) (by omega)).bind fun read same => ?_
  refine (reads (by omega) rfl).bind fun block known => ?_
  refine branching.bind fun rest behind => .pure ⟨?_, behind.2⟩
  rw [Statement.bareClauses, same, known, behind.1]

theorem length_inBraces (body : List Spelling) : (inBraces body).length = body.length + 3 := by simp [inBraces]
/-- The block of some trees, given that they are read up to its closing brace. -/
theorem readsBlock {body : List Spelling} {inside : List Statement}
    (parses : ∀ n, 16 * body.length + 1 ≤ n → NoBranch (space :: mark '}' :: more) →
      Parses context (statements n true) (body ++ space :: mark '}' :: more) more (Statement.bareAll · = inside)) :
    ReadsBlock context body more inside := by
  intro n before enough starts
  obtain ⟨n, rfl⟩ := Nat.exists_eq_add_of_le' (Nat.le_of_add_left_le enough)
  refine parses_block (parses (n + 2) (by omega) ?_) starts
  rintro _ _ ⟨⟩ _ ⟨⟩

mutual

theorem Tree.parses : (tree : Tree) → ∀ {n : Nat} {more after : List Spelling} {behind : List Statement → Prop}
    {inBlock : Bool}, 16 * tree.spellings.length ≤ n → NoBranch more →
    Parses context (statements n inBlock) more after behind →
    Parses context (statements (n + 1) inBlock) (tree.spellings ++ more) after (First tree.statement behind)
  | .simple simple, n, more, after, behind, inBlock, enough, _, rest => by
    rw [Tree.spellings] at enough ⊢
    exact simple.parses enough rest
  | .block head body, n, more, after, behind, inBlock, enough, _, rest => by
    have reads : ReadsBlock context (Tree.spaced body) more (Tree.statements body) :=
      readsBlock fun n enough ends => Tree.parses_spaced body enough ends parses_blockEnd
    rw [Tree.spellings, List.length_append, List.length_cons, length_inBraces] at enough
    rw [Tree.spellings, List.append_assoc]
    exact head.parses reads (by omega) rest
  | .branch condition body others, n, more, after, behind, inBlock, enough, ends, rest => by
    have reads : ReadsBlock context (Tree.spaced body) (others.spellings ++ more) (Tree.statements body) :=
      readsBlock fun n enough ends => Tree.parses_spaced body enough ends parses_blockEnd
    simp only [Tree.spellings, List.length_append, List.length_cons, List.length_nil, length_inBraces] at enough
    obtain ⟨n, rfl⟩ := Nat.exists_eq_add_of_le' (show 6 ≤ n by omega)
    have branching := others.parses (show 16 * others.spellings.length + 1 ≤ n + 5 by omega) ends
    rw [Tree.spellings, List.append_assoc, List.append_assoc]
    exact parses_directive (fun pos => parses_if condition reads (by omega) branching pos) rest

theorem Others.parses : (others : Others) → ∀ {n : Nat} {more : List Spelling},
    16 * others.spellings.length + 1 ≤ n → NoBranch more →
    Parses context (branches n) (others.spellings ++ more) more fun read =>
      Statement.bareClauses read.1 = others.clauses ∧ Statement.bareBlock read.2 = others.last
  | .none, n, more, enough, ends => by
    obtain ⟨n, rfl⟩ := Nat.exists_eq_add_of_le' (show 1 ≤ n by omega)
    refine (parses_noBranches ends).imp ?_
    rintro _ rfl
    exact ⟨rfl, rfl⟩
  | .otherwise body, n, more, enough, ends => by
    have reads : ReadsBlock context (Tree.spaced body) more (Tree.statements body) :=
      readsBlock fun n enough ends => Tree.parses_spaced body enough ends parses_blockEnd
    simp only [Others.spellings, List.length_append, List.length_cons, List.length_nil, length_inBraces] at enough
    obtain ⟨n, rfl⟩ := Nat.exists_eq_add_of_le' (show 1 ≤ n by omega)
    rw [Others.spellings, List.append_assoc]
    exact parses_else reads (by omega)
  | .elseIf condition body others, n, more, enough, ends => by
    have reads : ReadsBlock context (Tree.spaced body) (others.spellings ++ more) (Tree.statements body) :=
      readsBlock fun n enough ends => Tree.parses_spaced body enough ends parses_blockEnd
    simp only [Others.spellings, List.length_append, List.length_cons, List.length_nil, length_inBraces] at enough
    obtain ⟨n, rfl⟩ := Nat.exists_eq_add_of_le' (show 1 ≤ n by omega)
    have branching := others.parses (show 16 * others.spellings.length + 1 ≤ n by omega) ends
    rw [Others.spellings, List.append_assoc, List.append_assoc]
    exact parses_elseIf condition reads (by omega) branching

/-- Statements up to what ends them. -/
theorem Tree.parses_spaced : (trees : List Tree) → ∀ {n : Nat} {ending after : List Spelling} {inBlock : Bool},
    16 * (Tree.spaced trees).length + 1 ≤ n → NoBranch ending →
    (∀ {m}, Parses context (statements (m + 1) inBlock) ending after (· = [])) →
    Parses context (statements n inBlock) (Tree.spaced trees ++ ending) after
      (Statement.bareAll · = Tree.statements trees)
  | [], n, ending, after, inBlock, enough, _, last => by
    obtain ⟨n, rfl⟩ := Nat.exists_eq_add_of_le' (show 1 ≤ n by omega)
    refine last.imp ?_
    rintro _ rfl
    rfl
  | tree :: trees, n, ending, after, inBlock, enough, ends, last => by
    obtain ⟨n, rfl⟩ := Nat.exists_eq_add_of_le' (show 1 ≤ n by omega)
    rw [Tree.spaced, List.cons_append, List.length_cons, List.length_append] at enough
    have rest := Tree.parses_spaced trees (n := n) (by omega) ends last
    have first := tree.parses (by omega) (Tree.noBranch_spaced trees ends) rest
    rw [Tree.spaced, List.cons_append, List.cons_append, List.append_assoc]
    refine (parses_statements_space first).imp ?_
    rintro _ ⟨first, rest, rfl, same, known⟩
    rw [Statement.bareAll, same, known, Tree.statements]

end

/-- The statements of a whole text, where no space stands in front of the first one. -/
theorem parses_sheet (sheet : List Tree) {n : Nat} (enough : 16 * (Tree.spaced sheet).tail.length + 2 ≤ n) :
    Parses context (statements n false) (Tree.spaced sheet).tail [] (Statement.bareAll · = Tree.statements sheet) := by
  obtain ⟨n, rfl⟩ := Nat.exists_eq_add_of_le' (show 1 ≤ n by omega)
  have ends : NoBranch [] := by
    rintro _ _ ⟨⟩
  cases sheet with
  | nil =>
    refine parses_textEnd.imp ?_
    rintro _ rfl
    rfl
  | cons tree trees =>
    simp only [Tree.spaced, List.cons_append, List.tail_cons, List.length_append] at enough
    have rest : Parses context (statements n false) (Tree.spaced trees ++ []) [] (Statement.bareAll · = Tree.statements trees) :=
      Tree.parses_spaced trees (by omega) ends parses_textEnd
    have first := tree.parses (by omega) (Tree.noBranch_spaced trees ends) rest
    rw [List.append_nil] at first
    refine first.imp ?_
    rintro _ ⟨first, rest, rfl, same, known⟩
    rw [Statement.bareAll, same, known, Tree.statements]

theorem fits_sheet (sheet : List Tree) : Spelling.Fits (Tree.spaced sheet).tail := by
  have none : Spelling.Fits [] := True.intro
  cases sheet with
  | nil =>
    rw [Tree.spaced]
    exact none
  | cons tree trees =>
    have fits := tree.fits _ (Tree.fits_spaced trees [] none)
    rw [List.append_nil] at fits
    rw [Tree.spaced]
    exact fits

/-- A stylesheet that is written in the usual form is read back as it was. -/
theorem parse_rendered (sheet : List Tree) (file : String) :
    (Statement.parse (rendered sheet) file false).map Statement.bareAll = .ok (Tree.statements sheet) := by
  obtain ⟨sound, spelled⟩ := Spelling.lex_chars (fits_sheet sheet) Position.start
  have enough : 16 * (Tree.spaced sheet).tail.length + 2 ≤ expressionLimit (rendered sheet).toList := by
    have short := Spelling.length_le_chars (fits_sheet sheet)
    rw [rendered, String.toList_ofList, expressionLimit]
    omega
  rw [← rendered] at sound spelled
  let context : Context :=
    { source := (rendered sheet).toList, finish := finishOf (lex (rendered sheet) .start).tokens, stops := [], file }
  obtain ⟨read, left, same, -, known⟩ : Accepts context (statements (expressionLimit (rendered sheet).toList) false)
      (lex (rendered sheet) .start).tokens [] (Statement.bareAll · = Tree.statements sheet) :=
    parses_sheet sheet enough _ spelled
  have parsed : Statement.parse (rendered sheet) file false = .ok read := by
    simp only [Statement.parse, Bool.false_eq_true, if_false, parseText, sound]
    exact congrArg (Except.map Prod.fst) same
  rw [parsed]
  exact congrArg Except.ok known

/-- A rule with a branching in it, as it is written. -/
example :
    let color : Simple := .declaration ⟨⟨"color", by decide⟩, by decide, by decide⟩ ⟨"v", by decide⟩
    let links : Selector := ⟨[⟨"a", by decide⟩, ⟨"b", by decide⟩], by simp, by decide⟩
    rendered [.block (.rule links) [.branch ⟨"x", by decide⟩ [.simple color] (.otherwise [])]] =
      ".a, .b { @if $x { color: $v; } @else { } }" := by decide +kernel

/-- Whether a single declaration stands there, of a property with this name. -/
def declaresOnly (property : String) : List Statement → Bool
  | [.declaration _ [.text text] _ _ _] => text == property
  | _ => false

/-- A name may end in a blank, by means of a backslash. A property of such a name is read back without the blank. -/
theorem parse_escaped_blank :
    let name := "a\\ "
    let text := String.ofList (Spelling.chars [Spelling.word name, mark ':', space, dollarWord "v", mark ';'])
    isIdentifier name.toList = true ∧ ¬ ['-', '-'] <+: name.toList ∧ isVariableName "v".toList = true ∧
      text = "a\\ : $v;" ∧
      (Statement.parse text "" false).map Statement.bareAll ≠
        .ok [.declaration .start (.ofText name) (some (.variable "v" .start)) false []] := by
  intro name text
  have written : text = "a\\ : $v;" := by decide +kernel
  refine ⟨by decide, by decide, by decide, written, fun same => ?_⟩
  have shorter : ((Statement.parse "a\\ : $v;" "" false).map Statement.bareAll).toOption.any (declaresOnly name) = false := by
    decide +kernel
  rw [← written, same] at shorter
  have kept : declaresOnly name [.declaration .start (.ofText name) (some (.variable "v" .start)) false []] = true := by
    decide +kernel
  exact Bool.false_ne_true (shorter.symm.trans kept)

end Stylesheet.Canonical
