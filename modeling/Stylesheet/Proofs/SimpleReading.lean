import Stylesheet.Proofs.ListReading

/-! Statements without a block are read one at a time. -/

namespace Stylesheet.Canonical

open Grammar
open Spelling (mark space dollarWord atSignWord)

variable {context : Context} {before between after more : List Spelling}

/-- What is read begins with one statement, and `behind` says what follows it. -/
def First (statement : Statement) (behind : List Statement → Prop) (read : List Statement) : Prop :=
  ∃ first rest, read = first :: rest ∧ first.bare = statement ∧ behind rest

variable {statement : Statement} {behind : List Statement → Prop} {inBlock : Bool} {n : Nat}

/-- A space in front of a statement is skipped. -/
theorem parses_statements_space (parses : Parses context (statements (n + 1) inBlock) before after behind) :
    Parses context (statements (n + 1) inBlock) (space :: before) after behind := by
  intro tokens spelled
  obtain ⟨token, rest, rfl, blank, spelled⟩ := List.map_eq_cons_iff.1 spelled
  have isBlank : token.isBlank = true := by
    rw [Token.isBlank, show token.kind = .blank false from congrArg Spelling.kind blank]
  have same : statements (n + 1) inBlock context (token :: rest) = statements (n + 1) inBlock context rest := by
    rw [statements, skipBlank_bind, skipBlank_bind, List.dropWhile_cons_of_pos isBlank]
  rw [Accepts, same]
  exact parses rest spelled

theorem parses_directive {name : String}
    (first : ∀ pos, Parses context (directive n name pos) before between (·.bare = statement))
    (rest : Parses context (statements n inBlock) between after behind) :
    Parses context (statements (n + 1) inBlock) (atSignWord name :: before) after (First statement behind) := by
  rw [statements]
  refine parses_skipBlank.bind fun _ _ => ?_
  refine .get_bind fun tokens spelled => ?_
  obtain ⟨token, left, rfl, known, spelled⟩ := List.map_eq_cons_iff.1 spelled
  have kind : token.kind = .atKeyword name := congrArg Spelling.kind known
  dsimp only
  rw [kind]
  refine .set_bind spelled ?_
  refine (first token.pos).bind fun first same => ?_
  exact rest.bind fun rest holds => .pure ⟨first, rest, rfl, same, holds⟩

theorem parses_comment (written : Comment) (rest : Parses context (statements n inBlock) more after behind) :
    Parses context (statements (n + 1) inBlock) (Spelling.comment written :: more) after
      (First (.comment .start written) behind) := by
  rw [statements]
  refine parses_skipBlank.bind fun _ _ => ?_
  refine .get_bind fun tokens spelled => ?_
  obtain ⟨token, left, rfl, known, spelled⟩ := List.map_eq_cons_iff.1 spelled
  have kind : token.kind = .comment written := congrArg Spelling.kind known
  dsimp only
  rw [kind]
  refine .set_bind spelled ?_
  exact rest.bind fun rest holds => .pure ⟨_, rest, rfl, rfl, holds⟩

/-- A flag that stands in front of the semicolon or of another flag. -/
theorem parses_flag {name : String} (isDefault isGlobal : Bool)
    {flags : Bool × Bool → Prop} (known : name = "default" ∨ name = "global")
    (rest : Parses context (assignmentFlags n (isDefault || name == "default") (isGlobal || name == "global")) more after
      flags) :
    Parses context (assignmentFlags (n + 1) isDefault isGlobal) (flag name true ++ more) after flags := by
  rw [assignmentFlags]
  refine .get_bind fun tokens spelled => ?_
  obtain ⟨bang, left, same, first, spelled⟩ := significant_eq_cons spelled rfl
  obtain ⟨token, left, rfl, second, left_spelled⟩ := List.map_eq_cons_iff.1 spelled
  have isBang : bang.isMark '!' = true := by rw [← isMark_spelling, first, isMark_mark, beq_self_eq_true]
  have isFlag (word : String) : isWord token word = Text.sameWord name word := by
    rw [isWord, show token.kind = .ident name from congrArg Spelling.kind second]
  rw [same]
  dsimp only
  rw [isBang, isFlag, isFlag, if_pos rfl]
  rcases known with rfl | rfl
  · rw [sameWord_self, if_pos rfl]
    rw [beq_self_eq_true, Bool.or_true, show ("default" == "global") = false by decide, Bool.or_false] at rest
    exact .set_bind left_spelled rest
  · have other : Text.sameWord "global" "default" = false := sameWord_eq_false (by decide) (by decide) (by decide)
    rw [other, if_neg Bool.false_ne_true, sameWord_self, if_pos rfl]
    rw [beq_self_eq_true, Bool.or_true, show ("global" == "default") = false by decide, Bool.or_false] at rest
    exact .set_bind left_spelled rest

theorem parses_noFlag (isDefault isGlobal : Bool) :
    Parses context (assignmentFlags (n + 1) isDefault isGlobal) (mark ';' :: more) (mark ';' :: more)
      (· = (isDefault, isGlobal)) := by
  rw [assignmentFlags]
  refine .get_bind fun tokens spelled => ?_
  obtain ⟨token, left, same, first, -⟩ := significant_eq_cons spelled rfl
  have noBang : token.isMark '!' = false := by rw [← isMark_spelling, first]; rfl
  rw [same]
  dsimp only
  rw [noBang, if_neg Bool.false_ne_true]
  exact .pure spelled rfl

theorem parses_assignmentFlags (isDefault isGlobal : Bool) :
    Parses context (assignmentFlags (n + 3) false false)
      (flag "default" isDefault ++ (flag "global" isGlobal ++ mark ';' :: more)) (mark ';' :: more)
      (· = (isDefault, isGlobal)) := by
  have last (isDefault : Bool) (n : Nat) : Parses context (assignmentFlags (n + 2) isDefault false)
      (flag "global" isGlobal ++ mark ';' :: more) (mark ';' :: more) (· = (isDefault, isGlobal)) := by
    cases isGlobal with
    | false => exact parses_noFlag isDefault false
    | true => exact parses_flag isDefault false (.inr rfl) (by simpa using parses_noFlag isDefault true)
  cases isDefault with
  | false => exact last false (n + 1)
  | true => exact parses_flag false false (.inl rfl) (by simpa using last true n)

theorem parses_assignment (name value : Variable) (isDefault isGlobal : Bool)
    (rest : Parses context (statements n inBlock) more after behind) (enough : 12 ≤ n) :
    Parses context (statements (n + 1) inBlock)
      (name.spelling :: mark ':' :: space :: value.spelling ::
        (flag "default" isDefault ++ (flag "global" isGlobal ++ mark ';' :: more))) after
      (First (.assignment .start name.name value.expr isDefault isGlobal) behind) := by
  obtain ⟨n, rfl⟩ := Nat.exists_eq_add_of_le' enough
  have follows : ∃ c left, Spelling.significant (flag "default" isDefault ++ (flag "global" isGlobal ++ mark ';' :: more)) =
      mark c :: left ∧ c ∈ [';', '{', '!'] := by
    cases isDefault <;> cases isGlobal <;> exact ⟨_, _, rfl, by simp⟩
  obtain ⟨c, left, follows, ends⟩ := follows
  rw [statements]
  refine parses_skipBlank.bind fun _ _ => ?_
  refine .get_bind fun tokens spelled => ?_
  obtain ⟨token, left, rfl, known, spelled⟩ := List.map_eq_cons_iff.1 spelled
  have kind : token.kind = .variable name.name := congrArg Spelling.kind known
  have colon : startsMark left ':' = true := (startsMark_eq spelled rfl ':').trans rfl
  dsimp only
  rw [kind]
  dsimp only
  rw [colon, if_pos rfl]
  refine .set_bind spelled ?_
  have first : Parses context (assignment (n + 12) name.name token.pos) (mark ':' :: space :: value.spelling ::
        (flag "default" isDefault ++ (flag "global" isGlobal ++ mark ';' :: more))) more
      (·.bare = .assignment .start name.name value.expr isDefault isGlobal) := by
    refine (parses_expectMark significant_mark).bind fun _ _ => ?_
    refine (parses_whole rfl follows ends (by omega)).bind fun read same => ?_
    refine (parses_assignmentFlags isDefault isGlobal).bind ?_
    rintro _ rfl
    refine (parses_endStatement significant_mark).bind fun _ _ => .pure ?_
    rw [Statement.bare, same]
  refine first.bind fun first same => ?_
  exact rest.bind fun rest holds => .pure ⟨first, rest, rfl, same, holds⟩

/-- A colon and a blank behind a name can only be those of a declaration. -/
theorem startsDeclaration_eq_true {name : String} {tokens : List Token} (nonempty : name.toList ≠ [])
    (spelled : tokens.map Token.spelling = Spelling.word name :: mark ':' :: space :: more) : startsDeclaration tokens = true := by
  obtain ⟨first, left, rfl, known, spelled⟩ := List.map_eq_cons_iff.1 spelled
  obtain ⟨colon, left, rfl, isColon, spelled⟩ := List.map_eq_cons_iff.1 spelled
  obtain ⟨blank, left, rfl, isSpace, -⟩ := List.map_eq_cons_iff.1 spelled
  have named : first.kind = .ident name := congrArg Spelling.kind known
  have colonKind : colon.kind = .mark ':' := congrArg Spelling.kind isColon
  have blankKind : blank.kind = .blank false := congrArg Spelling.kind isSpace
  have scanned : scanProperty 0 [] (first :: colon :: blank :: left) =
      some (name.toList.take 2, colon :: blank :: left) := by
    rw [scanProperty, named]
    dsimp only
    rw [scanProperty, colonKind]
    rfl
  have significant : significant (colon :: blank :: left) = colon :: blank :: left :=
    List.dropWhile_cons_of_neg (by simp [Token.isTrivia, colonKind])
  have trivia : blank.isTrivia = true := by rw [Token.isTrivia, blankKind]
  have isMark : colon.isMark ':' = true := by simp [Token.isMark, colonKind]
  rw [startsDeclaration, scanned]
  split
  · next none => cases none
  · next empty =>
    have empty : name.toList.take 2 = [] := congrArg Prod.fst (Option.some.inj empty)
    simp [List.take_eq_nil_iff, nonempty] at empty
  · next start rest _ same =>
    cases same
    rw [significant]
    dsimp only
    rw [isMark, trivia]
    split
    · next other => cases other
    · split <;> rfl

theorem startsDeclaration_eq_false {tokens : List Token}
    (spelled : tokens.map Token.spelling = mark '.' :: more) : startsDeclaration tokens = false := by
  obtain ⟨first, left, rfl, known, spelled⟩ := List.map_eq_cons_iff.1 spelled
  have kind : first.kind = .mark '.' := congrArg Spelling.kind known
  have scanned : scanProperty 0 [] (first :: left) = some ([], first :: left) := by
    rw [scanProperty, kind]
    rfl
  rw [startsDeclaration, scanned]

theorem parses_importance (starts : Spelling.significant before = mark ';' :: more) :
    Parses context importance before before (· = false) := by
  refine .get_bind fun tokens spelled => ?_
  obtain ⟨token, left, same, first, -⟩ := significant_eq_cons spelled starts
  have noBang : token.isMark '!' = false := by rw [← isMark_spelling, first]; rfl
  rw [same]
  dsimp only
  rw [noBang, if_neg Bool.false_ne_true]
  exact .pure spelled rfl

theorem isCustomProperty_eq_false {name : String} (regular : ¬ ['-', '-'] <+: name.toList) :
    Template.isCustomProperty (Template.ofText name : Template Expr) = false := by
  unfold Template.ofText Template.consText
  split
  · rfl
  · refine Bool.eq_false_iff.2 fun starts => regular ?_
    exact String.startsWith_string_iff.1 starts

theorem parses_property (property : Property) :
    Parses context (rawTemplate (n + 3) false [':']) (Spelling.word property.name :: mark ':' :: more) (mark ':' :: more)
      (·.trimEnd = .ofText property.name) := by
  have raw : ∀ s ∈ [Spelling.word property.name], IsRaw [':'] s := by
    intro s inside
    cases List.mem_singleton.1 inside
    exact .word
  have text : Spelling.chars [Spelling.word property.name] = property.name.toList := by simp [Spelling.word]
  refine (parses_rawTemplate raw (by rintro _ ⟨⟩; rfl) rfl false (by simp)).imp fun template same => ?_
  rw [same, text, property.tidy, String.ofList_toList]

theorem parses_declaration (property : Property) (value : Variable)
    (rest : Parses context (statements n inBlock) more after behind) (enough : 16 ≤ n) :
    Parses context (statements (n + 1) inBlock)
      (Spelling.word property.name :: mark ':' :: space :: value.spelling :: mark ';' :: more) after
      (First (.declaration .start (.ofText property.name) (some value.expr) false []) behind) := by
  obtain ⟨n, rfl⟩ := Nat.exists_eq_add_of_le' enough
  have nonempty : property.name.toList ≠ [] := by
    intro empty
    have valid := property.valid
    rw [empty] at valid
    cases valid
  rw [statements]
  refine parses_skipBlank.bind fun _ _ => ?_
  refine .get_bind fun tokens spelled => ?_
  have declares := startsDeclaration_eq_true nonempty spelled
  obtain ⟨token, left, rfl, known, -⟩ := List.map_eq_cons_iff.1 spelled
  have kind : token.kind = .ident property.name := congrArg Spelling.kind known
  dsimp only
  rw [kind]
  dsimp only
  rw [declares, if_pos rfl]
  have first : Parses context (declaration (n + 16) token.pos)
      (Spelling.word property.name :: mark ':' :: space :: value.spelling :: mark ';' :: more) more
      (·.bare = .declaration .start (.ofText property.name) (some value.expr) false []) := by
    rw [show n + 16 = (n + 15) + 1 from rfl, declaration]
    refine (parses_property property).bind fun template same => ?_
    refine (parses_expectMark significant_mark).bind fun _ _ => ?_
    dsimp only
    rw [same, isCustomProperty_eq_false property.regular, if_neg Bool.false_ne_true]
    refine (parses_atMark rfl '{').bind ?_
    rintro _ rfl
    have whole : Parses context (expression (n + 15)) (space :: value.spelling :: mark ';' :: more) (mark ';' :: more)
        (·.bare = value.expr) := parses_whole rfl significant_mark (by simp) (by omega)
    refine whole.map.bind ?_
    rintro _ ⟨read, rfl, known⟩
    refine (parses_importance significant_mark).bind ?_
    rintro _ rfl
    refine (parses_atMark significant_mark '{').bind ?_
    rintro _ rfl
    refine (parses_endStatement significant_mark).bind fun _ _ => .pure ?_
    simp only [Statement.bare, Template.bare_ofText, Option.map_some, known]
    rfl
  refine (first (token :: left) spelled).bind fun first same => ?_
  exact rest.bind fun rest holds => .pure ⟨first, rest, rfl, same, holds⟩
theorem parses_noBlock (positive : 0 < n) :
    Parses context (optionalBlock n) (mark ';' :: more) more (Statement.bareBlock · = none) := by
  obtain ⟨n, rfl⟩ := Nat.exists_eq_add_one.2 positive
  rw [optionalBlock]
  refine (parses_atMark significant_mark '{').bind ?_
  rintro _ rfl
  exact (parses_endStatement significant_mark).bind fun _ _ => .pure rfl

/-- The use of a mixin, where `behind` stands behind its arguments. -/
theorem parses_inclusion (name : Word) (list : ArgumentList) {s : Spelling} {behind left : List Spelling}
    {content : Option (List Statement)} (begins : Spelling.significant behind = s :: left)
    (noArguments : s.isMark '(' = false) (enough : 2 * list.spellings.length + 14 ≤ n)
    (block : Parses context (optionalBlock n) behind more (Statement.bareBlock · = content)) (pos : Position) :
    Parses context (directive (n + 1) "include" pos) (space :: Spelling.word name.name :: (list.spellings ++ behind))
      more (·.bare = .inclusion .start name.name list.arguments content) := by
  rw [directive]
  simp only [show "include".toLower = "include" from toLower_eq_self (by decide)]
  refine (parses_expectName rfl).bind ?_
  rintro _ rfl
  have last (arguments : Arguments Expr) (known : arguments.bare = list.arguments) :
      Parses context (do return Statement.inclusion pos name.name arguments (← optionalBlock n)) behind more
        (·.bare = .inclusion .start name.name list.arguments content) :=
    block.bind fun read same => .pure (by rw [Statement.bare, known, same])
  cases listed : list.items with
  | nil =>
    have written : list.spellings = [] := by rw [ArgumentList.spellings, listed]; rfl
    have none : list.arguments = .none := by rw [← collect_items, listed]; rfl
    rw [written]
    refine (parses_eatMark_other begins noArguments).bind ?_
    rintro _ rfl
    exact last .none (by rw [none]; rfl)
  | cons first items =>
    have written : list.spellings = mark '(' :: separated (list.items.map Argument.spellings) ++ [mark ')'] := by
      rw [ArgumentList.spellings, listed]
      rfl
    have starts : Spelling.significant (separated (list.items.map Argument.spellings) ++ [mark ')'] ++ behind) =
        separated (list.items.map Argument.spellings) ++ mark ')' :: behind := by
      rw [List.append_assoc]
      exact significant_items (Argument.isItem_map list.items) ')' behind
    rw [written, List.length_append, List.length_cons] at enough
    rw [written]
    refine (parses_eatMark significant_mark).bind ?_
    rintro _ rfl
    have arguments : Parses context (stoppingAt [] (argumentList n)) _ behind (·.bare = collect list.items) :=
      .stoppingAt (parses_argumentList list.items starts (by omega))
    refine arguments.bind fun read known => last read (known.trans (collect_items list))

theorem Simple.parses (simple : Simple) (enough : 16 * simple.spellings.length ≤ n)
    (rest : Parses context (statements n inBlock) more after behind) :
    Parses context (statements (n + 1) inBlock) (simple.spellings ++ more) after (First simple.statement behind) := by
  cases simple with
  | declaration property value =>
    simp only [Simple.spellings, List.length_cons, List.length_nil] at enough
    exact parses_declaration property value rest (by omega)
  | assignment name value isDefault isGlobal =>
    simp only [Simple.spellings, List.length_append, List.length_cons, List.length_nil] at enough
    rw [Simple.spellings, List.append_assoc, List.append_assoc, List.append_assoc]
    exact parses_assignment name value isDefault isGlobal rest (by omega)
  | inclusion name list =>
    simp only [Simple.spellings, List.length_append, List.length_cons, List.length_nil] at enough
    obtain ⟨n, rfl⟩ := Nat.exists_eq_add_of_le' (show 6 ≤ n by omega)
    rw [Simple.spellings, List.append_assoc, List.append_assoc]
    exact parses_directive (fun pos => parses_inclusion name list rfl rfl (by omega) (parses_noBlock (by omega)) pos) rest
  | content =>
    simp only [Simple.spellings, List.length_cons, List.length_nil] at enough
    obtain ⟨n, rfl⟩ := Nat.exists_eq_add_of_le' (show 6 ≤ n by omega)
    refine parses_directive (fun pos => (parses_content significant_mark pos).imp ?_) rest
    rintro _ rfl
    rfl
  | result value =>
    simp only [Simple.spellings, List.length_cons, List.length_nil] at enough
    obtain ⟨n, rfl⟩ := Nat.exists_eq_add_of_le' (show 13 ≤ n by omega)
    refine parses_directive (fun pos => ?_) rest
    rw [directive]
    simp only [show "return".toLower = "return" from toLower_eq_self (by decide)]
    refine (parses_whole rfl significant_mark (by simp) (by omega)).bind fun read same => ?_
    refine (parses_endStatement significant_mark).bind fun _ _ => .pure ?_
    rw [Statement.bare, same, Simple.statement]
  | comment written => exact parses_comment written.comment rest
end Stylesheet.Canonical
