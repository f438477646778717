import Stylesheet.Proofs.CutOff
import Stylesheet.Proofs.ParenthesizedArguments
import Stylesheet.Proofs.ParsingLimit
import Stylesheet.Proofs.Rereading

/-! The arguments of a block that is called. They are never read: the parenthesis in front of them is not taken, so they
are read as one expression in parentheses, and the parenthesis that is to close the list is missing behind them. -/

namespace Stylesheet.Grammar

variable {α β : Type} {tokens tokens' rest left : List Token} {token : Token} {context : Context} {n : Nat}

/-! The end of a statement -/

/-- A statement ends here, or its block begins. -/
def EndsArguments (tokens : List Token) : Prop :=
  significant tokens = [] ∨ ∃ c ∈ [';', '{', '}'], startsMark tokens c = true

namespace EndsArguments

theorem endsExpression (ends : EndsArguments tokens) : endsExpression [] tokens = true := by
  rcases ends with empty | ⟨c, among, starts⟩
  · unfold Grammar.endsExpression
    rw [empty]
  · refine endsExpression_of_startsMark starts ?_
    simp only [List.mem_cons, List.not_mem_nil, or_false] at among
    rcases among with rfl | rfl | rfl <;> rfl

theorem startsMark {c : Char} (ends : EndsArguments tokens) (other : c ∉ [';', '{', '}']) :
    startsMark tokens c = false := by
  rcases ends with empty | ⟨d, among, starts⟩
  · unfold Grammar.startsMark
    rw [empty]
    rfl
  · refine startsMark_unique starts ?_
    rintro rfl
    exact other among

theorem startsSpread (ends : EndsArguments tokens) : startsSpread tokens = false := by
  refine Bool.eq_false_iff.2 fun points => ?_
  have point := startsMark_of_startsSpread points
  rw [ends.startsMark (by decide)] at point
  cases point

theorem of_sameKinds (ends : EndsArguments tokens) (same : SameKinds tokens tokens') : EndsArguments tokens' := by
  rcases ends with empty | ⟨c, among, starts⟩
  · rcases same.ahead with ⟨-, empty'⟩ | ⟨token, token', rest, rest', first, -⟩
    · exact .inl empty'
    · rw [empty] at first
      cases first
  · exact .inr ⟨c, among, (same.startsMark c).symm.trans starts⟩

end EndsArguments

theorem endsArguments_of_endStatement {value : Unit} (run : endStatement context tokens = .ok (value, left)) :
    EndsArguments tokens := by
  cases starts : startsMark tokens ';' with
  | true => exact .inr ⟨';', by decide, starts⟩
  | false =>
    rw [endStatement, eatMark_missing starts, if_neg Bool.false_ne_true, peek_bind_eq] at run
    cases next : significant tokens with
    | nil => exact .inl next
    | cons token rest =>
      rw [next] at run
      cases brace : token.isMark '}' with
      | true =>
        refine .inr ⟨'}', by decide, ?_⟩
        rw [startsMark, next]
        exact brace
      | false =>
        dsimp only [List.head?_cons] at run
        rw [brace] at run
        cases run

theorem endsArguments_of_optionalBlock {value : Option (List Statement)}
    (run : optionalBlock n context tokens = .ok (value, left)) : EndsArguments tokens := by
  cases n with
  | zero => cases run
  | succ n =>
    rw [optionalBlock, atMark_bind_eq] at run
    cases starts : startsMark tokens '{' with
    | true => exact .inr ⟨'{', by decide, starts⟩
    | false =>
      rw [starts] at run
      obtain ⟨_, between, ended, -⟩ := bind_eq_ok run
      exact endsArguments_of_endStatement ended

/-- Where the arguments in a parenthesis are followed by the end of the statement, the parenthesis is no list of
arguments: it is read as one expression, and then its own closing parenthesis is missing. -/
theorem parenthesis_refused (first : significant tokens = token :: rest) (kind : token.kind = .mark '(')
    (ends : ∀ m pos context' value left, context'.stops = [] →
      parenthesized m pos context' rest = .ok (value, left) → EndsArguments left)
    {value : Arguments Expr} : argumentList n context tokens ≠ .ok (value, left) := by
  intro run
  have mark (c : Char) (other : '(' ≠ c) : startsMark tokens c = false := by
    rw [startsMark, first]
    change token.isMark c = false
    rw [Token.isMark, kind]
    exact beq_false_of_ne other
  have unnamed : keywordAt? tokens = none := by
    unfold keywordAt?
    rw [first]
    dsimp only
    rw [kind]
  cases n with
  | zero => cases run
  | succ n =>
    rw [argumentList, eatMark_missing (mark ')' (by decide))] at run
    simp only [Bool.false_eq_true, if_false] at run
    rw [get_bind_eq, unnamed] at run
    obtain ⟨item, between, parsed, run⟩ := bind_eq_ok run
    obtain ⟨m, value', behind, primary, alone⟩ := spaceList_begins first (by rw [kind]; rfl) parsed
    cases m with
    | zero => cases primary
    | succ m =>
      rw [Grammar.primary, kind] at primary
      have primary : stoppingAt [] (parenthesized m token.pos) context ((significant tokens).drop 1) =
        .ok (value', behind) := primary
      rw [first] at primary
      have closed : EndsArguments behind := ends m token.pos { context with stops := [] } value' behind rfl primary
      obtain rfl := alone closed.endsExpression
      rw [eatSpread_missing closed.startsSpread] at run
      obtain ⟨more, _, others, -⟩ := bind_eq_ok run
      cases n with
      | zero => cases others
      | succ n =>
        rw [moreArguments, eatMark_missing (closed.startsMark (by decide))] at others
        have closing := startsMark_of_expectMark others
        rw [closed.startsMark (by decide)] at closing
        cases closing

/-! The two directives -/

theorem Parses.invert {parse : Parse α} {next : α → Parse β} {before after : List Spelling} {found : α → Prop}
    {value : β} (parses : Parses context parse before after found) (spelled : tokens.map Token.spelling = before)
    (run : (parse >>= next) context tokens = .ok (value, left)) :
    ∃ middle between, found middle ∧ between.map Token.spelling = after ∧
      next middle context between = .ok (value, left) := by
  obtain ⟨middle, between, parsed, run⟩ := bind_eq_ok run
  obtain ⟨middle', between', parsed', spelled', holds⟩ := parses tokens spelled
  cases parsed'.symm.trans parsed
  exact ⟨middle, between, holds, spelled', run⟩

/-- A statement that begins with the name of a directive. -/
theorem directive_of_statements {inBlock : Bool} {name : String} {tree : List Statement} {more : List Spelling}
    (spelled : (tokens.map Token.spelling).dropWhile Spelling.isBlank = .atSignWord name :: more)
    (run : statements n inBlock context tokens = .ok (tree, left)) :
    ∃ m pos rest statement between, rest.map Token.spelling = more ∧
      directive m name pos context rest = .ok (statement, between) := by
  have spelled : (tokens.dropWhile Token.isBlank).map Token.spelling = .atSignWord name :: more := by
    rw [← spelled, List.dropWhile_map]
    rfl
  obtain ⟨token, rest, next, first, behind⟩ := List.map_eq_cons_iff.1 spelled
  have kind : token.kind = .atKeyword name := congrArg Spelling.kind first
  cases n with
  | zero => cases run
  | succ n =>
    rw [statements] at run
    obtain ⟨_, start, skipped, run⟩ := bind_eq_ok run
    obtain rfl : tokens.dropWhile Token.isBlank = start := congrArg Prod.snd (Except.ok.inj skipped)
    rw [get_bind_eq, next] at run
    dsimp only at run
    rw [kind] at run
    obtain ⟨_, start, settled, run⟩ := bind_eq_ok run
    obtain rfl : rest = start := congrArg Prod.snd (Except.ok.inj settled)
    obtain ⟨statement, between, parsed, -⟩ := bind_eq_ok run
    exact ⟨n, token.pos, rest, statement, between, behind, parsed⟩

/-- What stands in front of the body of a mixin without parameters. -/
def openMixin : List Spelling :=
  [.atSignWord "mixin", .space, .word "m", .space, .mark '{', .space]

theorem directive_of_mixin {name : String} {tree : List Statement} {more : List Spelling}
    (spelled : tokens.map Token.spelling = openMixin ++ .atSignWord name :: more)
    (run : statements n false context tokens = .ok (tree, left)) :
    ∃ m pos rest statement between, rest.map Token.spelling = more ∧
      directive m name pos context rest = .ok (statement, between) := by
  obtain ⟨n, pos, rest, statement, between, spelled, run⟩ := directive_of_statements (by rw [spelled]; rfl) run
  cases n with
  | zero => cases run
  | succ n =>
    rw [directive] at run
    simp only [show "mixin".toLower = "mixin" from toLower_eq_self (by decide)] at run
    obtain ⟨definition, last, defined, -⟩ := bind_eq_ok run
    cases n with
    | zero => cases defined
    | succ n =>
      rw [callable] at defined
      obtain ⟨name, named, -, spelled, defined⟩ := (parses_expectName rfl).invert spelled defined
      obtain ⟨listed, behind, rfl, spelled, defined⟩ := (parses_eatMark_other rfl rfl).invert spelled defined
      simp only [Bool.false_eq_true, if_false, pure_bind] at defined
      obtain ⟨body, _, inside, -⟩ := bind_eq_ok defined
      cases n with
      | zero => cases inside
      | succ n =>
        rw [block] at inside
        obtain ⟨_, start, -, spelled, inside⟩ := (parses_expectMark rfl).invert spelled inside
        exact directive_of_statements (by rw [spelled]; rfl) inside

/-- Behind the name of the mixin the parenthesis is taken, and what is read inside of it is followed by a block or the end
of the statement. -/
theorem include_reads {pos : Position} {more : List Spelling} {statement : Statement}
    (spelled : tokens.map Token.spelling = .space :: .word "n" :: .mark '(' :: more)
    (run : directive n "include" pos context tokens = .ok (statement, left)) :
    ∃ m context' rest arguments between, context'.stops = [] ∧ rest.map Token.spelling = more ∧
      argumentList m context' rest = .ok (arguments, between) ∧ EndsArguments between := by
  cases n with
  | zero => cases run
  | succ n =>
    rw [directive] at run
    simp only [show "include".toLower = "include" from toLower_eq_self (by decide)] at run
    obtain ⟨name, between, -, spelled, run⟩ := (parses_expectName rfl).invert spelled run
    obtain ⟨taken, between', rfl, spelled, run⟩ := (parses_eatMark rfl).invert spelled run
    simp only [if_true] at run
    obtain ⟨arguments, behind, parsed, run⟩ := bind_eq_ok run
    obtain ⟨block, last, blocked, -⟩ := bind_eq_ok run
    exact ⟨n, { context with stops := [] }, between', arguments, behind, rfl, spelled, parsed,
      endsArguments_of_optionalBlock blocked⟩

/-- The parenthesis is seen but not taken: the arguments are read from it on. -/
theorem content_reads {pos : Position} {more : List Spelling} {statement : Statement}
    (spelled : tokens.map Token.spelling = .mark '(' :: more)
    (run : directive n "content" pos context tokens = .ok (statement, left)) :
    ∃ m context' arguments between, context'.stops = [] ∧
      argumentList m context' tokens = .ok (arguments, between) := by
  cases n with
  | zero => cases run
  | succ n =>
    rw [directive] at run
    simp only [show "content".toLower = "content" from toLower_eq_self (by decide)] at run
    have starts : startsMark tokens '(' = true := by
      rw [startsMark_eq spelled rfl '(']
      rfl
    rw [atMark_bind_eq, starts] at run
    simp only [if_true] at run
    obtain ⟨arguments, between, parsed, -⟩ := bind_eq_ok run
    exact ⟨n, { context with stops := [] }, arguments, between, rfl, parsed⟩

end Stylesheet.Grammar

namespace Stylesheet

open Grammar

/-- In front of the arguments of a mixin that is included. -/
def beforeIncluded : List Spelling := openMixin ++ [.atSignWord "include", .space, .word "n", .mark '(']

/-- In front of the arguments of a block that is called. -/
def beforeContent : List Spelling := openMixin ++ [.atSignWord "content", .mark '(']

/-- A name in front of a parenthesis that is not the one of an address. -/
theorem reads_called (cs : List Char) : (Spelling.word "n").Reads ('(' :: cs) := by
  have scanned : Token.scanName ('n' :: '(' :: cs) = (['n'], '(' :: cs) := rfl
  refine ⟨'n', '(' :: cs, rfl, ?_⟩
  rw [Spelling.lexeme_letter rfl rfl, Token.wordLexeme_word scanned]
  · rfl
  · exact fun _ _ url => absurd url (by decide +kernel)

theorem fits_openMixin {front : List Spelling} {cs : List Char}
    (printing : Token.startsBlank (Spelling.chars front ++ cs) = false) (fits : Spelling.FitsBefore front cs) :
    Spelling.FitsBefore (openMixin ++ front) cs :=
  ⟨Spelling.reads_atSignWord (by decide) rfl, Spelling.reads_space rfl, Spelling.reads_word (by decide) rfl nofun,
    Spelling.reads_space rfl, Spelling.reads_mark (by decide), Spelling.reads_space printing, fits⟩

theorem fits_beforeIncluded (cs : List Char) : Spelling.FitsBefore beforeIncluded cs :=
  fits_openMixin rfl
    ⟨Spelling.reads_atSignWord (by decide) rfl, Spelling.reads_space rfl, reads_called cs,
      Spelling.reads_mark (by decide), trivial⟩

theorem fits_beforeContent (cs : List Char) : Spelling.FitsBefore beforeContent cs :=
  fits_openMixin rfl
    ⟨Spelling.reads_atSignWord (by decide) rfl, Spelling.reads_mark (by decide), trivial⟩

/-- A mixin whose body includes another one with these arguments. -/
def includeText (arguments : String) : String := "@mixin m \x7b @include n(" ++ arguments ++ "); \x7d"

/-- A mixin that calls its block with these arguments. -/
def contentText (arguments : String) : String := "@mixin m \x7b @content(" ++ arguments ++ "); \x7d"

theorem includeText_eq (arguments : String) : includeText arguments =
    String.ofList (Spelling.chars beforeIncluded ++ (arguments ++ "); \x7d").toList) := by
  have front : Spelling.chars beforeIncluded = "@mixin m \x7b @include n(".toList := by
    simp [beforeIncluded, openMixin, Spelling.atSignWord, Spelling.space, Spelling.word]
  rw [front, ← String.toList_append, String.ofList_toList]
  exact String.append_assoc

theorem contentText_eq (arguments : String) : contentText arguments =
    String.ofList (Spelling.chars beforeContent ++ (arguments ++ "); \x7d").toList) := by
  have front : Spelling.chars beforeContent = "@mixin m \x7b @content(".toList := by
    simp [beforeContent, openMixin, Spelling.atSignWord, Spelling.space, Spelling.word]
  rw [front, ← String.toList_append, String.ofList_toList]
  exact String.append_assoc

/-- Behind their fronts, both texts have the same tokens. -/
theorem spelled_alike {list : String} (fine : (lex (includeText list)).error = none) :
    ∃ more more', SameKinds more more' ∧
      (lex (includeText list)).tokens.map Token.spelling =
        openMixin ++ .atSignWord "include" :: .space :: .word "n" :: .mark '(' :: more.map Token.spelling ∧
      (lex (contentText list)).tokens.map Token.spelling =
        openMixin ++ .atSignWord "content" :: .mark '(' :: more'.map Token.spelling := by
  rw [includeText_eq] at fine
  obtain ⟨-, read, read', more, more', tokens, tokens', spelled, spelled', same⟩ :=
    lex_sameKinds (fits_beforeIncluded _) (fits_beforeContent _) fine
  refine ⟨more, more', same, ?_, ?_⟩
  · rw [includeText_eq, tokens, List.map_append, spelled]
    rfl
  · rw [contentText_eq, tokens', List.map_append, spelled']
    rfl

/-- Whatever stands between the parentheses: where a mixin can be included with it, a block cannot be called with it. -/
theorem Statement.content_refuses_arguments {list file : String} {tree : List Statement}
    (parses : Statement.parse (includeText list) file false = .ok tree) :
    ∃ error, Statement.parse (contentText list) file false = .error error ∧ error.cause ≠ .limit := by
  cases content : Statement.parse (contentText list) file false with
  | error error => exact ⟨error, rfl, (Statement.parse_within_limit (Nat.le_refl _)).2 error content⟩
  | ok tree' =>
    exfalso
    obtain ⟨fine, left, run⟩ := parseText_eq_ok parses
    obtain ⟨-, left', run'⟩ := parseText_eq_ok content
    obtain ⟨more, more', same, included, called⟩ := spelled_alike fine
    change statements _ false _ (lex (includeText list)).tokens = _ at run
    change statements _ false _ (lex (contentText list)).tokens = _ at run'
    -- The mixin is included with arguments, and behind them the statement ends.
    obtain ⟨n, pos, rest, inclusion, _, behind, included⟩ := directive_of_mixin included run
    obtain ⟨n, context, inside, _, finish, stops, spelled, arguments, ends⟩ := include_reads behind included
    -- The block is called with the same tokens, but they are read from the parenthesis on.
    obtain ⟨m, pos', rest', call, _, behind', called⟩ := directive_of_mixin called run'
    obtain ⟨m, context', _, _, stops', arguments'⟩ := content_reads behind' called
    obtain ⟨parenthesis, inside', rfl, mark, spelled'⟩ := List.map_eq_cons_iff.1 behind'
    have kind : parenthesis.kind = .mark '(' := congrArg Spelling.kind mark
    have alike : SameKinds inside inside' :=
      ((SameKinds.of_spelled spelled).trans same).trans (.of_spelled spelled'.symm)
    refine parenthesis_refused (List.dropWhile_cons_of_neg ?_) kind (fun k place context'' _ _ none read => ?_) arguments'
    · rw [isTrivia_of_mark kind]
      exact Bool.false_ne_true
    · have closed := (parallel_arguments_parenthesized n k place).inStep alike context context'' (stops.trans none.symm) _
        _ _ _ arguments read
      exact ends.of_sameKinds closed

theorem Statement.content_refuses_arguments_nested :
    (Statement.parse (includeText "f(1, $x) b, $k: (a: [b])") "stdin" false).isOk = true ∧
      ∃ error, Statement.parse (contentText "f(1, $x) b, $k: (a: [b])") "stdin" false = .error error ∧
        error.cause ≠ .limit := by
  have parses : (Statement.parse (includeText "f(1, $x) b, $k: (a: [b])") "stdin" false).isOk = true := by
    decide +kernel
  refine ⟨parses, ?_⟩
  cases known : Statement.parse (includeText "f(1, $x) b, $k: (a: [b])") "stdin" false with
  | error error => simp [known, Except.isOk, Except.toBool] at parses
  | ok tree => exact content_refuses_arguments known

/-- The parenthesis that is missing is the one that closes the list. -/
theorem Statement.content_misses_parenthesis :
    (Statement.parse (includeText "$x") "stdin" false).isOk = true ∧
      (Statement.parse (contentText "$x") "stdin" false).map (fun _ => ()) =
        .error ⟨.unexpected "xin m \x7b @content($x)" (.mark ')') ";", ⟨1, 24⟩⟩ := by
  decide +kernel

end Stylesheet
