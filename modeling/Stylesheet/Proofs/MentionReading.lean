import Stylesheet.Proofs.MappingPlaces
import Stylesheet.Proofs.Mentions
import Stylesheet.Proofs.ReadingCases

/-! Reading variables. The variables in what the parsers read come from the tokens: a variable is a token itself, or it
is read in the text that a string or an address encloses. So a property that the variables in all tokens have is one of
the variables in the tree. -/

namespace Stylesheet

open Grammar

/-- What stands in a string or in an address, and the number of characters of the token before it where no blank stands
before it. -/
def TokenKind.enclosed? : TokenKind → Option (Nat × List Char)
  | .quoted contents _ => some (1, contents.toList)
  | .url contents => some (4, contents.toList)
  | _ => none

/-! What is read from tokens -/

/-- Whatever is read from a text at a place, cut at its interpolations, mentions variables with a property only. -/
def TextKnown (known : Mention → Prop) (pos : Position) (cs : List Char) : Prop :=
  ∀ n context tokens template left, textTemplate n pos cs context tokens = .ok (template, left) →
    ∀ mention ∈ template.mentions, known mention

/-- The variables in a token have a property: the variable that it is itself, and those in the text that it encloses. -/
structure Token.Known (known : Mention → Prop) (token : Token) : Prop where
  own : ∀ name, token.kind = .variable name → known ⟨name, token.pos⟩
  inside : ∀ skipped contents, token.kind.enclosed? = some (skipped, contents) →
    TextKnown known (shifted token.pos skipped) contents

namespace Grammar

variable {α β : Type} {supply : Supply} {tokens : List Token}

/-- What a parser reads from: the tokens of a file, which have a property, and so have the variables in them. -/
structure Supply where
  file : String
  fit : Token → Prop
  known : Mention → Prop
  tells : ∀ token, fit token → token.Known known

/-- Tokens of which nothing else matters than the variables in them. -/
def Supply.knowing (file : String) (known : Mention → Prop) : Supply := ⟨file, Token.Known known, known, fun _ => id⟩

/-- Tokens of which the variables in them do not matter. -/
def Supply.ofTokens (file : String) (fit : Token → Prop) : Supply where
  file := file
  fit := fit
  known _ := True
  tells _ _ := ⟨fun _ _ => trivial, fun _ _ _ _ _ _ _ _ _ _ _ => trivial⟩

/-- From a supply a parser makes something of a kind, and what it leaves is one, too. -/
def Keeps (supply : Supply) (found : α → Prop) (parse : Parse α) : Prop :=
  ∀ context tokens value left, context.file = supply.file → (∀ token ∈ tokens, supply.fit token) →
    parse context tokens = .ok (value, left) → found value ∧ ∀ token ∈ left, supply.fit token

/-- From a supply a parser makes something that mentions known variables only. -/
abbrev Finds (supply : Supply) (mentions : α → List Mention) (parse : Parse α) : Prop :=
  Keeps supply (fun value => ∀ mention ∈ mentions value, supply.known mention) parse

/-- From a supply a parser leaves one. -/
abbrev Passes (supply : Supply) (parse : Parse α) : Prop := Keeps supply (fun _ => True) parse

theorem bind_eq_ok {parse : Parse α} {next : α → Parse β} {context : Context} {value : β} {left : List Token}
    (run : (parse >>= next) context tokens = .ok (value, left)) :
    ∃ middle between, parse context tokens = .ok (middle, between) ∧
      next middle context between = .ok (value, left) := by
  have step : (parse >>= next) context tokens =
      (parse context tokens >>= fun (middle, between) => next middle context between) :=
    rfl
  rw [step] at run
  cases parsed : parse context tokens with
  | error error =>
    rw [parsed] at run
    cases run
  | ok pair =>
    rw [parsed] at run
    exact ⟨pair.1, pair.2, rfl, run⟩

namespace Keeps

variable {found : α → Prop} {result : β → Prop} {parse : Parse α} {next : α → Parse β}

theorem pure {value : α} (given : found value) : Keeps supply found (pure value) := by
  intro context tokens _ _ _ good run
  cases run
  exact ⟨given, good⟩

theorem giveUp : Keeps supply found giveUp := by
  intro context tokens _ _ _ _ run
  cases run

theorem fail {expected : Expectation} : Keeps supply found (fail expected) := by
  intro context tokens _ _ _ _ run
  cases run

theorem bind (first : Keeps supply found parse) (rest : ∀ value, found value → Keeps supply result (next value)) :
    Keeps supply result (parse >>= next) := by
  intro context tokens value left file good run
  obtain ⟨middle, between, parsed, run⟩ := bind_eq_ok run
  obtain ⟨holds, good⟩ := first context tokens middle between file good parsed
  exact rest middle holds context between value left file good run

/-- What is read first may not matter. -/
theorem andThen (first : Passes supply parse) (rest : ∀ value, Keeps supply result (next value)) :
    Keeps supply result (parse >>= next) :=
  first.bind fun value _ => rest value

theorem map {f : α → β} (first : Keeps supply (fun value => result (f value)) parse) :
    Keeps supply result (f <$> parse) := by
  rw [map_eq_pure_bind]
  exact first.bind fun value holds => .pure holds

theorem passes (first : Keeps supply found parse) : Passes supply parse := by
  intro context tokens value left file good run
  exact ⟨trivial, (first context tokens value left file good run).2⟩

theorem imp {found' : α → Prop} (first : Keeps supply found parse)
    (weaker : ∀ value, found value → found' value) : Keeps supply found' parse := by
  intro context tokens value left file good run
  obtain ⟨holds, behind⟩ := first context tokens value left file good run
  exact ⟨weaker value holds, behind⟩

theorem get_bind {next : List Token → Parse β}
    (rest : ∀ tokens, (∀ token ∈ tokens, supply.fit token) → Keeps supply result (next tokens)) :
    Keeps supply result (get >>= next) := by
  intro context tokens value left file good run
  exact rest tokens good context tokens value left file good run

theorem set_bind {next : PUnit → Parse β} (good : ∀ token ∈ tokens, supply.fit token)
    (rest : Keeps supply result (next ⟨⟩)) : Keeps supply result (set tokens >>= next) := by
  intro context _ value left file _ run
  exact rest context tokens value left file good run

theorem read_bind {next : Context → Parse β}
    (rest : ∀ context, context.file = supply.file → Keeps supply result (next context)) :
    Keeps supply result (read >>= next) := by
  intro context tokens value left file good run
  exact rest context file context tokens value left file good run

theorem stoppingAt {stops : List String} (inside : Keeps supply found parse) :
    Keeps supply found (stoppingAt stops parse) := by
  intro context tokens value left file good run
  exact inside { context with stops } tokens value left file good run

end Keeps

/-- A text is read from its own tokens. -/
theorem Keeps.parseText {found : α → Prop} {parse : Parse α} {source : String} {origin : Position} {value : α}
    (keeps : Keeps supply found parse) (fit : ∀ token ∈ (lex source origin).tokens, supply.fit token)
    (run : parseText source supply.file origin parse = .ok value) : found value := by
  unfold Grammar.parseText at run
  dsimp only at run
  split at run
  · cases run
  · obtain ⟨⟨read, left⟩, parsed, same⟩ := Css.Except.map_eq_ok run
    cases same
    exact (keeps _ _ _ left rfl fit parsed).1

theorem significant_subset (tokens : List Token) : significant tokens ⊆ tokens :=
  (List.dropWhile_sublist _).subset

theorem mem_of_significant {first token : Token} {rest : List Token} (starts : significant tokens = first :: rest)
    (member : token ∈ rest) : token ∈ tokens := by
  apply significant_subset
  rw [starts]
  exact List.mem_cons_of_mem first member

theorem passes_modify {f : List Token → List Token} (fewer : ∀ tokens, f tokens ⊆ tokens) :
    Passes supply (modify f : Parse PUnit) := by
  intro context tokens _ _ _ good run
  cases run
  exact ⟨trivial, fun token member => good token (fewer tokens member)⟩

theorem passes_skipTrivia : Passes supply skipTrivia := passes_modify significant_subset

theorem passes_skipBlank : Passes supply skipBlank := passes_modify fun _ => (List.dropWhile_sublist _).subset

theorem passes_advance : Passes supply advance :=
  passes_modify fun tokens => List.Subset.trans (List.drop_subset 1 (significant tokens)) (significant_subset tokens)

theorem keeps_peek : Keeps supply (fun token? => ∀ token ∈ token?, supply.fit token) peek := by
  intro context tokens _ _ _ good run
  cases run
  refine ⟨fun token first => ?_, good⟩
  exact good token (significant_subset tokens (List.mem_of_mem_head? first))

theorem passes_atMark (c : Char) : Passes supply (atMark c) := .get_bind fun _ _ => .pure trivial

theorem passes_eatMark (c : Char) : Passes supply (eatMark c) := by
  apply (passes_atMark c).andThen
  intro starts
  split
  · exact passes_advance.andThen fun _ => .pure trivial
  · exact .pure trivial

theorem passes_expectMark (c : Char) : Passes supply (expectMark c) := by
  apply (passes_eatMark c).andThen
  intro taken
  split
  · exact .pure trivial
  · exact .fail

theorem passes_atWord (word : String) : Passes supply (atWord word) := keeps_peek.passes.andThen fun _ => .pure trivial

theorem passes_expectWord (word : String) : Passes supply (expectWord word) := by
  apply (passes_atWord word).andThen
  intro starts
  split
  · exact passes_advance
  · exact .fail

theorem passes_expectName : Passes supply expectName := by
  apply keeps_peek.passes.andThen
  intro token?
  split
  · exact passes_advance.andThen fun _ => .pure trivial
  · exact .fail

theorem passes_expectVariable : Passes supply expectVariable := by
  apply keeps_peek.passes.andThen
  intro token?
  split
  · exact passes_advance.andThen fun _ => .pure trivial
  · exact .fail

theorem passes_endStatement : Passes supply endStatement := by
  apply (passes_eatMark ';').andThen
  intro taken
  split
  · exact .pure trivial
  · apply keeps_peek.passes.andThen
    intro token?
    split
    · split
      · exact .pure trivial
      · exact .fail
    · exact .pure trivial

theorem passes_eatSpread : Passes supply eatSpread := by
  apply Keeps.get_bind
  intro tokens _
  split
  · refine Keeps.andThen (passes_modify fun tokens => ?_) fun _ => .pure trivial
    exact List.Subset.trans (List.drop_subset 3 (significant tokens)) (significant_subset tokens)
  · exact .pure trivial

theorem passes_atExpressionEnd : Passes supply atExpressionEnd :=
  .read_bind fun _ _ => .get_bind fun _ _ => .pure trivial

theorem passes_rangeWord : Passes supply rangeWord := by
  apply (passes_atWord "through").andThen
  intro through
  split
  · exact passes_advance.andThen fun _ => .pure trivial
  · apply (passes_atWord "to").andThen
    intro upTo
    split
    · exact passes_advance.andThen fun _ => .pure trivial
    · exact .fail

theorem passes_loopNames (n : Nat) : Passes supply (loopNames n) := by
  induction n with
  | zero => exact .giveUp
  | succ n shorter =>
    rw [loopNames]
    apply passes_expectVariable.andThen
    intro name
    apply (passes_eatMark ',').andThen
    intro more
    split
    · exact shorter.andThen fun _ => .pure trivial
    · exact .pure trivial

theorem passes_assignmentFlags (n : Nat) (isDefault isGlobal : Bool) :
    Passes supply (assignmentFlags n isDefault isGlobal) := by
  induction n generalizing isDefault isGlobal with
  | zero => exact .giveUp
  | succ n shorter =>
    rw [assignmentFlags]
    apply Keeps.get_bind
    intro tokens good
    split
    · next bang rest starts =>
      split
      · split
        · next flag behind =>
          have after : ∀ token ∈ behind, supply.fit token := fun token member =>
            good token (mem_of_significant starts (List.mem_cons_of_mem flag member))
          split
          · exact .set_bind after (shorter true isGlobal)
          · split
            · exact .set_bind after (shorter isDefault true)
            · exact .fail
        · exact .fail
      · exact .pure trivial
    · exact .pure trivial

theorem passes_importance : Passes supply importance := by
  apply Keeps.get_bind
  intro tokens good
  split
  · next bang rest starts =>
    split
    · split
      · next flag behind =>
        split
        · refine .set_bind (fun token member => ?_) (.pure trivial)
          exact good token (mem_of_significant starts (List.mem_cons_of_mem flag member))
        · exact .fail
      · exact .fail
    · exact .pure trivial
  · exact .pure trivial

theorem mem_of_operatorAt? {level : Nat} {op : BinaryOp} {pos : Position} {rest : List Token} {token : Token}
    (found : operatorAt? level tokens = some (op, pos, rest)) (member : token ∈ rest) : token ∈ tokens := by
  unfold operatorAt? at found
  split at found
  · next first behind starts =>
    split at found
    · split at found
      · cases found
      · split at found
        · cases found
        · cases found
          exact mem_of_significant starts member
    · cases found
  · cases found

/-! Expressions -/

theorem mentions_arguments (arguments : Arguments Expr) :
    arguments.mentions = Expr.itemMentions arguments.positional ++ Arguments.keywordMentions arguments.keyword ++
      Expr.restMentions arguments.rest := by
  cases arguments
  rfl

theorem known_nil {known : Mention → Prop} : ∀ mention ∈ ([] : List Mention), known mention := nofun

theorem known_of_eq_nil {known : Mention → Prop} {mentions : List Mention} (none : mentions = []) :
    ∀ mention ∈ mentions, known mention := by
  rw [none]
  exact known_nil

/-- The parsers of expressions mention known variables only, as long as they go no deeper than a bound. -/
structure FindsExpressions (supply : Supply) (n : Nat) : Prop where
  expression : Finds supply Expr.mentions (Grammar.expression n)
  commaItems : ∀ atEnd, Passes supply atEnd → Finds supply Expr.itemMentions (Grammar.commaItems n atEnd)
  spaceList : Finds supply Expr.mentions (Grammar.spaceList n)
  spaceItems : Finds supply Expr.itemMentions (Grammar.spaceItems n)
  operation : ∀ level, Finds supply Expr.mentions (Grammar.operation n level)
  operationsOn : ∀ level left, (∀ mention ∈ left.mentions, supply.known mention) →
    Finds supply Expr.mentions (Grammar.operationsOn n level left)
  operand : Finds supply Expr.mentions (Grammar.operand n)
  primary : ∀ token, supply.fit token → Finds supply Expr.mentions (Grammar.primary n token)
  parenthesized : ∀ pos, Finds supply Expr.mentions (Grammar.parenthesized n pos)
  mapEntries : Finds supply Expr.entryMentions (Grammar.mapEntries n)
  bracketed : Finds supply Expr.mentions (Grammar.bracketed n)
  word : ∀ name pos, Finds supply Expr.mentions (Grammar.word n name pos)
  bareWord : Finds supply Template.mentions (Grammar.bareWord n)
  verbatimCall : ∀ name, Finds supply Expr.mentions (Grammar.verbatimCall n name)
  argumentList : Finds supply Arguments.mentions (Grammar.argumentList n)
  moreArguments : Finds supply Arguments.mentions (Grammar.moreArguments n)
  interpolationBody : Finds supply Expr.mentions (Grammar.interpolationBody n)
  rawTemplate : ∀ withVariables ends, Finds supply Template.mentions (Grammar.rawTemplate n withVariables ends)
  rawPieces : ∀ withVariables ends depth started,
    Finds supply Template.mentions (Grammar.rawPieces n withVariables ends depth started)

variable {n : Nat}

/-- A text that is an expression of its own is read from its own tokens, and takes none from those around it. -/
theorem embedded_eq_ok {pos : Position} {cs : List Char} {context : Context} {code : Expr} {left : List Token}
    (run : embedded n pos cs context tokens = .ok (code, left)) :
    left = tokens ∧
      ∃ m context' left', Grammar.expression m context' (lex (String.ofList cs) pos).tokens = .ok (code, left') := by
  cases n with
  | zero => cases run
  | succ n =>
    rw [embedded] at run
    obtain ⟨whole, parsed, same⟩ := Css.Except.map_eq_ok run
    cases same
    refine ⟨rfl, n, ?_⟩
    unfold parseText at parsed
    dsimp only at parsed
    split at parsed
    · cases parsed
    · obtain ⟨⟨whole', behind⟩, read, same⟩ := Css.Except.map_eq_ok parsed
      obtain ⟨inner, between, expression, read⟩ := bind_eq_ok read
      obtain ⟨token?, between', -, read⟩ := bind_eq_ok read
      split at read
      · cases read
      · cases read
        cases same
        exact ⟨_, between, expression⟩

/-- What is read from a text is plain, or comes from its first interpolation and from the text behind it. -/
theorem textTemplate_eq_ok {pos : Position} {cs : List Char} {context : Context} {template : Template Expr}
    {left : List Token} (run : textTemplate n pos cs context tokens = .ok (template, left)) :
    (splitAtInterpolation cs = none ∧ template.mentions = [] ∧ left = tokens) ∨
      ∃ m before behind body rest code more, n = m + 1 ∧ splitAtInterpolation cs = some (before, behind) ∧
        splitAtBrace 0 none behind = some (body, rest) ∧
        embedded m (shifted pos (before.length + 2)) body context tokens = .ok (code, tokens) ∧
        textTemplate m (shifted (shifted pos (before.length + 2)) (body.length + 1)) rest context tokens =
          .ok (more, left) ∧
        template.mentions = code.mentions ++ more.mentions := by
  cases n with
  | zero => cases run
  | succ n =>
    rw [textTemplate] at run
    cases opens : splitAtInterpolation cs with
    | none =>
      rw [opens] at run
      cases run
      exact .inl ⟨rfl, Template.mentions_ofText _, rfl⟩
    | some cut =>
      obtain ⟨before, behind⟩ := cut
      rw [opens] at run
      dsimp only at run
      cases closes : splitAtBrace 0 none behind with
      | none =>
        rw [closes] at run
        cases run
      | some cut =>
        obtain ⟨body, rest⟩ := cut
        rw [closes] at run
        dsimp only at run
        obtain ⟨code, between, inside, run⟩ := bind_eq_ok run
        obtain ⟨more, left', later, run⟩ := bind_eq_ok run
        cases run
        obtain ⟨rfl, -⟩ := embedded_eq_ok inside
        refine .inr ⟨n, before, behind, body, rest, code, more, rfl, rfl, closes, inside, later, ?_⟩
        rw [Template.mentions_consText, Template.mentions_code]

theorem left_of_textTemplate {pos : Position} {cs : List Char} {context : Context} {template : Template Expr}
    {left : List Token} (run : textTemplate n pos cs context tokens = .ok (template, left)) : left = tokens := by
  induction n generalizing pos cs template with
  | zero => cases run
  | succ n shorter =>
    rcases textTemplate_eq_ok run with ⟨-, -, same⟩ | ⟨m, _, _, _, _, _, _, same, -, -, -, later, -⟩
    · exact same
    · cases same
      exact shorter later

theorem finds_textTemplate {pos : Position} {cs : List Char} (text : TextKnown supply.known pos cs) (n : Nat) :
    Finds supply Template.mentions (textTemplate n pos cs) := by
  intro context tokens template left _ good run
  refine ⟨text n context tokens template left run, ?_⟩
  rw [left_of_textTemplate run]
  exact good

theorem finds_expression (finds : FindsExpressions supply n) :
    Finds supply Expr.mentions (Grammar.expression (n + 1)) := by
  rw [Grammar.expression]
  apply finds.spaceList.bind
  intro first here
  apply (passes_atMark ',').andThen
  intro more
  split
  · apply (finds.commaItems atExpressionEnd passes_atExpressionEnd).bind
    intro items behind
    exact .pure (List.forall_mem_append.2 ⟨here, behind⟩)
  · exact .pure here

theorem finds_commaItems (finds : FindsExpressions supply n) {atEnd : Parse Bool} (passes : Passes supply atEnd) :
    Finds supply Expr.itemMentions (Grammar.commaItems (n + 1) atEnd) := by
  rw [Grammar.commaItems]
  apply (passes_eatMark ',').andThen
  intro taken
  split
  · apply passes.andThen
    intro ended
    split
    · exact .pure known_nil
    · apply finds.spaceList.bind
      intro item here
      apply (finds.commaItems atEnd passes).bind
      intro items behind
      exact .pure (List.forall_mem_append.2 ⟨here, behind⟩)
  · exact .pure known_nil

theorem finds_spaceList (finds : FindsExpressions supply n) :
    Finds supply Expr.mentions (Grammar.spaceList (n + 1)) := by
  rw [Grammar.spaceList]
  apply passes_atExpressionEnd.andThen
  intro ended
  split
  · exact .fail
  · apply (finds.operation 0).bind
    intro first here
    apply finds.spaceItems.bind
    intro items behind
    apply Keeps.pure
    rw [Expr.mentions_listExpr]
    exact List.forall_mem_append.2 ⟨here, behind⟩

theorem finds_spaceItems (finds : FindsExpressions supply n) :
    Finds supply Expr.itemMentions (Grammar.spaceItems (n + 1)) := by
  rw [Grammar.spaceItems]
  apply passes_atExpressionEnd.andThen
  intro ended
  apply Keeps.get_bind
  intro tokens _
  split
  · exact .pure known_nil
  · apply (finds.operation 0).bind
    intro item here
    apply finds.spaceItems.bind
    intro items behind
    exact .pure (List.forall_mem_append.2 ⟨here, behind⟩)

theorem finds_operation (finds : FindsExpressions supply n) (level : Nat) :
    Finds supply Expr.mentions (Grammar.operation (n + 1) level) := by
  rw [Grammar.operation]
  split
  · apply (finds.operation (level + 1)).bind
    intro left here
    exact finds.operationsOn level left here
  · exact finds.operand

theorem finds_operationsOn (finds : FindsExpressions supply n) (level : Nat) {left : Expr}
    (here : ∀ mention ∈ left.mentions, supply.known mention) :
    Finds supply Expr.mentions (Grammar.operationsOn (n + 1) level left) := by
  rw [Grammar.operationsOn]
  apply Keeps.get_bind
  intro tokens good
  split
  · next op pos rest found =>
    refine .set_bind (fun token member => good token (mem_of_operatorAt? found member)) ?_
    apply (finds.operation (level + 1)).bind
    intro right behind
    exact finds.operationsOn level _ (List.forall_mem_append.2 ⟨here, behind⟩)
  · exact .pure here

theorem finds_operand (finds : FindsExpressions supply n) : Finds supply Expr.mentions (Grammar.operand (n + 1)) := by
  rw [Grammar.operand]
  apply keeps_peek.bind
  intro token? first
  cases token? with
  | none => exact .fail
  | some token =>
    dsimp only
    split
    · apply passes_advance.andThen
      intro _
      apply finds.operand.bind
      intro inner here
      exact .pure here
    · exact finds.primary token (first token rfl)

theorem finds_primary (finds : FindsExpressions supply n) {token : Token} (fits : supply.fit token) :
    Finds supply Expr.mentions (Grammar.primary (n + 1) token) := by
  have good := supply.tells token fits
  apply primary_cases token (motive := fun parse => Finds supply Expr.mentions (parse n))
  case number => exact fun _ _ _ => passes_advance.andThen fun _ => .pure known_nil
  case hash => exact fun name _ => passes_advance.andThen fun _ => .pure (known_of_eq_nil (Expr.mentions_hashExpr name))
  case quoted =>
    intro contents quote kind
    apply passes_advance.andThen
    intro _
    have inside : TextKnown supply.known (shifted token.pos 1) contents.toList := good.inside 1 _ (by rw [kind]; rfl)
    apply (finds_textTemplate inside n).bind
    intro text here
    exact .pure here
  case address =>
    intro contents kind
    apply passes_advance.andThen
    intro _
    have inside : TextKnown supply.known (shifted token.pos 4) contents.toList := good.inside 4 _ (by rw [kind]; rfl)
    apply (finds_textTemplate inside n).bind
    intro text here
    apply Keeps.pure
    change ∀ mention ∈ Template.mentions _, supply.known mention
    rw [Template.mentions_consText, Template.mentions_append, Template.mentions_ofText, List.append_nil]
    exact here
  case named =>
    exact fun name kind => passes_advance.andThen fun _ => .pure (List.forall_mem_singleton.2 (good.own name kind))
  case parenthesis => exact passes_advance.andThen fun _ => (finds.parenthesized token.pos).stoppingAt
  case bracket => exact passes_advance.andThen fun _ => finds.bracketed.stoppingAt
  case parent => exact passes_advance.andThen fun _ => .pure (known_of_eq_nil (Template.mentions_ofText "&"))
  case identifier => exact fun name _ => passes_advance.andThen fun _ => finds.word name token.pos
  case code =>
    intro _
    apply passes_skipTrivia.andThen
    intro _
    apply finds.bareWord.bind
    intro text here
    exact .pure here
  case other => exact .fail

theorem finds_parenthesized (finds : FindsExpressions supply n) (pos : Position) :
    Finds supply Expr.mentions (Grammar.parenthesized (n + 1) pos) := by
  have close {inner : Expr} (here : ∀ mention ∈ inner.mentions, supply.known mention) :
      Finds supply Expr.mentions (do
        expectMark ')'
        return .paren inner) :=
    (passes_expectMark ')').andThen fun _ => .pure here
  rw [Grammar.parenthesized]
  apply (passes_eatMark ')').andThen
  intro empty
  split
  · exact .pure known_nil
  · apply finds.spaceList.bind
    intro first here
    apply (passes_eatMark ':').andThen
    intro colon
    split
    · apply finds.spaceList.bind
      intro value behind
      apply finds.mapEntries.bind
      intro entries others
      apply (passes_expectMark ')').andThen
      intro _
      exact .pure (List.forall_mem_append.2 ⟨List.forall_mem_append.2 ⟨here, behind⟩, others⟩)
    · apply (passes_atMark ',').andThen
      intro more
      split
      · apply (finds.commaItems (atMark ')') (passes_atMark ')')).bind
        intro items behind
        exact close (List.forall_mem_append.2 ⟨here, behind⟩)
      · exact close here

theorem finds_mapEntries (finds : FindsExpressions supply n) :
    Finds supply Expr.entryMentions (Grammar.mapEntries (n + 1)) := by
  rw [Grammar.mapEntries]
  apply (passes_eatMark ',').andThen
  intro more
  split
  · apply (passes_atMark ')').andThen
    intro ended
    split
    · exact .pure known_nil
    · apply finds.spaceList.bind
      intro key first
      apply (passes_expectMark ':').andThen
      intro _
      apply finds.spaceList.bind
      intro value second
      apply finds.mapEntries.bind
      intro entries others
      exact .pure (List.forall_mem_append.2 ⟨List.forall_mem_append.2 ⟨first, second⟩, others⟩)
  · exact .pure known_nil

theorem finds_bracketed (finds : FindsExpressions supply n) :
    Finds supply Expr.mentions (Grammar.bracketed (n + 1)) := by
  have close {inner : Option Expr} (here : ∀ mention ∈ Expr.restMentions inner, supply.known mention) :
      Finds supply Expr.mentions (do
        expectMark ']'
        return bracketedExpr inner) := by
    apply (passes_expectMark ']').andThen
    intro _
    apply Keeps.pure
    rw [Expr.mentions_bracketedExpr]
    exact here
  rw [Grammar.bracketed]
  apply (passes_atMark ']').andThen
  intro empty
  split
  · exact close known_nil
  · have inner : Keeps supply (fun inner => ∀ mention ∈ Expr.restMentions inner, supply.known mention)
        (some <$> Grammar.expression n) := .map finds.expression
    apply inner.bind
    intro inner here
    exact close here

theorem finds_word (finds : FindsExpressions supply n) (name : String) (pos : Position) :
    Finds supply Expr.mentions (Grammar.word (n + 1) name pos) := by
  have alone : Finds supply Expr.mentions (pure (wordExpr name)) :=
    .pure (known_of_eq_nil (Expr.mentions_wordExpr name))
  rw [Grammar.word]
  apply Keeps.get_bind
  intro tokens good
  cases tokens with
  | nil => exact alone
  | cons next rest =>
    dsimp only
    split
    · refine .set_bind (List.forall_mem_cons.1 good).2 ?_
      split
      · exact finds.verbatimCall name
      · apply finds.argumentList.stoppingAt.bind
        intro arguments here
        exact .pure here
    · split
      · apply finds.bareWord.bind
        intro text here
        apply Keeps.pure
        change ∀ mention ∈ Template.mentions _, supply.known mention
        rw [Template.mentions_consText]
        exact here
      · exact alone

theorem finds_bareWord (finds : FindsExpressions supply n) :
    Finds supply Template.mentions (Grammar.bareWord (n + 1)) := by
  have join (s : String) : Finds supply Template.mentions (do return Template.consText s (← Grammar.bareWord n)) := by
    apply finds.bareWord.bind
    intro more here
    apply Keeps.pure
    rw [Template.mentions_consText]
    exact here
  rw [Grammar.bareWord]
  apply Keeps.get_bind
  intro tokens good
  cases tokens with
  | nil => exact .pure known_nil
  | cons token rest =>
    have behind := (List.forall_mem_cons.1 good).2
    dsimp only
    split
    · exact .set_bind behind (join token.text)
    · exact .set_bind behind (join token.text)
    · apply Keeps.set_bind behind
      apply finds.interpolationBody.bind
      intro code here
      apply finds.bareWord.bind
      intro more later
      exact .pure (List.forall_mem_append.2 ⟨here, later⟩)
    · split
      · exact .set_bind behind (join "-")
      · exact .pure known_nil
    · exact .pure known_nil

theorem finds_verbatimCall (finds : FindsExpressions supply n) (name : String) :
    Finds supply Expr.mentions (Grammar.verbatimCall (n + 1) name) := by
  rw [Grammar.verbatimCall]
  apply (finds.rawTemplate false [')']).bind
  intro inner here
  apply Keeps.get_bind
  intro tokens good
  cases tokens with
  | nil => exact .fail
  | cons token rest =>
    apply Keeps.set_bind (List.forall_mem_cons.1 good).2
    apply Keeps.pure
    change ∀ mention ∈ Template.mentions _, supply.known mention
    rw [Template.mentions_consText, Template.mentions_append, Template.mentions_ofText, List.append_nil]
    exact here

theorem finds_argumentList (finds : FindsExpressions supply n) :
    Finds supply Arguments.mentions (Grammar.argumentList (n + 1)) := by
  rw [Grammar.argumentList]
  apply (passes_eatMark ')').andThen
  intro empty
  split
  · exact .pure known_nil
  · apply Keeps.get_bind
    intro tokens _
    split
    · apply passes_advance.andThen
      intro _
      apply (passes_expectMark ':').andThen
      intro _
      apply finds.spaceList.bind
      intro value here
      apply finds.moreArguments.bind
      intro more others
      apply Keeps.pure
      rw [mentions_arguments] at others ⊢
      simp only [List.forall_mem_append, Arguments.keywordMentions] at others ⊢
      exact ⟨⟨others.1.1, here, others.1.2⟩, others.2⟩
    · apply finds.spaceList.bind
      intro value here
      apply passes_eatSpread.andThen
      intro spread
      split
      · apply finds.moreArguments.bind
        intro more others
        apply Keeps.pure
        rw [mentions_arguments] at others ⊢
        simp only [List.forall_mem_append] at others ⊢
        refine ⟨others.1, ?_⟩
        cases given : more.rest with
        | none => exact here
        | some rest =>
          rw [given] at others
          exact others.2
      · apply finds.moreArguments.bind
        intro more others
        apply Keeps.pure
        rw [mentions_arguments] at others ⊢
        simp only [List.forall_mem_append, Expr.itemMentions] at others ⊢
        exact ⟨⟨⟨here, others.1.1⟩, others.1.2⟩, others.2⟩

theorem finds_moreArguments (finds : FindsExpressions supply n) :
    Finds supply Arguments.mentions (Grammar.moreArguments (n + 1)) := by
  rw [Grammar.moreArguments]
  apply (passes_eatMark ',').andThen
  intro more
  split
  · exact finds.argumentList
  · exact (passes_expectMark ')').andThen fun _ => .pure known_nil

theorem finds_interpolationBody (finds : FindsExpressions supply n) :
    Finds supply Expr.mentions (Grammar.interpolationBody (n + 1)) := by
  rw [Grammar.interpolationBody]
  apply finds.expression.stoppingAt.bind
  intro code here
  exact (passes_expectMark '}').andThen fun _ => .pure here

theorem finds_rawTemplate (finds : FindsExpressions supply n) (withVariables : Bool) (ends : List Char) :
    Finds supply Template.mentions (Grammar.rawTemplate (n + 1) withVariables ends) := by
  rw [Grammar.rawTemplate]
  apply (finds.rawPieces withVariables ends 0 false).bind
  intro text here
  apply Keeps.pure
  rw [Template.mentions_squeeze]
  exact here

theorem finds_rawPieces (finds : FindsExpressions supply n) (withVariables : Bool) (ends : List Char) (depth : Nat)
    (started : Bool) : Finds supply Template.mentions (Grammar.rawPieces (n + 1) withVariables ends depth started) := by
  have join (s : String) (depth : Nat) :
      Finds supply Template.mentions (do
        return Template.consText s (← Grammar.rawPieces n withVariables ends depth true)) := by
    apply (finds.rawPieces withVariables ends depth true).bind
    intro more here
    apply Keeps.pure
    rw [Template.mentions_consText]
    exact here
  rw [Grammar.rawPieces]
  apply Keeps.get_bind
  intro tokens good
  cases tokens with
  | nil => exact .pure known_nil
  | cons token rest =>
    obtain ⟨fits, behind⟩ := List.forall_mem_cons.1 good
    have first := supply.tells token fits
    dsimp only
    split
    · exact .pure known_nil
    apply Keeps.set_bind behind
    cases kind : token.kind with
    | interpolation =>
      apply finds.interpolationBody.bind
      intro code here
      apply (finds.rawPieces withVariables ends depth true).bind
      intro more later
      exact .pure (List.forall_mem_append.2 ⟨here, later⟩)
    | «variable» name =>
      apply (finds.rawPieces withVariables ends depth true).bind
      intro more later
      apply Keeps.pure
      split
      · exact List.forall_mem_cons.2 ⟨first.own name kind, later⟩
      · rw [Template.mentions_consText]
        exact later
    | quoted contents quote =>
      have inside : TextKnown supply.known (shifted token.pos 1) contents.toList := first.inside 1 _ (by rw [kind]; rfl)
      apply (finds_textTemplate inside n).bind
      intro text here
      apply (finds.rawPieces withVariables ends depth true).bind
      intro more later
      apply Keeps.pure
      rw [Template.mentions_consText, Template.mentions_append, Template.mentions_consText]
      exact List.forall_mem_append.2 ⟨here, later⟩
    | blank =>
      apply (finds.rawPieces withVariables ends depth started).bind
      intro more later
      apply Keeps.pure
      split
      · rw [Template.mentions_consText]
        exact later
      · exact later
    | comment => exact finds.rawPieces withVariables ends depth started
    | _ => exact join token.text _

theorem findsExpressions (supply : Supply) (n : Nat) : FindsExpressions supply n := by
  induction n with
  | zero =>
    constructor
    case commaItems => exact fun _ _ => .giveUp
    case operationsOn => exact fun _ _ _ => .giveUp
    case primary => exact fun _ _ => .giveUp
    case rawPieces => exact fun _ _ _ _ => .giveUp
    case word | rawTemplate => exact fun _ _ => .giveUp
    case operation | parenthesized | verbatimCall => exact fun _ => .giveUp
    all_goals exact .giveUp
  | succ n shallower =>
    exact {
      expression := finds_expression shallower
      commaItems := fun _ passes => finds_commaItems shallower passes
      spaceList := finds_spaceList shallower
      spaceItems := finds_spaceItems shallower
      operation := finds_operation shallower
      operationsOn := fun level _ here => finds_operationsOn shallower level here
      operand := finds_operand shallower
      primary := fun _ fits => finds_primary shallower fits
      parenthesized := finds_parenthesized shallower
      mapEntries := finds_mapEntries shallower
      bracketed := finds_bracketed shallower
      word := finds_word shallower
      bareWord := finds_bareWord shallower
      verbatimCall := finds_verbatimCall shallower
      argumentList := finds_argumentList shallower
      moreArguments := finds_moreArguments shallower
      interpolationBody := finds_interpolationBody shallower
      rawTemplate := finds_rawTemplate shallower
      rawPieces := finds_rawPieces shallower }

/-! Statements -/

theorem mem_of_referenceAt? {reference : String} {pos : Position} {rest : List Token} {token : Token}
    (found : referenceAt? tokens = some (reference, pos, rest)) (member : token ∈ rest) : token ∈ tokens := by
  unfold referenceAt? at found
  split at found
  · next first behind starts =>
    split at found
    · dsimp only at found
      split at found
      · cases found
        exact mem_of_significant starts member
      · cases found
    · cases found
  · cases found

theorem mem_of_elseAt? {condition : Bool} {rest : List Token} {token : Token}
    (found : elseAt? tokens = some (condition, rest)) (member : token ∈ rest) : token ∈ tokens := by
  unfold elseAt? at found
  split at found
  · next first behind starts =>
    split at found
    · split at found
      · cases found
        exact mem_of_significant starts member
      · split at found
        · split at found
          · next second last follows =>
            split at found
            · cases found
              exact mem_of_significant starts (mem_of_significant follows member)
            · cases found
              exact mem_of_significant starts member
          · cases found
            exact mem_of_significant starts member
        · cases found
    · cases found
  · cases found

theorem finds_assignment (n : Nat) (name : String) (pos : Position) :
    Finds supply Statement.mentions (assignment n name pos) := by
  apply (passes_expectMark ':').andThen
  intro _
  apply (findsExpressions supply n).expression.bind
  intro value here
  apply (passes_assignmentFlags n false false).andThen
  intro (isDefault, isGlobal)
  exact passes_endStatement.andThen fun _ => .pure here

theorem finds_moreParameters {n : Nat}
    (shorter : Finds supply (fun (parameters, _) => parameters.flatMap Parameter.mentions) (parameters n)) (name : String)
    {default : Option Expr} (here : ∀ mention ∈ Expr.restMentions default, supply.known mention) :
    Finds supply (fun (parameters, _) => parameters.flatMap Parameter.mentions) (moreParameters n name default) := by
  apply (passes_eatMark ',').andThen
  intro more
  split
  · apply shorter.bind
    intro (more, rest) others
    exact .pure (List.forall_mem_append.2 ⟨here, others⟩)
  · exact (passes_expectMark ')').andThen fun _ => .pure (List.forall_mem_append.2 ⟨here, known_nil⟩)

theorem finds_parameters (n : Nat) :
    Finds supply (fun (parameters, _) => parameters.flatMap Parameter.mentions) (parameters n) := by
  induction n with
  | zero => exact .giveUp
  | succ n shorter =>
    rw [parameters_succ]
    apply (passes_eatMark ')').andThen
    intro empty
    split
    · exact .pure known_nil
    · apply passes_expectVariable.andThen
      intro name
      apply passes_eatSpread.andThen
      intro spread
      split
      · exact (passes_expectMark ')').andThen fun _ => .pure known_nil
      · apply (passes_eatMark ':').andThen
        intro given
        split
        · have default : Keeps supply (fun default => ∀ mention ∈ Expr.restMentions default, supply.known mention)
              (some <$> spaceList n) := .map (findsExpressions supply n).spaceList
          exact default.bind fun _ here => finds_moreParameters shorter name here
        · exact finds_moreParameters shorter name known_nil

theorem finds_importTargets (n : Nat) :
    Finds supply (fun targets => targets.flatMap ImportTarget.mentions) (importTargets n) := by
  induction n with
  | zero => exact .giveUp
  | succ n shorter =>
    rw [importTargets]
    apply Keeps.get_bind
    intro tokens good
    split
    · next reference pos rest found =>
      refine .set_bind (fun token member => good token (mem_of_referenceAt? found member)) ?_
      apply (passes_eatMark ',').andThen
      intro more
      split
      · apply shorter.bind
        intro targets others
        exact .pure others
      · exact .pure known_nil
    · apply keeps_peek.passes.andThen
      intro token?
      split
      · exact .fail
      · apply ((findsExpressions supply n).rawTemplate false [';', '}']).bind
        intro text here
        apply Keeps.pure
        change ∀ mention ∈ Template.mentions _ ++ [], supply.known mention
        rw [Template.mentions_trimEnd, List.append_nil]
        exact here

/-- The parsers of statements mention known variables only, as long as they go no deeper than a bound. -/
structure FindsStatements (supply : Supply) (n : Nat) : Prop where
  statements : ∀ inBlock, Finds supply Statement.mentionsIn (Grammar.statements n inBlock)
  block : Finds supply Statement.mentionsIn (Grammar.block n)
  optionalBlock : Finds supply Statement.blockMentions (Grammar.optionalBlock n)
  rule : ∀ pos, Finds supply Statement.mentions (Grammar.rule n pos)
  declaration : ∀ pos, Finds supply Statement.mentions (Grammar.declaration n pos)
  directive : ∀ name pos, Finds supply Statement.mentions (Grammar.directive n name pos)
  message : ∀ kind pos, Finds supply Statement.mentions (Grammar.message n kind pos)
  callable : Finds supply Statement.callableMentions (Grammar.callable n)
  branches : Finds supply
    (fun (clauses, otherwise) => Statement.clauseMentions clauses ++ Statement.blockMentions otherwise)
    (Grammar.branches n)

theorem finds_statements (finds : FindsStatements supply n) (inBlock : Bool) :
    Finds supply Statement.mentionsIn (Grammar.statements (n + 1) inBlock) := by
  have behind {first : Statement} (here : ∀ mention ∈ first.mentions, supply.known mention) :
      Finds supply Statement.mentionsIn (do return first :: (← Grammar.statements n inBlock)) := by
    apply (finds.statements inBlock).bind
    intro rest later
    exact .pure (List.forall_mem_append.2 ⟨here, later⟩)
  rw [Grammar.statements]
  apply passes_skipBlank.andThen
  intro _
  apply Keeps.get_bind
  intro tokens good
  cases tokens with
  | nil =>
    dsimp only
    split
    · exact .fail
    · exact .pure known_nil
  | cons token rest =>
    have after := (List.forall_mem_cons.1 good).2
    dsimp only
    split
    · exact .set_bind after (behind known_nil)
    · split
      · exact .set_bind after (.pure known_nil)
      · exact .fail
    · exact .set_bind after (finds.statements inBlock)
    · exact .set_bind after ((finds.directive _ token.pos).bind fun _ here => behind here)
    · split
      · exact .set_bind after ((finds_assignment n _ token.pos).bind fun _ here => behind here)
      · exact (finds.rule token.pos).bind fun _ here => behind here
    · split
      · exact (finds.declaration token.pos).bind fun _ here => behind here
      · exact (finds.rule token.pos).bind fun _ here => behind here

theorem finds_block (finds : FindsStatements supply n) : Finds supply Statement.mentionsIn (Grammar.block (n + 1)) := by
  rw [Grammar.block]
  exact (passes_expectMark '{').andThen fun _ => finds.statements true

theorem finds_optionalBlock (finds : FindsStatements supply n) :
    Finds supply Statement.blockMentions (Grammar.optionalBlock (n + 1)) := by
  rw [Grammar.optionalBlock]
  apply (passes_atMark '{').andThen
  intro opens
  split
  · exact .map finds.block
  · exact passes_endStatement.andThen fun _ => .pure known_nil

theorem finds_rule (finds : FindsStatements supply n) (pos : Position) :
    Finds supply Statement.mentions (Grammar.rule (n + 1) pos) := by
  rw [Grammar.rule]
  apply ((findsExpressions supply n).rawTemplate false ['{', ';', '}']).bind
  intro selector here
  rw [← Template.mentions_trimEnd] at here
  apply (passes_atMark '{').andThen
  intro opens
  split
  · exact .fail
  · apply finds.block.bind
    intro body inside
    exact .pure (List.forall_mem_append.2 ⟨here, inside⟩)

theorem finds_declaration (finds : FindsStatements supply n) (pos : Position) :
    Finds supply Statement.mentions (Grammar.declaration (n + 1) pos) := by
  rw [Grammar.declaration]
  apply ((findsExpressions supply n).rawTemplate false [':']).bind
  intro property first
  rw [← Template.mentions_trimEnd] at first
  apply (passes_expectMark ':').andThen
  intro _
  dsimp only
  split
  · apply passes_skipTrivia.andThen
    intro _
    apply ((findsExpressions supply n).rawTemplate false [';', '}']).bind
    intro text second
    rw [← Template.mentions_trimEnd] at second
    apply passes_endStatement.andThen
    intro _
    exact .pure (List.forall_mem_append.2 ⟨List.forall_mem_append.2 ⟨first, second⟩, known_nil⟩)
  · -- Behind the value, if there is one, there may be a block.
    have behind {value : Option Expr} (second : ∀ mention ∈ Expr.restMentions value, supply.known mention) :
        Finds supply Statement.mentions (do
          let important ← importance
          if ← atMark '{' then return Statement.declaration pos (Template.trimEnd property) value important (← block n)
          else if value.isNone then fail .expression
          else
            endStatement
            return .declaration pos (Template.trimEnd property) value important []) := by
      have here := List.forall_mem_append.2 ⟨first, second⟩
      apply passes_importance.andThen
      intro important
      apply (passes_atMark '{').andThen
      intro opens
      split
      · apply finds.block.bind
        intro body inside
        exact .pure (List.forall_mem_append.2 ⟨here, inside⟩)
      · split
        · exact .fail
        · exact passes_endStatement.andThen fun _ => .pure (List.forall_mem_append.2 ⟨here, known_nil⟩)
    apply (passes_atMark '{').andThen
    intro opens
    split
    · exact behind known_nil
    · have value : Keeps supply (fun value => ∀ mention ∈ Expr.restMentions value, supply.known mention)
          (some <$> expression n) := .map (findsExpressions supply n).expression
      exact value.bind fun _ second => behind second

theorem finds_message (n : Nat) (kind : MessageKind) (pos : Position) :
    Finds supply Statement.mentions (Grammar.message (n + 1) kind pos) := by
  rw [Grammar.message]
  apply (findsExpressions supply n).expression.bind
  intro value here
  exact passes_endStatement.andThen fun _ => .pure here

theorem finds_callable (finds : FindsStatements supply n) :
    Finds supply Statement.callableMentions (Grammar.callable (n + 1)) := by
  have behind (name : String) {parameters : List Parameter} (rest : Option String)
      (here : ∀ mention ∈ parameters.flatMap Parameter.mentions, supply.known mention) :
      Finds supply Statement.callableMentions (do
        let body ← block n
        return { name, parameters, rest, body, file := (← read).file }) := by
    apply finds.block.bind
    intro body inside
    apply Keeps.read_bind
    intro context _
    exact .pure (List.forall_mem_append.2 ⟨here, inside⟩)
  rw [Grammar.callable]
  apply passes_expectName.andThen
  intro name
  apply (passes_eatMark '(').andThen
  intro opens
  split
  · apply (finds_parameters n).bind
    intro (parameters, rest) here
    exact behind name rest here
  · exact behind name none known_nil

theorem finds_branches (finds : FindsStatements supply n) :
    Finds supply (fun (clauses, otherwise) => Statement.clauseMentions clauses ++ Statement.blockMentions otherwise)
      (Grammar.branches (n + 1)) := by
  rw [Grammar.branches]
  apply Keeps.get_bind
  intro tokens good
  split
  · next rest found =>
    refine .set_bind (fun token member => good token (mem_of_elseAt? found member)) ?_
    apply (findsExpressions supply n).expression.bind
    intro condition first
    apply finds.block.bind
    intro body second
    apply finds.branches.bind
    intro (clauses, otherwise) others
    apply Keeps.pure
    simp only [Statement.clauseMentions, List.forall_mem_append] at others ⊢
    exact ⟨⟨⟨first, second⟩, others.1⟩, others.2⟩
  · next rest found =>
    refine .set_bind (fun token member => good token (mem_of_elseAt? found member)) ?_
    apply finds.block.bind
    intro body inside
    exact .pure inside
  · exact .pure known_nil

/-- A statement with a block holds what is mentioned in front of the block and in it. -/
theorem finds_before_block (finds : FindsStatements supply n) {statement : List Statement → Statement}
    {before : List Mention} (here : ∀ mention ∈ before, supply.known mention)
    (same : ∀ body, (statement body).mentions = before ++ Statement.mentionsIn body) :
    Finds supply Statement.mentions (do return statement (← Grammar.block n)) := by
  apply finds.block.bind
  intro body inside
  apply Keeps.pure
  rw [same]
  exact List.forall_mem_append.2 ⟨here, inside⟩

theorem finds_before_optionalBlock (finds : FindsStatements supply n) {statement : Option (List Statement) → Statement}
    {before : List Mention} (here : ∀ mention ∈ before, supply.known mention)
    (same : ∀ body, (statement body).mentions = before ++ Statement.blockMentions body) :
    Finds supply Statement.mentions (do return statement (← Grammar.optionalBlock n)) := by
  apply finds.optionalBlock.bind
  intro body inside
  apply Keeps.pure
  rw [same]
  exact List.forall_mem_append.2 ⟨here, inside⟩

theorem finds_directive (finds : FindsStatements supply n) (name : String) (pos : Position) :
    Finds supply Statement.mentions (Grammar.directive (n + 1) name pos) := by
  have expressions := findsExpressions supply n
  apply directive_cases name pos (motive := fun parse => Finds supply Statement.mentions (parse n))
  case imports =>
    apply (finds_importTargets n).bind
    intro targets here
    exact passes_endStatement.andThen fun _ => .pure here
  case mixin | function =>
    apply finds.callable.bind
    intro callable here
    exact .pure here
  case inclusion =>
    apply passes_expectName.andThen
    intro mixin
    apply (passes_eatMark '(').andThen
    intro opens
    split
    · apply expressions.argumentList.stoppingAt.bind
      intro arguments here
      exact finds_before_optionalBlock finds here fun _ => rfl
    · exact finds_before_optionalBlock finds known_nil fun _ => rfl
  case content =>
    have simple : Finds supply Statement.mentions (do
        endStatement
        return Statement.content pos) := passes_endStatement.andThen fun _ => .pure known_nil
    apply (passes_atMark '(').andThen
    intro opens
    split
    · exact expressions.argumentList.stoppingAt.passes.andThen fun _ => simple
    · exact simple
  case result =>
    apply expressions.expression.bind
    intro value here
    exact passes_endStatement.andThen fun _ => .pure here
  case branch =>
    apply expressions.expression.bind
    intro condition first
    apply finds.block.bind
    intro body second
    apply finds.branches.bind
    intro (clauses, otherwise) others
    apply Keeps.pure
    simp only [List.forall_mem_append] at others
    simp only [Statement.mentions, Statement.clauseMentions, List.forall_mem_append]
    exact ⟨⟨⟨first, second⟩, others.1⟩, others.2⟩
  case otherwise => exact .fail
  case forEach =>
    apply (passes_loopNames n).andThen
    intro names
    apply (passes_expectWord "in").andThen
    intro _
    apply expressions.expression.bind
    intro items here
    exact finds_before_block finds here fun _ => rfl
  case forRange =>
    apply passes_expectVariable.andThen
    intro name
    apply (passes_expectWord "from").andThen
    intro _
    apply expressions.expression.stoppingAt.bind
    intro first here
    apply passes_rangeWord.andThen
    intro inclusive
    apply expressions.expression.bind
    intro last second
    exact finds_before_block finds (List.forall_mem_append.2 ⟨here, second⟩) fun _ => rfl
  case whileTrue =>
    apply expressions.expression.bind
    intro condition here
    exact finds_before_block finds here fun _ => rfl
  case tells => exact fun kind => finds.message kind pos
  case unsupported =>
    apply (expressions.rawTemplate false [';', '{', '}']).passes.andThen
    intro _
    exact finds.optionalBlock.passes.andThen fun _ => .pure known_nil
  case media =>
    apply passes_skipTrivia.andThen
    intro _
    apply (expressions.rawTemplate true ['{', ';']).bind
    intro query here
    rw [← Template.mentions_trimEnd] at here
    exact finds_before_block finds here fun _ => rfl
  case other =>
    apply passes_skipTrivia.andThen
    intro _
    apply (expressions.rawTemplate false ['{', ';', '}']).bind
    intro parameters here
    rw [← Template.mentions_trimEnd] at here
    exact finds_before_optionalBlock finds here fun _ => rfl

theorem findsStatements (supply : Supply) (n : Nat) : FindsStatements supply n := by
  induction n with
  | zero =>
    exact ⟨fun _ => .giveUp, .giveUp, .giveUp, fun _ => .giveUp, fun _ => .giveUp, fun _ _ => .giveUp,
      fun _ _ => .giveUp, .giveUp, .giveUp⟩
  | succ n shallower =>
    exact {
      statements := finds_statements shallower
      block := finds_block shallower
      optionalBlock := finds_optionalBlock shallower
      rule := finds_rule shallower
      declaration := finds_declaration shallower
      directive := finds_directive shallower
      message := finds_message n
      callable := finds_callable shallower
      branches := finds_branches shallower }

end Grammar

end Stylesheet
