import Stylesheet.Proofs.MentionReading

/-! Progress of the parsers. A parser takes tokens from the front and leaves the others, so what is left stands behind
what has been taken. Each parser is given the number of tokens that it takes at least where it succeeds; an expression
takes one, and so do a block, a rule and a declaration. -/

namespace Stylesheet.Grammar

variable {α β : Type} {token : Token} {tokens left rest : List Token} {a b least : Nat}

/-- The tokens that are left when at least `least` of them have been taken from the front. -/
def Behind (least : Nat) (tokens left : List Token) : Prop := ∃ taken, least ≤ taken.length ∧ taken ++ left = tokens

theorem Behind.refl : Behind 0 tokens tokens := ⟨[], Nat.le_refl 0, rfl⟩

theorem Behind.trans (first : Behind a tokens left) (second : Behind b left rest) (enough : least ≤ a + b) :
    Behind least tokens rest := by
  obtain ⟨taken, long, rfl⟩ := first
  obtain ⟨more, long', rfl⟩ := second
  refine ⟨taken ++ more, ?_, List.append_assoc _ _ _⟩
  rw [List.length_append]
  omega

theorem Behind.mono (behind : Behind a tokens left) (less : least ≤ a) : Behind least tokens left :=
  behind.trans .refl less

theorem Behind.length_le (behind : Behind least tokens left) : left.length + least ≤ tokens.length := by
  obtain ⟨taken, long, rfl⟩ := behind
  rw [List.length_append]
  omega

theorem behind_cons : Behind 1 (token :: rest) rest := ⟨[token], Nat.le_refl 1, rfl⟩

theorem behind_dropWhile (p : Token → Bool) (tokens : List Token) : Behind 0 tokens (tokens.dropWhile p) :=
  ⟨tokens.takeWhile p, Nat.zero_le _, List.takeWhile_append_dropWhile⟩

theorem behind_significant (tokens : List Token) : Behind 0 tokens (significant tokens) := behind_dropWhile _ tokens

theorem behind_drop (count : Nat) (tokens : List Token) : Behind 0 tokens ((significant tokens).drop count) :=
  (behind_significant tokens).trans ⟨_, Nat.zero_le _, List.take_append_drop count _⟩ (Nat.zero_le _)

theorem behind_of_significant (starts : significant tokens = token :: rest) : Behind 1 tokens rest := by
  have behind := behind_significant tokens
  rw [starts] at behind
  exact behind.trans behind_cons (Nat.le_refl 1)

theorem behind_of_startsMark {c : Char} (starts : startsMark tokens c = true) :
    Behind 1 tokens ((significant tokens).drop 1) := by
  cases known : significant tokens with
  | nil =>
    rw [startsMark, known] at starts
    cases starts
  | cons token rest => exact behind_of_significant known

theorem eatMark_bind_apply (c : Char) (next : Bool → Parse β) (context : Context) (tokens : List Token) :
    (eatMark c >>= next) context tokens =
      if startsMark tokens c then next true context ((significant tokens).drop 1) else next false context tokens := by
  change ((if startsMark tokens c then (do advance; return true) else return false : Parse Bool) >>= next) context
    tokens = _
  cases startsMark tokens c <;> rfl

/-- Where a parser succeeds, it takes at least so many tokens. -/
def Takes (tokens : List Token) (least : Nat) (parse : Parse α) : Prop :=
  ∀ context value left, parse context tokens = .ok (value, left) → Behind least tokens left

namespace Takes

variable {parse : Parse α} {next : α → Parse β}

theorem pure {value : α} : Takes tokens 0 (pure value) := by
  intro context value left run
  cases run
  exact .refl

theorem giveUp : Takes tokens least (giveUp : Parse α) := by
  intro context value left run
  cases run

theorem fail {expected : Expectation} : Takes tokens least (fail expected : Parse α) := by
  intro context value left run
  cases run

theorem mono (takes : Takes tokens a parse) (less : least ≤ a) : Takes tokens least parse :=
  fun context value left run => (takes context value left run).mono less

theorem bind (takes : Takes tokens a parse)
    (later : ∀ value left, Takes left (least - a) (next value)) : Takes tokens least (parse >>= next) := by
  intro context value left run
  obtain ⟨middle, between, parsed, run⟩ := bind_eq_ok run
  have first := takes context middle between parsed
  exact first.trans (later middle between context value left run) (by omega)

theorem map {f : α → β} (takes : Takes tokens least parse) : Takes tokens least (f <$> parse) := by
  rw [map_eq_pure_bind]
  refine takes.bind fun value left => ?_
  rw [Nat.sub_self]
  exact pure

theorem stoppingAt {stops : List String} (takes : Takes tokens least parse) :
    Takes tokens least (stoppingAt stops parse) :=
  fun context => takes { context with stops }

theorem get_bind {next : List Token → Parse β} (later : Takes tokens least (next tokens)) :
    Takes tokens least (get >>= next) := later

theorem peek_bind {next : Option Token → Parse β} (later : Takes tokens least (next (significant tokens).head?)) :
    Takes tokens least (peek >>= next) := later

theorem modify_bind {f : List Token → List Token} {next : PUnit → Parse β} (behind : Behind a tokens (f tokens))
    (later : Takes (f tokens) (least - a) (next ⟨⟩)) : Takes tokens least (modify f >>= next) :=
  fun context value left run => behind.trans (later context value left run) (by omega)

theorem set_bind {next : PUnit → Parse β} (behind : Behind a tokens left)
    (later : Takes left (least - a) (next ⟨⟩)) : Takes tokens least (set left >>= next) :=
  fun context value left run => behind.trans (later context value left run) (by omega)

theorem advance_bind {next : PUnit → Parse β} (starts : significant tokens = token :: rest)
    (later : Takes rest (least - 1) (next ⟨⟩)) : Takes tokens least (advance >>= next) := by
  refine modify_bind (a := 1) ?_ ?_
  · rw [starts]
    exact behind_of_significant starts
  · rwa [starts, List.drop_succ_cons, List.drop_zero]

/-- What comes behind a mark has one token less if the mark is there. -/
theorem eatMark_bind {c : Char} {next : Bool → Parse β}
    (taken : ∀ left, Takes left (least - 1) (next true)) (other : Takes tokens least (next false)) :
    Takes tokens least (eatMark c >>= next) := by
  intro context value left run
  rw [eatMark_bind_apply] at run
  split at run
  · next starts =>
    have behind := behind_of_startsMark starts
    exact behind.trans (taken _ context value left run) (by omega)
  · exact other context value left run

end Takes

/-! Steps -/

theorem takes_skipTrivia : Takes tokens 0 skipTrivia := by
  intro context value left run
  cases run
  exact behind_significant tokens

theorem takes_skipBlank : Takes tokens 0 skipBlank := by
  intro context value left run
  cases run
  exact behind_dropWhile _ tokens

theorem takes_advance : Takes tokens 0 advance := by
  intro context value left run
  cases run
  exact behind_drop 1 tokens

theorem takes_peek : Takes tokens 0 peek := .peek_bind .pure

theorem takes_atMark (c : Char) : Takes tokens 0 (atMark c) := .get_bind .pure

theorem takes_atWord (word : String) : Takes tokens 0 (atWord word) := .peek_bind .pure

theorem takes_atExpressionEnd : Takes tokens 0 atExpressionEnd := by
  intro context value left run
  cases run
  exact .refl

theorem takes_expectMark (c : Char) : Takes tokens 1 (expectMark c) := .eatMark_bind (fun _ => .pure) .fail

theorem takes_closing (c : Char) (value : α) : Takes tokens 1 (do expectMark c; return value) :=
  (takes_expectMark c).bind fun _ _ => .pure

theorem takes_expectWord (word : String) : Takes tokens 0 (expectWord word) := by
  refine (takes_atWord word).bind fun starts left => ?_
  split
  · exact takes_advance
  · exact .fail

theorem takes_rangeWord : Takes tokens 0 rangeWord := by
  refine (takes_atWord "through").bind fun through left => ?_
  split
  · exact takes_advance.bind fun _ _ => .pure
  · refine (takes_atWord "to").bind fun upTo left => ?_
    split
    · exact takes_advance.bind fun _ _ => .pure
    · exact .fail

theorem takes_expectName : Takes tokens 0 expectName := by
  refine takes_peek.bind fun token? left => ?_
  split
  · exact takes_advance.bind fun _ _ => .pure
  · exact .fail

theorem takes_expectVariable : Takes tokens 1 expectVariable := by
  apply Takes.peek_bind
  cases starts : significant tokens with
  | nil => exact .fail
  | cons token rest =>
    dsimp only [List.head?_cons, Option.map_some]
    split
    · exact .advance_bind starts .pure
    · exact .fail

theorem takes_endStatement : Takes tokens 0 endStatement := by
  refine .eatMark_bind (fun _ => .pure) ?_
  refine takes_peek.bind fun token? left => ?_
  split
  · split
    · exact .pure
    · exact .fail
  · exact .pure

theorem takes_eatSpread : Takes tokens 0 eatSpread := by
  apply Takes.get_bind
  split
  · exact .modify_bind (behind_drop 3 tokens) .pure
  · exact .pure

/-! Expressions -/

/-- How many tokens the parsers of expressions take at least. -/
structure TakesExpressions (n : Nat) : Prop where
  expression : ∀ tokens, Takes tokens 1 (Grammar.expression n)
  commaItems : ∀ atEnd tokens, (∀ tokens, Takes tokens 0 atEnd) → Takes tokens 0 (Grammar.commaItems n atEnd)
  spaceList : ∀ tokens, Takes tokens 1 (Grammar.spaceList n)
  spaceItems : ∀ tokens, Takes tokens 0 (Grammar.spaceItems n)
  operation : ∀ level tokens, Takes tokens 1 (Grammar.operation n level)
  operationsOn : ∀ level left tokens, Takes tokens 0 (Grammar.operationsOn n level left)
  operand : ∀ tokens, Takes tokens 1 (Grammar.operand n)
  primary : ∀ token rest tokens, significant tokens = token :: rest → Takes tokens 1 (Grammar.primary n token)
  parenthesized : ∀ pos tokens, Takes tokens 0 (Grammar.parenthesized n pos)
  mapEntries : ∀ tokens, Takes tokens 0 (Grammar.mapEntries n)
  bracketed : ∀ tokens, Takes tokens 0 (Grammar.bracketed n)
  word : ∀ name pos tokens, Takes tokens 0 (Grammar.word n name pos)
  bareWord : ∀ tokens, Takes tokens 0 (Grammar.bareWord n)
  bareCode : ∀ token rest, token.kind = .interpolation → Takes (token :: rest) 1 (Grammar.bareWord n)
  verbatimCall : ∀ name tokens, Takes tokens 0 (Grammar.verbatimCall n name)
  argumentList : ∀ tokens, Takes tokens 0 (Grammar.argumentList n)
  moreArguments : ∀ tokens, Takes tokens 0 (Grammar.moreArguments n)
  interpolationBody : ∀ tokens, Takes tokens 0 (Grammar.interpolationBody n)
  rawTemplate : ∀ withVariables ends tokens, Takes tokens 0 (Grammar.rawTemplate n withVariables ends)
  rawPieces : ∀ withVariables ends depth started tokens,
    Takes tokens 0 (Grammar.rawPieces n withVariables ends depth started)

variable {n : Nat}

/-- A text that is enclosed by a token is parsed from tokens of its own. -/
theorem takes_textTemplate (n : Nat) (pos : Position) (cs : List Char) :
    Takes tokens 0 (Grammar.textTemplate n pos cs) := by
  intro context value left run
  rw [left_of_textTemplate run]
  exact .refl

theorem takes_expression (takes : TakesExpressions n) : Takes tokens 1 (Grammar.expression (n + 1)) := by
  rw [Grammar.expression]
  refine (takes.spaceList tokens).bind fun first left => ?_
  refine (takes_atMark ',').bind fun more left => ?_
  split
  · exact (takes.commaItems _ left fun _ => takes_atExpressionEnd).bind fun _ _ => .pure
  · exact .pure

theorem takes_commaItems (takes : TakesExpressions n) {atEnd : Parse Bool} (looks : ∀ tokens, Takes tokens 0 atEnd) :
    Takes tokens 0 (Grammar.commaItems (n + 1) atEnd) := by
  rw [Grammar.commaItems]
  refine .eatMark_bind (fun left => ?_) .pure
  refine (looks left).bind fun ended left => ?_
  split
  · exact .pure
  · refine ((takes.spaceList left).mono (Nat.zero_le 1)).bind fun item left => ?_
    exact (takes.commaItems atEnd left looks).bind fun _ _ => .pure

theorem takes_spaceList (takes : TakesExpressions n) : Takes tokens 1 (Grammar.spaceList (n + 1)) := by
  rw [Grammar.spaceList]
  refine takes_atExpressionEnd.bind fun ended left => ?_
  split
  · exact .fail
  · refine (takes.operation 0 left).bind fun first left => ?_
    exact (takes.spaceItems left).bind fun _ _ => .pure

theorem takes_spaceItems (takes : TakesExpressions n) : Takes tokens 0 (Grammar.spaceItems (n + 1)) := by
  rw [Grammar.spaceItems]
  refine takes_atExpressionEnd.bind fun ended left => ?_
  apply Takes.get_bind
  split
  · exact .pure
  · refine ((takes.operation 0 left).mono (Nat.zero_le 1)).bind fun item left => ?_
    exact (takes.spaceItems left).bind fun _ _ => .pure

theorem takes_operation (takes : TakesExpressions n) (level : Nat) :
    Takes tokens 1 (Grammar.operation (n + 1) level) := by
  rw [Grammar.operation]
  split
  · refine (takes.operation (level + 1) tokens).bind fun operand left => ?_
    exact takes.operationsOn level operand left
  · exact takes.operand tokens

theorem behind_of_operatorAt? {level : Nat} {op : BinaryOp} {pos : Position}
    (found : operatorAt? level tokens = some (op, pos, rest)) : Behind 1 tokens rest := by
  unfold operatorAt? at found
  split at found
  · next token behind starts =>
    split at found
    · split at found
      · cases found
      · split at found
        · cases found
        · cases found
          exact behind_of_significant starts
    · cases found
  · cases found

theorem takes_operationsOn (takes : TakesExpressions n) (level : Nat) (operand : Expr) :
    Takes tokens 0 (Grammar.operationsOn (n + 1) level operand) := by
  rw [Grammar.operationsOn]
  apply Takes.get_bind
  split
  · next op pos rest found =>
    refine .set_bind (behind_of_operatorAt? found) ?_
    refine ((takes.operation (level + 1) rest).mono (Nat.zero_le 1)).bind fun right left => ?_
    exact takes.operationsOn level _ left
  · exact .pure

theorem takes_operand (takes : TakesExpressions n) : Takes tokens 1 (Grammar.operand (n + 1)) := by
  rw [Grammar.operand]
  apply Takes.peek_bind
  cases starts : significant tokens with
  | nil => exact .fail
  | cons token rest =>
    dsimp only [List.head?_cons]
    split
    · refine .advance_bind starts ?_
      exact ((takes.operand rest).mono (Nat.zero_le 1)).bind fun _ _ => .pure
    · exact takes.primary token rest tokens starts

theorem takes_primary (takes : TakesExpressions n) (starts : significant tokens = token :: rest) :
    Takes tokens 1 (Grammar.primary (n + 1) token) := by
  apply primary_cases token (motive := fun parse => Takes tokens 1 (parse n))
  case number | hash | named | parent =>
    intros
    exact .advance_bind starts .pure
  case quoted =>
    intro contents quote _
    exact .advance_bind starts ((takes_textTemplate n _ contents.toList).bind fun _ _ => .pure)
  case address =>
    intro contents _
    exact .advance_bind starts ((takes_textTemplate n _ contents.toList).bind fun _ _ => .pure)
  case parenthesis => exact .advance_bind starts (takes.parenthesized token.pos rest).stoppingAt
  case bracket => exact .advance_bind starts (takes.bracketed rest).stoppingAt
  case identifier => exact fun name _ => .advance_bind starts (takes.word name token.pos rest)
  case code =>
    intro kind
    refine .modify_bind (behind_significant tokens) ?_
    rw [starts]
    exact (takes.bareCode token rest kind).bind fun _ _ => .pure
  case other => exact .fail

theorem takes_parenthesized (takes : TakesExpressions n) (pos : Position) :
    Takes tokens 0 (Grammar.parenthesized (n + 1) pos) := by
  have closing {left : List Token} (value : Expr) : Takes left 0 (do expectMark ')'; return value) :=
    (takes_closing ')' value).mono (Nat.zero_le 1)
  have list {left : List Token} : Takes left 0 (Grammar.spaceList n) := (takes.spaceList left).mono (Nat.zero_le 1)
  rw [Grammar.parenthesized]
  refine .eatMark_bind (fun _ => .pure) ?_
  refine list.bind fun first left => ?_
  refine .eatMark_bind (fun left => ?_) ?_
  · refine list.bind fun value left => ?_
    refine (takes.mapEntries left).bind fun entries left => ?_
    exact closing _
  · refine (takes_atMark ',').bind fun more left => ?_
    split
    · refine (takes.commaItems _ left fun _ => takes_atMark ')').bind fun items left => ?_
      exact closing _
    · exact closing _

theorem takes_mapEntries (takes : TakesExpressions n) : Takes tokens 0 (Grammar.mapEntries (n + 1)) := by
  have list {left : List Token} : Takes left 0 (Grammar.spaceList n) := (takes.spaceList left).mono (Nat.zero_le 1)
  rw [Grammar.mapEntries]
  refine .eatMark_bind (fun left => ?_) .pure
  refine (takes_atMark ')').bind fun ended left => ?_
  split
  · exact .pure
  · refine list.bind fun key left => ?_
    refine (takes_expectMark ':').bind fun _ left => ?_
    refine list.bind fun value left => ?_
    exact (takes.mapEntries left).bind fun _ _ => .pure

theorem takes_bracketed (takes : TakesExpressions n) : Takes tokens 0 (Grammar.bracketed (n + 1)) := by
  rw [Grammar.bracketed]
  refine (takes_atMark ']').bind fun empty left => ?_
  split
  · exact (takes_closing ']' _).mono (Nat.zero_le 1)
  · refine (takes.expression left).map.bind fun inner left => ?_
    exact (takes_closing ']' _).mono (Nat.zero_le 1)

theorem takes_word (takes : TakesExpressions n) (name : String) (pos : Position) :
    Takes tokens 0 (Grammar.word (n + 1) name pos) := by
  rw [Grammar.word]
  apply Takes.get_bind
  cases tokens with
  | nil => exact .pure
  | cons token rest =>
    dsimp only
    split
    · refine .set_bind behind_cons ?_
      split
      · exact takes.verbatimCall name rest
      · exact (takes.argumentList rest).stoppingAt.bind fun _ _ => .pure
    · split
      · exact (takes.bareWord (token :: rest)).bind fun _ _ => .pure
      · exact .pure

theorem takes_bareCode (takes : TakesExpressions n) (kind : token.kind = .interpolation) :
    Takes (token :: rest) 1 (Grammar.bareWord (n + 1)) := by
  rw [Grammar.bareWord]
  apply Takes.get_bind
  simp only [kind]
  refine .set_bind behind_cons ?_
  refine (takes.interpolationBody rest).bind fun code left => ?_
  exact (takes.bareWord left).bind fun _ _ => .pure

theorem takes_bareWord (takes : TakesExpressions n) : Takes tokens 0 (Grammar.bareWord (n + 1)) := by
  rw [Grammar.bareWord]
  apply Takes.get_bind
  cases tokens with
  | nil => exact .pure
  | cons token rest =>
    have join (s : String) : Takes (token :: rest) 0 (do set rest; return Template.consText s (← Grammar.bareWord n)) :=
      .set_bind behind_cons ((takes.bareWord rest).bind fun _ _ => .pure)
    dsimp only
    split
    · exact join token.text
    · exact join token.text
    · refine .set_bind behind_cons ?_
      refine (takes.interpolationBody rest).bind fun code left => ?_
      exact (takes.bareWord left).bind fun _ _ => .pure
    · split
      · exact join "-"
      · exact .pure
    · exact .pure

theorem takes_verbatimCall (takes : TakesExpressions n) (name : String) :
    Takes tokens 0 (Grammar.verbatimCall (n + 1) name) := by
  rw [Grammar.verbatimCall]
  refine (takes.rawTemplate false [')'] tokens).bind fun inner left => ?_
  apply Takes.get_bind
  cases left with
  | nil => exact .fail
  | cons token rest => exact .set_bind behind_cons .pure

theorem takes_argumentList (takes : TakesExpressions n) : Takes tokens 0 (Grammar.argumentList (n + 1)) := by
  have list {left : List Token} : Takes left 0 (Grammar.spaceList n) := (takes.spaceList left).mono (Nat.zero_le 1)
  rw [Grammar.argumentList]
  refine .eatMark_bind (fun _ => .pure) ?_
  apply Takes.get_bind
  split
  · refine takes_advance.bind fun _ left => ?_
    refine (takes_expectMark ':').bind fun _ left => ?_
    refine list.bind fun value left => ?_
    exact (takes.moreArguments left).bind fun _ _ => .pure
  · refine list.bind fun value left => ?_
    refine takes_eatSpread.bind fun spread left => ?_
    split
    · exact (takes.moreArguments left).bind fun _ _ => .pure
    · exact (takes.moreArguments left).bind fun _ _ => .pure

theorem takes_moreArguments (takes : TakesExpressions n) : Takes tokens 0 (Grammar.moreArguments (n + 1)) := by
  rw [Grammar.moreArguments]
  refine .eatMark_bind (fun left => takes.argumentList left) ?_
  exact (takes_closing ')' _).mono (Nat.zero_le 1)

theorem takes_interpolationBody (takes : TakesExpressions n) :
    Takes tokens 0 (Grammar.interpolationBody (n + 1)) := by
  rw [Grammar.interpolationBody]
  refine (takes.expression tokens).stoppingAt.bind fun code left => ?_
  exact (takes_closing '}' _).mono (Nat.zero_le 1)

theorem takes_rawTemplate (takes : TakesExpressions n) (withVariables : Bool) (ends : List Char) :
    Takes tokens 0 (Grammar.rawTemplate (n + 1) withVariables ends) := by
  rw [Grammar.rawTemplate]
  exact (takes.rawPieces withVariables ends 0 false tokens).bind fun _ _ => .pure

theorem takes_rawPieces (takes : TakesExpressions n) (withVariables : Bool) (ends : List Char) (depth : Nat)
    (started : Bool) : Takes tokens 0 (Grammar.rawPieces (n + 1) withVariables ends depth started) := by
  rw [Grammar.rawPieces]
  apply Takes.get_bind
  cases tokens with
  | nil => exact .pure
  | cons token rest =>
    have later (depth : Nat) (started : Bool) (left : List Token) :=
      takes.rawPieces withVariables ends depth started left
    dsimp only
    split
    · exact .pure
    refine .set_bind behind_cons ?_
    cases token.kind with
    | interpolation =>
      refine (takes.interpolationBody rest).bind fun code left => ?_
      exact (later depth true left).bind fun _ _ => .pure
    | «variable» => exact (later depth true rest).bind fun _ _ => .pure
    | quoted contents quote =>
      refine (takes_textTemplate n _ contents.toList).bind fun text left => ?_
      exact (later depth true left).bind fun _ _ => .pure
    | blank => exact (later depth started rest).bind fun _ _ => .pure
    | comment => exact later depth started rest
    | _ => exact (later _ true rest).bind fun _ _ => .pure

/-- A parser takes what the calls in it take, so the induction is on how many of them may be nested. -/
theorem takesExpressions (n : Nat) : TakesExpressions n := by
  induction n with
  | zero => constructor <;> intros <;> exact .giveUp
  | succ n shallower =>
    exact {
      expression := fun _ => takes_expression shallower
      commaItems := fun _ _ => takes_commaItems shallower
      spaceList := fun _ => takes_spaceList shallower
      spaceItems := fun _ => takes_spaceItems shallower
      operation := fun level _ => takes_operation shallower level
      operationsOn := fun level left _ => takes_operationsOn shallower level left
      operand := fun _ => takes_operand shallower
      primary := fun _ _ _ => takes_primary shallower
      parenthesized := fun pos _ => takes_parenthesized shallower pos
      mapEntries := fun _ => takes_mapEntries shallower
      bracketed := fun _ => takes_bracketed shallower
      word := fun name pos _ => takes_word shallower name pos
      bareWord := fun _ => takes_bareWord shallower
      bareCode := fun _ _ => takes_bareCode shallower
      verbatimCall := fun name _ => takes_verbatimCall shallower name
      argumentList := fun _ => takes_argumentList shallower
      moreArguments := fun _ => takes_moreArguments shallower
      interpolationBody := fun _ => takes_interpolationBody shallower
      rawTemplate := fun withVariables ends _ => takes_rawTemplate shallower withVariables ends
      rawPieces := fun withVariables ends depth started _ =>
        takes_rawPieces shallower withVariables ends depth started }

/-! Statements -/

theorem takes_loopNames (n : Nat) : Takes tokens 0 (Grammar.loopNames n) := by
  induction n generalizing tokens with
  | zero => exact .giveUp
  | succ n fewer =>
    rw [Grammar.loopNames]
    refine (takes_expectVariable.mono (Nat.zero_le 1)).bind fun name left => ?_
    exact .eatMark_bind (fun left => fewer.bind fun _ _ => .pure) .pure

theorem takes_assignmentFlags (n : Nat) (isDefault isGlobal : Bool) :
    Takes tokens 0 (Grammar.assignmentFlags n isDefault isGlobal) := by
  induction n generalizing tokens isDefault isGlobal with
  | zero => exact .giveUp
  | succ n fewer =>
    rw [Grammar.assignmentFlags]
    apply Takes.get_bind
    split
    · next bang rest starts =>
      have bangs := behind_of_significant starts
      split
      · split
        · next flag behind =>
          have both := bangs.trans behind_cons (Nat.zero_le 2)
          split
          · exact .set_bind both (fewer true isGlobal)
          · split
            · exact .set_bind both (fewer isDefault true)
            · exact .fail
        · exact .fail
      · exact .pure
    · exact .pure

theorem takes_importance : Takes tokens 0 importance := by
  apply Takes.get_bind
  split
  · next bang rest starts =>
    have bangs := behind_of_significant starts
    split
    · split
      · next flag behind =>
        split
        · exact .set_bind (bangs.trans behind_cons (Nat.zero_le 2)) .pure
        · exact .fail
      · exact .fail
    · exact .pure
  · exact .pure

theorem takes_assignment (n : Nat) (name : String) (pos : Position) :
    Takes tokens 1 (Grammar.assignment n name pos) := by
  refine (takes_expectMark ':').bind fun _ left => ?_
  refine (((takesExpressions n).expression left).mono (Nat.zero_le 1)).bind fun value left => ?_
  refine (takes_assignmentFlags n false false).bind fun flags left => ?_
  exact takes_endStatement.bind fun _ _ => .pure

theorem takes_moreParameters (fewer : ∀ left, Takes left 0 (Grammar.parameters n)) (name : String)
    (default : Option Expr) : Takes tokens 0 (moreParameters n name default) := by
  refine .eatMark_bind (fun left => ?_) ((takes_closing ')' _).mono (Nat.zero_le 1))
  exact (fewer left).bind fun _ _ => .pure

theorem takes_parameters (n : Nat) : Takes tokens 0 (Grammar.parameters n) := by
  induction n generalizing tokens with
  | zero => exact .giveUp
  | succ n fewer =>
    have behind {left : List Token} (name : String) (default : Option Expr) :
        Takes left 0 (moreParameters n name default) := takes_moreParameters (fun _ => fewer) name default
    rw [parameters_succ]
    refine .eatMark_bind (fun _ => .pure) ?_
    refine (takes_expectVariable.mono (Nat.zero_le 1)).bind fun name left => ?_
    refine takes_eatSpread.bind fun spread left => ?_
    split
    · exact (takes_closing ')' _).mono (Nat.zero_le 1)
    · refine .eatMark_bind (fun left => ?_) (behind name none)
      refine (((takesExpressions n).spaceList left).mono (Nat.zero_le 1)).map.bind fun default left => ?_
      exact behind name default

theorem behind_of_referenceAt? {reference : String} {pos : Position}
    (found : referenceAt? tokens = some (reference, pos, rest)) : Behind 1 tokens rest := by
  unfold referenceAt? at found
  split at found
  · next token behind starts =>
    split at found
    · dsimp only at found
      split at found
      · cases found
        exact behind_of_significant starts
      · cases found
    · cases found
  · cases found

theorem takes_importTargets (n : Nat) : Takes tokens 0 (Grammar.importTargets n) := by
  induction n generalizing tokens with
  | zero => exact .giveUp
  | succ n fewer =>
    rw [Grammar.importTargets]
    apply Takes.get_bind
    split
    · next reference pos rest found =>
      refine .set_bind (behind_of_referenceAt? found) ?_
      exact .eatMark_bind (fun left => fewer.bind fun _ _ => .pure) .pure
    · refine takes_peek.bind fun token? left => ?_
      split
      · exact .fail
      · exact ((takesExpressions n).rawTemplate false [';', '}'] left).bind fun _ _ => .pure

/-- How many tokens the parsers of statements take at least. -/
structure TakesStatements (n : Nat) : Prop where
  statements : ∀ inBlock tokens, Takes tokens 0 (Grammar.statements n inBlock)
  block : ∀ tokens, Takes tokens 1 (Grammar.block n)
  optionalBlock : ∀ tokens, Takes tokens 0 (Grammar.optionalBlock n)
  rule : ∀ pos tokens, Takes tokens 1 (Grammar.rule n pos)
  declaration : ∀ pos tokens, Takes tokens 1 (Grammar.declaration n pos)
  directive : ∀ name pos tokens, Takes tokens 0 (Grammar.directive n name pos)
  message : ∀ kind pos tokens, Takes tokens 0 (Grammar.message n kind pos)
  callable : ∀ tokens, Takes tokens 0 (Grammar.callable n)
  branches : ∀ tokens, Takes tokens 0 (Grammar.branches n)

theorem takes_statements (takes : TakesStatements n) (inBlock : Bool) :
    Takes tokens 0 (Grammar.statements (n + 1) inBlock) := by
  have behind {left : List Token} (first : Statement) :
      Takes left 0 (do return first :: (← Grammar.statements n inBlock)) :=
    (takes.statements inBlock left).bind fun _ _ => .pure
  rw [Grammar.statements]
  refine takes_skipBlank.bind fun _ left => ?_
  apply Takes.get_bind
  cases left with
  | nil =>
    dsimp only
    split
    · exact .fail
    · exact .pure
  | cons token rest =>
    dsimp only
    split
    · exact .set_bind behind_cons (behind _)
    · split
      · exact .set_bind behind_cons .pure
      · exact .fail
    · exact .set_bind behind_cons (takes.statements inBlock rest)
    · refine .set_bind behind_cons ?_
      exact (takes.directive _ token.pos rest).bind fun first left => behind first
    · split
      · refine .set_bind behind_cons ?_
        exact (takes_assignment n _ token.pos).bind fun first left => behind first
      · exact (takes.rule token.pos _).bind fun first left => behind first
    · split
      · exact (takes.declaration token.pos _).bind fun first left => behind first
      · exact (takes.rule token.pos _).bind fun first left => behind first

theorem takes_block (takes : TakesStatements n) : Takes tokens 1 (Grammar.block (n + 1)) := by
  rw [Grammar.block]
  exact (takes_expectMark '{').bind fun _ left => takes.statements true left

theorem takes_optionalBlock (takes : TakesStatements n) : Takes tokens 0 (Grammar.optionalBlock (n + 1)) := by
  rw [Grammar.optionalBlock]
  refine (takes_atMark '{').bind fun opens left => ?_
  split
  · exact ((takes.block left).mono (Nat.zero_le 1)).map
  · exact takes_endStatement.bind fun _ _ => .pure

theorem takes_rule (takes : TakesStatements n) (pos : Position) : Takes tokens 1 (Grammar.rule (n + 1) pos) := by
  rw [Grammar.rule]
  refine ((takesExpressions n).rawTemplate _ _ tokens).bind fun selector left => ?_
  refine (takes_atMark '{').bind fun opens left => ?_
  split
  · exact .fail
  · exact (takes.block left).bind fun _ _ => .pure

theorem takes_declaration (takes : TakesStatements n) (pos : Position) :
    Takes tokens 1 (Grammar.declaration (n + 1) pos) := by
  rw [Grammar.declaration]
  refine ((takesExpressions n).rawTemplate _ _ tokens).bind fun property left => ?_
  refine (takes_expectMark ':').bind fun _ left => ?_
  dsimp only
  split
  · refine takes_skipTrivia.bind fun _ left => ?_
    refine ((takesExpressions n).rawTemplate _ _ left).bind fun text left => ?_
    exact takes_endStatement.bind fun _ _ => .pure
  · have behind (value : Option Expr) {left : List Token} :
        Takes left 0
          (do
            let important ← importance
            if ← atMark '{' then
              return Statement.declaration pos (Template.trimEnd property) value important (← Grammar.block n)
            else if value.isNone then fail .expression
            else
              endStatement
              return .declaration pos (Template.trimEnd property) value important []) := by
      refine takes_importance.bind fun important left => ?_
      refine (takes_atMark '{').bind fun opens left => ?_
      split
      · exact ((takes.block left).mono (Nat.zero_le 1)).bind fun _ _ => .pure
      · split
        · exact .fail
        · exact takes_endStatement.bind fun _ _ => .pure
    refine (takes_atMark '{').bind fun opens left => ?_
    split
    · exact behind none
    · refine (((takesExpressions n).expression left).mono (Nat.zero_le 1)).map.bind fun value left => ?_
      exact behind value

theorem takes_message (n : Nat) (kind : MessageKind) (pos : Position) :
    Takes tokens 0 (Grammar.message (n + 1) kind pos) := by
  rw [Grammar.message]
  refine (((takesExpressions n).expression tokens).mono (Nat.zero_le 1)).bind fun value left => ?_
  exact takes_endStatement.bind fun _ _ => .pure

theorem takes_callable (takes : TakesStatements n) : Takes tokens 0 (Grammar.callable (n + 1)) := by
  have behind (name : String) (parameters : List Parameter) (rest : Option String) {left : List Token} :
      Takes left 0
        (do
          let body ← Grammar.block n
          return { name, parameters, rest, body, file := (← read).file : Callable Statement }) := by
    refine ((takes.block left).mono (Nat.zero_le 1)).bind fun body left => ?_
    intro context value left run
    cases run
    exact .refl
  rw [Grammar.callable]
  refine takes_expectName.bind fun name left => ?_
  refine .eatMark_bind (fun left => ?_) (behind name [] none)
  refine (takes_parameters n).bind fun given left => ?_
  obtain ⟨parameters, rest⟩ := given
  exact behind name parameters rest

theorem behind_of_elseAt? {condition : Bool} (found : elseAt? tokens = some (condition, rest)) :
    Behind 1 tokens rest := by
  unfold elseAt? at found
  split at found
  · next token behind starts =>
    have first := behind_of_significant starts
    split at found
    · split at found
      · cases found
        exact first
      · split at found
        · split at found
          · next second last follows =>
            split at found
            · cases found
              exact first.trans (behind_of_significant follows) (by decide)
            · cases found
              exact first
          · cases found
            exact first
        · cases found
    · cases found
  · cases found

theorem takes_branches (takes : TakesStatements n) : Takes tokens 0 (Grammar.branches (n + 1)) := by
  rw [Grammar.branches]
  apply Takes.get_bind
  split
  · next rest found =>
    refine .set_bind (behind_of_elseAt? found) ?_
    refine (((takesExpressions n).expression rest).mono (Nat.zero_le 1)).bind fun condition left => ?_
    refine ((takes.block left).mono (Nat.zero_le 1)).bind fun body left => ?_
    exact (takes.branches left).bind fun _ _ => .pure
  · next rest found =>
    refine .set_bind (behind_of_elseAt? found) ?_
    exact ((takes.block rest).mono (Nat.zero_le 1)).bind fun _ _ => .pure
  · exact .pure

theorem takes_directive (takes : TakesStatements n) (name : String) (pos : Position) :
    Takes tokens 0 (Grammar.directive (n + 1) name pos) := by
  have expressions := takesExpressions n
  have expression {left : List Token} : Takes left 0 (Grammar.expression n) :=
    (expressions.expression left).mono (Nat.zero_le 1)
  have block (statement : List Statement → Statement) {left : List Token} :
      Takes left 0 (do return statement (← Grammar.block n)) :=
    ((takes.block left).mono (Nat.zero_le 1)).bind fun _ _ => .pure
  have optional (statement : Option (List Statement) → Statement) {left : List Token} :
      Takes left 0 (do return statement (← Grammar.optionalBlock n)) :=
    (takes.optionalBlock left).bind fun _ _ => .pure
  apply directive_cases name pos (motive := fun parse => Takes tokens 0 (parse n))
  case imports =>
    refine (takes_importTargets n).bind fun targets left => ?_
    exact takes_endStatement.bind fun _ _ => .pure
  case mixin | function => exact (takes.callable tokens).bind fun _ _ => .pure
  case inclusion =>
    refine takes_expectName.bind fun mixin left => ?_
    refine .eatMark_bind (fun left => ?_) (optional _)
    exact (expressions.argumentList left).stoppingAt.bind fun arguments left => optional _
  case content =>
    refine (takes_atMark '(').bind fun opens left => ?_
    split
    · refine (expressions.argumentList left).stoppingAt.bind fun arguments left => ?_
      exact takes_endStatement.bind fun _ _ => .pure
    · exact takes_endStatement.bind fun _ _ => .pure
  case result =>
    refine expression.bind fun value left => ?_
    exact takes_endStatement.bind fun _ _ => .pure
  case branch =>
    refine expression.bind fun condition left => ?_
    refine ((takes.block left).mono (Nat.zero_le 1)).bind fun body left => ?_
    exact (takes.branches left).bind fun _ _ => .pure
  case otherwise => exact .fail
  case forEach =>
    refine (takes_loopNames n).bind fun names left => ?_
    refine (takes_expectWord "in").bind fun _ left => ?_
    exact expression.bind fun items left => block _
  case forRange =>
    refine (takes_expectVariable.mono (Nat.zero_le 1)).bind fun name left => ?_
    refine (takes_expectWord "from").bind fun _ left => ?_
    refine expression.stoppingAt.bind fun first left => ?_
    refine takes_rangeWord.bind fun inclusive left => ?_
    exact expression.bind fun last left => block _
  case whileTrue => exact expression.bind fun condition left => block _
  case tells => exact fun kind => takes.message kind pos tokens
  case unsupported =>
    refine (expressions.rawTemplate _ _ tokens).bind fun _ left => ?_
    exact (takes.optionalBlock left).bind fun _ _ => .pure
  case media =>
    refine takes_skipTrivia.bind fun _ left => ?_
    exact (expressions.rawTemplate _ _ left).bind fun query left => block _
  case other =>
    refine takes_skipTrivia.bind fun _ left => ?_
    exact (expressions.rawTemplate _ _ left).bind fun parameters left => optional _

theorem takesStatements (n : Nat) : TakesStatements n := by
  induction n with
  | zero => constructor <;> intros <;> exact .giveUp
  | succ n shallower =>
    exact {
      statements := fun inBlock _ => takes_statements shallower inBlock
      block := fun _ => takes_block shallower
      optionalBlock := fun _ => takes_optionalBlock shallower
      rule := fun pos _ => takes_rule shallower pos
      declaration := fun pos _ => takes_declaration shallower pos
      directive := fun name pos _ => takes_directive shallower name pos
      message := fun kind pos _ => takes_message n kind pos
      callable := fun _ => takes_callable shallower
      branches := fun _ => takes_branches shallower }

end Stylesheet.Grammar
