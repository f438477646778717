import Mathlib.Algebra.GroupWithZero.Nat
import Stylesheet.Proofs.ReadingCases
import Stylesheet.Proofs.TokenTexts

/-! The limit of the parsers is out of reach. Tokens have a weight, which is no more than the number of characters they
are read from; a string weighs enough to pay for the texts of its interpolations. Every cycle of calls takes a token, so
a multiple of the weight bounds the calls that are nested, and more of them change nothing. -/

namespace Stylesheet

/-- How many characters of its text a token stands for at least. -/
def Token.weight (token : Token) : Nat :=
  match token.kind with
  | .quoted contents _ => contents.toList.length + 2
  | .url contents => contents.toList.length + 5
  | _ => 1

theorem Token.one_le_weight (token : Token) : 1 ≤ token.weight := by
  unfold Token.weight
  split <;> omega

namespace Grammar

def weight (tokens : List Token) : Nat := (tokens.map Token.weight).sum

variable {α β : Type} {token : Token} {tokens left rest : List Token} {a b least least' : Nat}

@[simp] theorem weight_nil : weight [] = 0 := rfl

@[simp] theorem weight_cons (token : Token) (tokens : List Token) :
    weight (token :: tokens) = token.weight + weight tokens := rfl

theorem weight_dropWhile_le (p : Token → Bool) (tokens : List Token) : weight (tokens.dropWhile p) ≤ weight tokens := by
  induction tokens with
  | nil => exact Nat.le_refl 0
  | cons token rest shorter =>
    rw [List.dropWhile_cons]
    split
    · rw [weight_cons]
      omega
    · exact Nat.le_refl _

theorem weight_drop_le (count : Nat) (tokens : List Token) : weight (tokens.drop count) ≤ weight tokens := by
  induction count generalizing tokens with
  | zero => exact Nat.le_refl _
  | succ count fewer =>
    cases tokens with
    | nil => exact Nat.le_refl _
    | cons token rest =>
      have := fewer rest
      rw [List.drop_succ_cons, weight_cons]
      omega

theorem weight_significant_le (tokens : List Token) : weight (significant tokens) ≤ weight tokens :=
  weight_dropWhile_le _ tokens

theorem weight_of_significant (starts : significant tokens = token :: rest) :
    token.weight + weight rest ≤ weight tokens := by
  have := weight_significant_le tokens
  rwa [starts] at this

/-- Tokens of a text weigh no more than the text is long. -/
theorem weight_lex_le (text : String) (origin : Position) : weight (lex text origin).tokens ≤ text.toList.length := by
  have single : ∀ token ∈ (lex text origin).tokens, token.weight ≤ token.text.toList.length := by
    intro token member
    have suits := Token.scan_suits _ _ _ _ token member
    obtain ⟨before, behind, parts⟩ := List.append_of_mem member
    obtain ⟨rest, tiles⟩ := lex_tiles text origin
    have nonempty := (tiles.stands before token behind parts).nonempty
    unfold Token.weight
    split
    · next contents quote kind =>
      rw [kind] at suits
      rw [suits.2]
      simp
    · next contents kind =>
      rw [kind] at suits
      obtain ⟨front, argument, written, four, -, longer⟩ := suits
      rw [written, List.length_append]
      omega
    · have := List.length_pos_iff.2 (mt String.toList_eq_nil_iff.1 nonempty)
      omega
  obtain ⟨rest, tiles⟩ := lex_tiles text origin
  have covers := congrArg List.length tiles.covers
  have all : ∀ tokens : List Token, (∀ token ∈ tokens, token.weight ≤ token.text.toList.length) →
      weight tokens ≤ (Token.spelled tokens).length := by
    intro tokens lighter
    induction tokens with
    | nil => exact Nat.le_refl 0
    | cons token rest later =>
      have here := lighter token List.mem_cons_self
      have behind := later fun other member => lighter other (List.mem_cons_of_mem token member)
      rw [weight_cons, Token.spelled_cons, List.length_append]
      omega
  have := all _ single
  rw [List.length_append] at covers
  omega

/-- What is left where a parser succeeds weighs less by `least`; no parser fails as it meets the limit. -/
def Spends (least : Nat) (tokens : List Token) : Except ParseError (α × List Token) → Prop
  | .ok (_, left) => weight left + least ≤ weight tokens
  | .error error => error.cause ≠ .limit

theorem Spends.of_left {result : Except ParseError (α × List Token)} (spends : Spends b left result)
    (fewer : weight left + a ≤ weight tokens) (enough : least ≤ a + b) : Spends least tokens result := by
  cases result with
  | error error => exact spends
  | ok result =>
    have spends : weight result.2 + b ≤ weight left := spends
    change weight result.2 + least ≤ weight tokens
    omega

/-- Two parsers do the same on some tokens, which pay for the calls. -/
def Settles (tokens : List Token) (least : Nat) (first second : Parse α) : Prop :=
  ∀ context, first context tokens = second context tokens ∧ Spends least tokens (first context tokens)

namespace Settles

variable {first second : Parse α} {next next' : α → Parse β}

theorem pure {value : α} : Settles tokens 0 (pure value) (pure value) :=
  fun _ => ⟨rfl, Nat.le_refl _⟩

theorem fail {expected : Expectation} : Settles tokens least (fail expected : Parse α) (fail expected) := by
  intro context
  refine ⟨rfl, ?_⟩
  change (errorAt context expected tokens).cause ≠ .limit
  unfold errorAt
  split <;> exact nofun

theorem mono (settles : Settles tokens least first second) (less : least' ≤ least) :
    Settles tokens least' first second := by
  intro context
  obtain ⟨same, spends⟩ := settles context
  exact ⟨same, spends.of_left (a := 0) (Nat.le_refl _) (by omega)⟩

theorem bind (settles : Settles tokens a first second)
    (rest : ∀ value left, weight left + a ≤ weight tokens → Settles left (least - a) (next value) (next' value)) :
    Settles tokens least (first >>= next) (second >>= next') := by
  intro context
  obtain ⟨same, spends⟩ := settles context
  have step : (first >>= next) context tokens =
      (first context tokens >>= fun (value, left) => next value context left) := rfl
  have step' : (second >>= next') context tokens =
      (second context tokens >>= fun (value, left) => next' value context left) := rfl
  rw [step, step', ← same]
  cases run : first context tokens with
  | error error =>
    rw [run] at spends
    exact ⟨rfl, spends⟩
  | ok result =>
    obtain ⟨value, left⟩ := result
    rw [run] at spends
    obtain ⟨same', spends'⟩ := rest value left spends context
    exact ⟨same', spends'.of_left spends (by omega)⟩

theorem map {f : α → β} (settles : Settles tokens least first second) :
    Settles tokens least (f <$> first) (f <$> second) := by
  rw [map_eq_pure_bind, map_eq_pure_bind]
  refine settles.bind fun value left _ => ?_
  rw [Nat.sub_self]
  exact pure

theorem stoppingAt {stops : List String} (settles : Settles tokens least first second) :
    Settles tokens least (stoppingAt stops first) (stoppingAt stops second) :=
  fun context => settles { context with stops }

theorem get_bind {next next' : List Token → Parse β} (rest : Settles tokens least (next tokens) (next' tokens)) :
    Settles tokens least (get >>= next) (get >>= next') := rest

theorem peek_bind {next next' : Option Token → Parse β}
    (rest : Settles tokens least (next (significant tokens).head?) (next' (significant tokens).head?)) :
    Settles tokens least (peek >>= next) (peek >>= next') := rest

theorem modify_bind {f : List Token → List Token} {next next' : PUnit → Parse β}
    (fewer : weight (f tokens) + a ≤ weight tokens) (rest : Settles (f tokens) (least - a) (next ⟨⟩) (next' ⟨⟩)) :
    Settles tokens least (modify f >>= next) (modify f >>= next') := by
  intro context
  obtain ⟨same, spends⟩ := rest context
  exact ⟨same, spends.of_left fewer (by omega)⟩

theorem set_bind {next next' : PUnit → Parse β} (fewer : weight left + a ≤ weight tokens)
    (rest : Settles left (least - a) (next ⟨⟩) (next' ⟨⟩)) :
    Settles tokens least (set left >>= next) (set left >>= next') := by
  intro context
  obtain ⟨same, spends⟩ := rest context
  exact ⟨same, spends.of_left fewer (by omega)⟩

theorem advance_bind {next next' : PUnit → Parse β} (starts : significant tokens = token :: rest)
    (behind : Settles rest (least - 1) (next ⟨⟩) (next' ⟨⟩)) :
    Settles tokens least (advance >>= next) (advance >>= next') := by
  have fewer := weight_of_significant starts
  have heavy := token.one_le_weight
  refine modify_bind (a := 1) ?_ ?_
  · rw [starts, List.drop_succ_cons, List.drop_zero]
    omega
  · rwa [starts, List.drop_succ_cons, List.drop_zero]

/-- What comes behind a mark runs on fewer tokens if the mark is there. -/
theorem eatMark_bind {c : Char} {next next' : Bool → Parse β}
    (taken : ∀ left, weight left + 1 ≤ weight tokens → Settles left (least - 1) (next true) (next' true))
    (other : Settles tokens least (next false) (next' false)) :
    Settles tokens least (eatMark c >>= next) (eatMark c >>= next') := by
  intro context
  have step (next : Bool → Parse β) : (eatMark c >>= next) context tokens =
      if startsMark tokens c then next true context ((significant tokens).drop 1) else next false context tokens := by
    change ((if startsMark tokens c then (do advance; return true) else return false : Parse Bool) >>= next) context
      tokens = _
    cases startsMark tokens c <;> rfl
  rw [step, step]
  split
  · next starts =>
    have fewer : weight ((significant tokens).drop 1) + 1 ≤ weight tokens := by
      cases known : significant tokens with
      | nil =>
        rw [startsMark, known] at starts
        cases starts
      | cons token rest =>
        have := weight_of_significant known
        have := token.one_le_weight
        rw [List.drop_succ_cons, List.drop_zero]
        omega
    obtain ⟨same, spends⟩ := taken _ fewer context
    exact ⟨same, spends.of_left fewer (by omega)⟩
  · exact other context

end Settles

/-! Steps that take no limit -/

theorem settles_skipTrivia : Settles tokens 0 skipTrivia skipTrivia := fun _ => ⟨rfl, weight_significant_le tokens⟩

theorem settles_skipBlank : Settles tokens 0 skipBlank skipBlank := fun _ => ⟨rfl, weight_dropWhile_le _ tokens⟩

theorem settles_peek : Settles tokens 0 peek peek := fun _ => ⟨rfl, Nat.le_refl _⟩

theorem settles_advance : Settles tokens 0 advance advance :=
  fun _ => ⟨rfl, (weight_drop_le 1 _).trans (weight_significant_le tokens)⟩

theorem settles_atMark (c : Char) : Settles tokens 0 (atMark c) (atMark c) := fun _ => ⟨rfl, Nat.le_refl _⟩

theorem settles_atWord (word : String) : Settles tokens 0 (atWord word) (atWord word) := fun _ => ⟨rfl, Nat.le_refl _⟩

theorem settles_atExpressionEnd : Settles tokens 0 atExpressionEnd atExpressionEnd := fun _ => ⟨rfl, Nat.le_refl _⟩

theorem settles_expectMark (c : Char) : Settles tokens 1 (expectMark c) (expectMark c) :=
  .eatMark_bind (fun _ _ => .pure) .fail

theorem settles_expectWord (word : String) : Settles tokens 0 (expectWord word) (expectWord word) := by
  refine (settles_atWord word).bind fun starts left _ => ?_
  split
  · exact settles_advance
  · exact .fail

theorem settles_rangeWord : Settles tokens 0 rangeWord rangeWord := by
  refine (settles_atWord "through").bind fun through left _ => ?_
  split
  · exact settles_advance.bind fun _ _ _ => .pure
  · refine (settles_atWord "to").bind fun upTo left _ => ?_
    split
    · exact settles_advance.bind fun _ _ _ => .pure
    · exact .fail

theorem settles_expectName : Settles tokens 0 expectName expectName := by
  refine settles_peek.bind fun token? left _ => ?_
  split
  · exact settles_advance.bind fun _ _ _ => .pure
  · exact .fail

theorem settles_expectVariable : Settles tokens 1 expectVariable expectVariable := by
  apply Settles.peek_bind
  cases starts : significant tokens with
  | nil => exact .fail
  | cons token rest =>
    dsimp only [List.head?_cons, Option.map_some]
    split
    · exact .advance_bind starts .pure
    · exact .fail

theorem settles_endStatement : Settles tokens 0 endStatement endStatement := by
  refine .eatMark_bind (fun _ _ => .pure) ?_
  refine settles_peek.bind fun token? left _ => ?_
  split
  · split
    · exact .pure
    · exact .fail
  · exact .pure

theorem settles_eatSpread : Settles tokens 0 eatSpread eatSpread := by
  apply Settles.get_bind
  split
  · refine .modify_bind (a := 0) ?_ .pure
    exact (weight_drop_le 3 _).trans (weight_significant_le tokens)
  · exact .pure

/-! Expressions -/

/-- The parsers of expressions do the same with `n` calls and with more, as long as `n` pays for the tokens. Those that
call each other before a token is taken need some calls more, in this order. -/
structure SettlesExpressions (extra n : Nat) : Prop where
  expression : ∀ tokens, 32 * weight tokens + 12 ≤ n →
    Settles tokens 1 (Grammar.expression n) (Grammar.expression (extra + n))
  commaItems : ∀ atEnd tokens, (∀ tokens, Settles tokens 0 atEnd atEnd) → 32 * weight tokens + 1 ≤ n →
    Settles tokens 0 (Grammar.commaItems n atEnd) (Grammar.commaItems (extra + n) atEnd)
  spaceList : ∀ tokens, 32 * weight tokens + 11 ≤ n →
    Settles tokens 1 (Grammar.spaceList n) (Grammar.spaceList (extra + n))
  spaceItems : ∀ tokens, 32 * weight tokens + 11 ≤ n →
    Settles tokens 0 (Grammar.spaceItems n) (Grammar.spaceItems (extra + n))
  operation : ∀ level tokens, 32 * weight tokens + 4 + (6 - level) ≤ n →
    Settles tokens 1 (Grammar.operation n level) (Grammar.operation (extra + n) level)
  operationsOn : ∀ level left tokens, 32 * weight tokens + 1 ≤ n →
    Settles tokens 0 (Grammar.operationsOn n level left) (Grammar.operationsOn (extra + n) level left)
  operand : ∀ tokens, 32 * weight tokens + 3 ≤ n → Settles tokens 1 (Grammar.operand n) (Grammar.operand (extra + n))
  primary : ∀ token rest tokens, significant tokens = token :: rest → 32 * weight tokens + 2 ≤ n →
    Settles tokens 1 (Grammar.primary n token) (Grammar.primary (extra + n) token)
  parenthesized : ∀ pos tokens, 32 * weight tokens + 12 ≤ n →
    Settles tokens 0 (Grammar.parenthesized n pos) (Grammar.parenthesized (extra + n) pos)
  mapEntries : ∀ tokens, 32 * weight tokens + 1 ≤ n →
    Settles tokens 0 (Grammar.mapEntries n) (Grammar.mapEntries (extra + n))
  bracketed : ∀ tokens, 32 * weight tokens + 13 ≤ n →
    Settles tokens 0 (Grammar.bracketed n) (Grammar.bracketed (extra + n))
  word : ∀ name pos tokens, 32 * weight tokens + 2 ≤ n →
    Settles tokens 0 (Grammar.word n name pos) (Grammar.word (extra + n) name pos)
  bareWord : ∀ tokens, 32 * weight tokens + 1 ≤ n →
    Settles tokens 0 (Grammar.bareWord n) (Grammar.bareWord (extra + n))
  bareCode : ∀ token rest, token.kind = .interpolation → 32 * weight (token :: rest) + 1 ≤ n →
    Settles (token :: rest) 1 (Grammar.bareWord n) (Grammar.bareWord (extra + n))
  verbatimCall : ∀ name tokens, 32 * weight tokens + 3 ≤ n →
    Settles tokens 0 (Grammar.verbatimCall n name) (Grammar.verbatimCall (extra + n) name)
  argumentList : ∀ tokens, 32 * weight tokens + 12 ≤ n →
    Settles tokens 0 (Grammar.argumentList n) (Grammar.argumentList (extra + n))
  moreArguments : ∀ tokens, 32 * weight tokens + 1 ≤ n →
    Settles tokens 0 (Grammar.moreArguments n) (Grammar.moreArguments (extra + n))
  interpolationBody : ∀ tokens, 32 * weight tokens + 13 ≤ n →
    Settles tokens 0 (Grammar.interpolationBody n) (Grammar.interpolationBody (extra + n))
  rawTemplate : ∀ withVariables ends tokens, 32 * weight tokens + 2 ≤ n →
    Settles tokens 0 (Grammar.rawTemplate n withVariables ends) (Grammar.rawTemplate (extra + n) withVariables ends)
  rawPieces : ∀ withVariables ends depth started tokens, 32 * weight tokens + 1 ≤ n →
    Settles tokens 0 (Grammar.rawPieces n withVariables ends depth started)
      (Grammar.rawPieces (extra + n) withVariables ends depth started)
  textTemplate : ∀ pos cs tokens, 32 * cs.length + 1 ≤ n →
    Settles tokens 0 (Grammar.textTemplate n pos cs) (Grammar.textTemplate (extra + n) pos cs)
  embedded : ∀ pos cs tokens, 32 * cs.length + 13 ≤ n →
    Settles tokens 0 (Grammar.embedded n pos cs) (Grammar.embedded (extra + n) pos cs)

variable {extra n : Nat}

theorem settles_closing (c : Char) (value : α) :
    Settles tokens 0 (do expectMark c; return value) (do expectMark c; return value) :=
  (settles_expectMark c).bind fun _ _ _ => .pure

theorem settles_expression (settles : SettlesExpressions extra n) (enough : 32 * weight tokens + 12 ≤ n + 1) :
    Settles tokens 1 (Grammar.expression (n + 1)) (Grammar.expression (extra + n + 1)) := by
  rw [Grammar.expression, Grammar.expression]
  refine (settles.spaceList tokens (by omega)).bind fun first left _ => ?_
  refine (settles_atMark ',').bind fun more left _ => ?_
  split
  · refine (settles.commaItems _ left (fun _ => settles_atExpressionEnd) (by omega)).bind fun items left _ => ?_
    exact .pure
  · exact .pure

theorem settles_commaItems (settles : SettlesExpressions extra n) {atEnd : Parse Bool}
    (same : ∀ tokens, Settles tokens 0 atEnd atEnd) (enough : 32 * weight tokens + 1 ≤ n + 1) :
    Settles tokens 0 (Grammar.commaItems (n + 1) atEnd) (Grammar.commaItems (extra + n + 1) atEnd) := by
  rw [Grammar.commaItems, Grammar.commaItems]
  refine .eatMark_bind (fun left _ => ?_) .pure
  refine (same left).bind fun ended left _ => ?_
  split
  · exact .pure
  · refine (settles.spaceList left (by omega)).bind fun item left _ => ?_
    exact (settles.commaItems atEnd left same (by omega)).bind fun _ _ _ => .pure

theorem settles_spaceList (settles : SettlesExpressions extra n) (enough : 32 * weight tokens + 11 ≤ n + 1) :
    Settles tokens 1 (Grammar.spaceList (n + 1)) (Grammar.spaceList (extra + n + 1)) := by
  rw [Grammar.spaceList, Grammar.spaceList]
  refine settles_atExpressionEnd.bind fun ended left _ => ?_
  split
  · exact .fail
  · refine (settles.operation 0 left (by omega)).bind fun first left _ => ?_
    exact (settles.spaceItems left (by omega)).bind fun _ _ _ => .pure

theorem settles_spaceItems (settles : SettlesExpressions extra n) (enough : 32 * weight tokens + 11 ≤ n + 1) :
    Settles tokens 0 (Grammar.spaceItems (n + 1)) (Grammar.spaceItems (extra + n + 1)) := by
  rw [Grammar.spaceItems, Grammar.spaceItems]
  refine settles_atExpressionEnd.bind fun ended left _ => ?_
  apply Settles.get_bind
  split
  · exact .pure
  · refine (settles.operation 0 left (by omega)).bind fun item left _ => ?_
    exact (settles.spaceItems left (by omega)).bind fun _ _ _ => .pure

theorem settles_operation (settles : SettlesExpressions extra n) (level : Nat)
    (enough : 32 * weight tokens + 4 + (6 - level) ≤ n + 1) :
    Settles tokens 1 (Grammar.operation (n + 1) level) (Grammar.operation (extra + n + 1) level) := by
  rw [Grammar.operation, Grammar.operation]
  split
  · next looser =>
    have looser : level < 6 := looser
    refine (settles.operation (level + 1) tokens (by omega)).bind fun operand left _ => ?_
    exact settles.operationsOn level operand left (by omega)
  · exact settles.operand tokens (by omega)

theorem weight_of_operatorAt? {level : Nat} {op : BinaryOp} {pos : Position}
    (found : operatorAt? level tokens = some (op, pos, rest)) : weight rest + 1 ≤ weight tokens := by
  unfold operatorAt? at found
  split at found
  · next token behind starts =>
    have fewer := weight_of_significant starts
    have heavy := token.one_le_weight
    split at found
    · split at found
      · cases found
      · split at found
        · cases found
        · cases found
          omega
    · cases found
  · cases found

theorem settles_operationsOn (settles : SettlesExpressions extra n) (level : Nat) (operand : Expr)
    (enough : 32 * weight tokens + 1 ≤ n + 1) :
    Settles tokens 0 (Grammar.operationsOn (n + 1) level operand)
      (Grammar.operationsOn (extra + n + 1) level operand) := by
  rw [Grammar.operationsOn, Grammar.operationsOn]
  apply Settles.get_bind
  split
  · next op pos rest found =>
    have fewer := weight_of_operatorAt? found
    refine .set_bind fewer ?_
    refine (settles.operation (level + 1) rest (by omega)).bind fun right left _ => ?_
    exact settles.operationsOn level _ left (by omega)
  · exact .pure

theorem settles_operand (settles : SettlesExpressions extra n) (enough : 32 * weight tokens + 3 ≤ n + 1) :
    Settles tokens 1 (Grammar.operand (n + 1)) (Grammar.operand (extra + n + 1)) := by
  rw [Grammar.operand, Grammar.operand]
  apply Settles.peek_bind
  cases starts : significant tokens with
  | nil => exact .fail
  | cons token rest =>
    have fewer := weight_of_significant starts
    have heavy := token.one_le_weight
    dsimp only [List.head?_cons]
    split
    · refine .advance_bind starts ?_
      exact ((settles.operand rest (by omega)).mono (Nat.zero_le 1)).bind fun _ _ _ => .pure
    · exact settles.primary token rest tokens starts (by omega)

theorem settles_primary (settles : SettlesExpressions extra n) (starts : significant tokens = token :: rest)
    (enough : 32 * weight tokens + 2 ≤ n + 1) :
    Settles tokens 1 (Grammar.primary (n + 1) token) (Grammar.primary (extra + n + 1) token) := by
  have fewer := weight_of_significant starts
  have heavy := token.one_le_weight
  apply primary_cases token (motive := fun parse => Settles tokens 1 (parse n) (parse (extra + n)))
  case number | hash | named | parent =>
    intros
    exact .advance_bind starts .pure
  case quoted =>
    intro contents quote kind
    have pays : token.weight = contents.toList.length + 2 := by rw [Token.weight, kind]
    refine .advance_bind starts ?_
    exact (settles.textTemplate _ contents.toList rest (by omega)).bind fun _ _ _ => .pure
  case address =>
    intro contents kind
    have pays : token.weight = contents.toList.length + 5 := by rw [Token.weight, kind]
    refine .advance_bind starts ?_
    exact (settles.textTemplate _ contents.toList rest (by omega)).bind fun _ _ _ => .pure
  case parenthesis => exact .advance_bind starts (settles.parenthesized token.pos rest (by omega)).stoppingAt
  case bracket => exact .advance_bind starts (settles.bracketed rest (by omega)).stoppingAt
  case identifier => exact fun name _ => .advance_bind starts (settles.word name token.pos rest (by omega))
  case code =>
    intro kind
    have lighter := weight_significant_le tokens
    refine .modify_bind (a := 0) lighter ?_
    rw [starts] at lighter ⊢
    exact (settles.bareCode token rest kind (by omega)).bind fun _ _ _ => .pure
  case other => exact .fail

theorem settles_parenthesized (settles : SettlesExpressions extra n) (pos : Position)
    (enough : 32 * weight tokens + 12 ≤ n + 1) :
    Settles tokens 0 (Grammar.parenthesized (n + 1) pos) (Grammar.parenthesized (extra + n + 1) pos) := by
  rw [Grammar.parenthesized, Grammar.parenthesized]
  refine .eatMark_bind (fun _ _ => .pure) ?_
  refine ((settles.spaceList tokens (by omega)).bind fun first left _ => ?_)
  refine .eatMark_bind (fun left _ => ?_) ?_
  · refine (settles.spaceList left (by omega)).bind fun value left _ => ?_
    refine (settles.mapEntries left (by omega)).bind fun entries left _ => ?_
    exact settles_closing ')' _
  · refine (settles_atMark ',').bind fun more left _ => ?_
    split
    · refine (settles.commaItems _ left (fun _ => settles_atMark ')') (by omega)).bind fun items left _ => ?_
      exact settles_closing ')' _
    · exact settles_closing ')' _

theorem settles_mapEntries (settles : SettlesExpressions extra n) (enough : 32 * weight tokens + 1 ≤ n + 1) :
    Settles tokens 0 (Grammar.mapEntries (n + 1)) (Grammar.mapEntries (extra + n + 1)) := by
  rw [Grammar.mapEntries, Grammar.mapEntries]
  refine .eatMark_bind (fun left _ => ?_) .pure
  refine (settles_atMark ')').bind fun ended left _ => ?_
  split
  · exact .pure
  · refine (settles.spaceList left (by omega)).bind fun key left _ => ?_
    refine (settles_expectMark ':').bind fun _ left _ => ?_
    refine (settles.spaceList left (by omega)).bind fun value left _ => ?_
    exact (settles.mapEntries left (by omega)).bind fun _ _ _ => .pure

theorem settles_bracketed (settles : SettlesExpressions extra n) (enough : 32 * weight tokens + 13 ≤ n + 1) :
    Settles tokens 0 (Grammar.bracketed (n + 1)) (Grammar.bracketed (extra + n + 1)) := by
  rw [Grammar.bracketed, Grammar.bracketed]
  refine (settles_atMark ']').bind fun empty left _ => ?_
  split
  · exact settles_closing ']' _
  · refine (settles.expression left (by omega)).map.bind fun inner left _ => ?_
    exact settles_closing ']' _

theorem settles_word (settles : SettlesExpressions extra n) (name : String) (pos : Position)
    (enough : 32 * weight tokens + 2 ≤ n + 1) :
    Settles tokens 0 (Grammar.word (n + 1) name pos) (Grammar.word (extra + n + 1) name pos) := by
  rw [Grammar.word, Grammar.word]
  apply Settles.get_bind
  cases tokens with
  | nil => exact .pure
  | cons token rest =>
    have heavy := token.one_le_weight
    rw [weight_cons] at enough
    dsimp only
    split
    · refine .set_bind (a := 1) (by rw [weight_cons]; omega) ?_
      split
      · exact settles.verbatimCall name rest (by omega)
      · exact (settles.argumentList rest (by omega)).stoppingAt.bind fun _ _ _ => .pure
    · split
      · exact (settles.bareWord (token :: rest) (by rw [weight_cons]; omega)).bind fun _ _ _ => .pure
      · exact .pure

theorem settles_bareCode (settles : SettlesExpressions extra n) (kind : token.kind = .interpolation)
    (enough : 32 * weight (token :: rest) + 1 ≤ n + 1) :
    Settles (token :: rest) 1 (Grammar.bareWord (n + 1)) (Grammar.bareWord (extra + n + 1)) := by
  have heavy := token.one_le_weight
  rw [weight_cons] at enough
  rw [Grammar.bareWord, Grammar.bareWord]
  apply Settles.get_bind
  simp only [kind]
  refine .set_bind (a := 1) (by rw [weight_cons]; omega) ?_
  refine (settles.interpolationBody rest (by omega)).bind fun code left _ => ?_
  exact (settles.bareWord left (by omega)).bind fun _ _ _ => .pure

theorem settles_bareWord (settles : SettlesExpressions extra n) (enough : 32 * weight tokens + 1 ≤ n + 1) :
    Settles tokens 0 (Grammar.bareWord (n + 1)) (Grammar.bareWord (extra + n + 1)) := by
  rw [Grammar.bareWord, Grammar.bareWord]
  apply Settles.get_bind
  cases tokens with
  | nil => exact .pure
  | cons token rest =>
    have heavy := token.one_le_weight
    have fewer : weight rest + 1 ≤ weight (token :: rest) := by
      rw [weight_cons]
      omega
    have join (s : String) : Settles (token :: rest) 0
        (do set rest; return Template.consText s (← Grammar.bareWord n))
        (do set rest; return Template.consText s (← Grammar.bareWord (extra + n))) :=
      .set_bind fewer ((settles.bareWord rest (by omega)).bind fun _ _ _ => .pure)
    dsimp only
    split
    · exact join token.text
    · exact join token.text
    · refine .set_bind fewer ?_
      refine (settles.interpolationBody rest (by omega)).bind fun code left _ => ?_
      exact (settles.bareWord left (by omega)).bind fun _ _ _ => .pure
    · split
      · exact join "-"
      · exact .pure
    · exact .pure

theorem settles_verbatimCall (settles : SettlesExpressions extra n) (name : String)
    (enough : 32 * weight tokens + 3 ≤ n + 1) :
    Settles tokens 0 (Grammar.verbatimCall (n + 1) name) (Grammar.verbatimCall (extra + n + 1) name) := by
  rw [Grammar.verbatimCall, Grammar.verbatimCall]
  refine (settles.rawTemplate false [')'] tokens (by omega)).bind fun inner left _ => ?_
  apply Settles.get_bind
  cases left with
  | nil => exact .fail
  | cons token rest => exact .set_bind (a := 0) (by rw [weight_cons]; omega) .pure

theorem settles_argumentList (settles : SettlesExpressions extra n) (enough : 32 * weight tokens + 12 ≤ n + 1) :
    Settles tokens 0 (Grammar.argumentList (n + 1)) (Grammar.argumentList (extra + n + 1)) := by
  rw [Grammar.argumentList, Grammar.argumentList]
  refine .eatMark_bind (fun _ _ => .pure) ?_
  apply Settles.get_bind
  split
  · refine settles_advance.bind fun _ left _ => ?_
    refine (settles_expectMark ':').bind fun _ left _ => ?_
    refine (settles.spaceList left (by omega)).bind fun value left _ => ?_
    exact (settles.moreArguments left (by omega)).bind fun _ _ _ => .pure
  · refine (settles.spaceList tokens (by omega)).bind fun value left _ => ?_
    refine settles_eatSpread.bind fun spread left _ => ?_
    split
    · exact (settles.moreArguments left (by omega)).bind fun _ _ _ => .pure
    · exact (settles.moreArguments left (by omega)).bind fun _ _ _ => .pure

theorem settles_moreArguments (settles : SettlesExpressions extra n) (enough : 32 * weight tokens + 1 ≤ n + 1) :
    Settles tokens 0 (Grammar.moreArguments (n + 1)) (Grammar.moreArguments (extra + n + 1)) := by
  rw [Grammar.moreArguments, Grammar.moreArguments]
  refine .eatMark_bind (fun left _ => settles.argumentList left (by omega)) ?_
  exact settles_closing ')' _

theorem settles_interpolationBody (settles : SettlesExpressions extra n) (enough : 32 * weight tokens + 13 ≤ n + 1) :
    Settles tokens 0 (Grammar.interpolationBody (n + 1)) (Grammar.interpolationBody (extra + n + 1)) := by
  rw [Grammar.interpolationBody, Grammar.interpolationBody]
  refine (settles.expression tokens (by omega)).stoppingAt.bind fun code left _ => ?_
  exact settles_closing '}' _

theorem settles_rawTemplate (settles : SettlesExpressions extra n) (withVariables : Bool) (ends : List Char)
    (enough : 32 * weight tokens + 2 ≤ n + 1) :
    Settles tokens 0 (Grammar.rawTemplate (n + 1) withVariables ends)
      (Grammar.rawTemplate (extra + n + 1) withVariables ends) := by
  rw [Grammar.rawTemplate, Grammar.rawTemplate]
  exact (settles.rawPieces withVariables ends 0 false tokens (by omega)).bind fun _ _ _ => .pure

theorem settles_rawPieces (settles : SettlesExpressions extra n) (withVariables : Bool) (ends : List Char)
    (depth : Nat) (started : Bool) (enough : 32 * weight tokens + 1 ≤ n + 1) :
    Settles tokens 0 (Grammar.rawPieces (n + 1) withVariables ends depth started)
      (Grammar.rawPieces (extra + n + 1) withVariables ends depth started) := by
  rw [Grammar.rawPieces, Grammar.rawPieces]
  apply Settles.get_bind
  cases tokens with
  | nil => exact .pure
  | cons token rest =>
    have heavy := token.one_le_weight
    rw [weight_cons] at enough
    have fewer : weight rest + 1 ≤ weight (token :: rest) := by
      rw [weight_cons]
      omega
    have later (depth : Nat) (started : Bool) (left : List Token) (lighter : weight left ≤ weight rest) :=
      settles.rawPieces withVariables ends depth started left (by omega)
    dsimp only
    split
    · exact .pure
    refine .set_bind fewer ?_
    cases kind : token.kind with
    | interpolation =>
      refine (settles.interpolationBody rest (by omega)).bind fun code left lighter => ?_
      exact (later depth true left lighter).bind fun _ _ _ => .pure
    | «variable» => exact (later depth true rest (Nat.le_refl _)).bind fun _ _ _ => .pure
    | quoted contents quote =>
      have pays : token.weight = contents.toList.length + 2 := by rw [Token.weight, kind]
      refine (settles.textTemplate _ contents.toList rest (by omega)).bind fun text left lighter => ?_
      exact (later depth true left lighter).bind fun _ _ _ => .pure
    | blank => exact (later depth started rest (Nat.le_refl _)).bind fun _ _ _ => .pure
    | comment => exact later depth started rest (Nat.le_refl _)
    | _ => exact (later _ true rest (Nat.le_refl _)).bind fun _ _ _ => .pure

theorem settles_textTemplate (settles : SettlesExpressions extra n) (pos : Position) {cs : List Char}
    (enough : 32 * cs.length + 1 ≤ n + 1) :
    Settles tokens 0 (Grammar.textTemplate (n + 1) pos cs) (Grammar.textTemplate (extra + n + 1) pos cs) := by
  rw [Grammar.textTemplate, Grammar.textTemplate]
  cases opens : splitAtInterpolation cs with
  | none => exact .pure
  | some cut =>
    obtain ⟨before, behind⟩ := cut
    have shorter := congrArg List.length (splitAtInterpolation_eq opens)
    simp only [List.length_append, List.length_cons] at shorter
    dsimp only
    cases closes : splitAtBrace 0 none behind with
    | none => exact fun _ => ⟨rfl, nofun⟩
    | some cut =>
      obtain ⟨body, rest⟩ := cut
      have parts := congrArg List.length (splitAtBrace_eq closes)
      simp only [List.length_append, List.length_cons] at parts
      dsimp only
      refine (settles.embedded _ body tokens (by omega)).bind fun code left _ => ?_
      exact (settles.textTemplate _ rest left (by omega)).bind fun _ _ _ => .pure

/-- A text of its own is parsed in the same way if its tokens pay for the calls. -/
theorem parseText_settles {text : String} (file : String) {origin : Position} {first second : Parse α}
    (settles : Settles (lex text origin).tokens least first second) :
    parseText text file origin first = parseText text file origin second ∧
      ∀ error, parseText text file origin first = .error error → error.cause ≠ .limit := by
  unfold parseText
  dsimp only
  split
  · refine ⟨rfl, fun error failed => ?_⟩
    cases failed
    exact nofun
  · obtain ⟨same, spends⟩ := settles
      { source := text.toList, finish := finishOf (lex text origin).tokens, stops := [], file }
    refine ⟨by rw [same], fun error failed => ?_⟩
    cases run : first { source := text.toList, finish := finishOf (lex text origin).tokens, stops := [], file }
        (lex text origin).tokens with
    | error found =>
      rw [run] at failed spends
      cases failed
      exact spends
    | ok result =>
      rw [run] at failed
      cases failed

theorem settles_embedded (settles : SettlesExpressions extra n) (pos : Position) {cs : List Char}
    (enough : 32 * cs.length + 13 ≤ n + 1) :
    Settles tokens 0 (Grammar.embedded (n + 1) pos cs) (Grammar.embedded (extra + n + 1) pos cs) := by
  have light := weight_lex_le (String.ofList cs) pos
  rw [String.toList_ofList] at light
  have whole : Settles (lex (String.ofList cs) pos).tokens 0
      (do
        let code ← Grammar.expression n
        if (← peek).isSome then fail (.mark '}') else return code)
      (do
        let code ← Grammar.expression (extra + n)
        if (← peek).isSome then fail (.mark '}') else return code) := by
    refine (settles.expression _ (by omega)).bind fun code left _ => ?_
    refine settles_peek.bind fun token? left _ => ?_
    split
    · exact .fail
    · exact .pure
  rw [Grammar.embedded, Grammar.embedded]
  intro context
  obtain ⟨same, within⟩ := parseText_settles context.file whole
  dsimp only
  rw [← same]
  refine ⟨rfl, ?_⟩
  cases run : parseText (String.ofList cs) context.file pos (do
      let code ← Grammar.expression n
      if (← peek).isSome then fail (.mark '}') else return code : Parse Expr) with
  | error error => exact within error run
  | ok code => exact Nat.le_refl _

theorem settlesExpressions (extra n : Nat) : SettlesExpressions extra n := by
  induction n with
  | zero => constructor <;> intros <;> omega
  | succ n shallower =>
    exact {
      expression := fun _ => settles_expression shallower
      commaItems := fun _ _ => settles_commaItems shallower
      spaceList := fun _ => settles_spaceList shallower
      spaceItems := fun _ => settles_spaceItems shallower
      operation := fun level _ => settles_operation shallower level
      operationsOn := fun level left _ => settles_operationsOn shallower level left
      operand := fun _ => settles_operand shallower
      primary := fun _ _ _ => settles_primary shallower
      parenthesized := fun pos _ => settles_parenthesized shallower pos
      mapEntries := fun _ => settles_mapEntries shallower
      bracketed := fun _ => settles_bracketed shallower
      word := fun name pos _ => settles_word shallower name pos
      bareWord := fun _ => settles_bareWord shallower
      bareCode := fun _ _ => settles_bareCode shallower
      verbatimCall := fun name _ => settles_verbatimCall shallower name
      argumentList := fun _ => settles_argumentList shallower
      moreArguments := fun _ => settles_moreArguments shallower
      interpolationBody := fun _ => settles_interpolationBody shallower
      rawTemplate := fun withVariables ends _ => settles_rawTemplate shallower withVariables ends
      rawPieces := fun withVariables ends depth started _ =>
        settles_rawPieces shallower withVariables ends depth started
      textTemplate := fun pos _ _ => settles_textTemplate shallower pos
      embedded := fun pos _ _ => settles_embedded shallower pos }


/-! Statements -/

theorem settles_loopNames (extra n : Nat) (enough : weight tokens + 1 ≤ n) :
    Settles tokens 0 (Grammar.loopNames n) (Grammar.loopNames (extra + n)) := by
  induction n generalizing tokens with
  | zero => omega
  | succ n shorter =>
    change Settles tokens 0 (Grammar.loopNames (n + 1)) (Grammar.loopNames (extra + n + 1))
    rw [Grammar.loopNames, Grammar.loopNames]
    refine settles_expectVariable.bind fun name left _ => ?_
    refine .eatMark_bind (fun left _ => ?_) .pure
    exact (shorter (by omega)).bind fun _ _ _ => .pure

theorem settles_assignmentFlags (extra n : Nat) (isDefault isGlobal : Bool) (enough : weight tokens + 1 ≤ n) :
    Settles tokens 0 (Grammar.assignmentFlags n isDefault isGlobal)
      (Grammar.assignmentFlags (extra + n) isDefault isGlobal) := by
  induction n generalizing tokens isDefault isGlobal with
  | zero => omega
  | succ n shorter =>
    change Settles tokens 0 (Grammar.assignmentFlags (n + 1) isDefault isGlobal)
      (Grammar.assignmentFlags (extra + n + 1) isDefault isGlobal)
    rw [Grammar.assignmentFlags, Grammar.assignmentFlags]
    apply Settles.get_bind
    split
    · next bang rest starts =>
      have fewer := weight_of_significant starts
      have heavy := bang.one_le_weight
      split
      · split
        · next flag behind =>
          rw [weight_cons] at fewer
          split
          · exact .set_bind (a := 1) (by omega) (shorter true isGlobal (by omega))
          · split
            · exact .set_bind (a := 1) (by omega) (shorter isDefault true (by omega))
            · exact .fail
        · exact .fail
      · exact .pure
    · exact .pure

theorem settles_importance : Settles tokens 0 importance importance := by
  apply Settles.get_bind
  split
  · next bang rest starts =>
    have fewer := weight_of_significant starts
    split
    · split
      · next flag behind =>
        rw [weight_cons] at fewer
        split
        · exact .set_bind (a := 0) (by omega) .pure
        · exact .fail
      · exact .fail
    · exact .pure
  · exact .pure

theorem settles_assignment (extra : Nat) (name : String) (pos : Position) (enough : 32 * weight tokens + 1 ≤ n) :
    Settles tokens 0 (Grammar.assignment n name pos) (Grammar.assignment (extra + n) name pos) := by
  refine (settles_expectMark ':').bind fun _ left _ => ?_
  refine ((settlesExpressions extra n).expression left (by omega)).bind fun value left _ => ?_
  refine (settles_assignmentFlags extra n false false (by omega)).bind fun flags left _ => ?_
  exact settles_endStatement.bind fun _ _ _ => .pure

theorem settles_moreParameters {extra n : Nat}
    (shorter : ∀ left, weight left ≤ weight tokens → Settles left 0 (Grammar.parameters n) (Grammar.parameters (extra + n)))
    (name : String) (default : Option Expr) :
    Settles tokens 0 (moreParameters n name default) (moreParameters (extra + n) name default) := by
  refine .eatMark_bind (fun left lighter => ?_) (settles_closing ')' _)
  exact (shorter left (by omega)).bind fun _ _ _ => .pure

theorem settles_parameters (extra n : Nat) (enough : 32 * weight tokens + 1 ≤ n) :
    Settles tokens 0 (Grammar.parameters n) (Grammar.parameters (extra + n)) := by
  induction n generalizing tokens with
  | zero => omega
  | succ n shorter =>
    have behind (name : String) (default : Option Expr) {left : List Token} (lighter : 32 * weight left + 1 ≤ n) :
        Settles left 0 (moreParameters n name default) (moreParameters (extra + n) name default) :=
      settles_moreParameters (fun _ _ => shorter (by omega)) name default
    change Settles tokens 0 (Grammar.parameters (n + 1)) (Grammar.parameters (extra + n + 1))
    rw [parameters_succ, parameters_succ]
    refine .eatMark_bind (fun _ _ => .pure) ?_
    refine settles_expectVariable.bind fun name left _ => ?_
    refine settles_eatSpread.bind fun spread left _ => ?_
    split
    · exact settles_closing ')' _
    · refine .eatMark_bind (fun left _ => ?_) ?_
      · refine ((settlesExpressions extra n).spaceList left (by omega)).map.bind fun default left _ => ?_
        exact behind name default (by omega)
      · exact behind name none (by omega)

theorem weight_of_referenceAt? {reference : String} {pos : Position}
    (found : referenceAt? tokens = some (reference, pos, rest)) : weight rest + 1 ≤ weight tokens := by
  unfold referenceAt? at found
  split at found
  · next token behind starts =>
    have fewer := weight_of_significant starts
    have heavy := token.one_le_weight
    split at found
    · dsimp only at found
      split at found
      · cases found
        omega
      · cases found
    · cases found
  · cases found

theorem settles_importTargets (extra n : Nat) (enough : 32 * weight tokens + 3 ≤ n) :
    Settles tokens 0 (Grammar.importTargets n) (Grammar.importTargets (extra + n)) := by
  induction n generalizing tokens with
  | zero => omega
  | succ n shorter =>
    change Settles tokens 0 (Grammar.importTargets (n + 1)) (Grammar.importTargets (extra + n + 1))
    rw [Grammar.importTargets, Grammar.importTargets]
    apply Settles.get_bind
    split
    · next reference pos rest found =>
      refine .set_bind (weight_of_referenceAt? found) ?_
      have fewer := weight_of_referenceAt? found
      refine .eatMark_bind (fun left _ => ?_) .pure
      exact (shorter (by omega)).bind fun _ _ _ => .pure
    · refine settles_peek.bind fun token? left _ => ?_
      split
      · exact .fail
      · refine ((settlesExpressions extra n).rawTemplate false [';', '}'] left (by omega)).bind fun text left _ => ?_
        exact .pure

/-- The parsers of statements do the same with `n` calls and with more, as long as `n` pays for the tokens. -/
structure SettlesStatements (extra n : Nat) : Prop where
  statements : ∀ inBlock tokens, 32 * weight tokens + 4 ≤ n →
    Settles tokens 0 (Grammar.statements n inBlock) (Grammar.statements (extra + n) inBlock)
  block : ∀ tokens, 32 * weight tokens + 1 ≤ n → Settles tokens 1 (Grammar.block n) (Grammar.block (extra + n))
  optionalBlock : ∀ tokens, 32 * weight tokens + 2 ≤ n →
    Settles tokens 0 (Grammar.optionalBlock n) (Grammar.optionalBlock (extra + n))
  rule : ∀ pos tokens, 32 * weight tokens + 3 ≤ n →
    Settles tokens 1 (Grammar.rule n pos) (Grammar.rule (extra + n) pos)
  declaration : ∀ pos tokens, 32 * weight tokens + 3 ≤ n →
    Settles tokens 1 (Grammar.declaration n pos) (Grammar.declaration (extra + n) pos)
  directive : ∀ name pos tokens, 32 * weight tokens + 14 ≤ n →
    Settles tokens 0 (Grammar.directive n name pos) (Grammar.directive (extra + n) name pos)
  message : ∀ kind pos tokens, 32 * weight tokens + 13 ≤ n →
    Settles tokens 0 (Grammar.message n kind pos) (Grammar.message (extra + n) kind pos)
  callable : ∀ tokens, 32 * weight tokens + 2 ≤ n →
    Settles tokens 0 (Grammar.callable n) (Grammar.callable (extra + n))
  branches : ∀ tokens, 32 * weight tokens + 1 ≤ n →
    Settles tokens 0 (Grammar.branches n) (Grammar.branches (extra + n))

theorem settles_statements (settles : SettlesStatements extra n) (inBlock : Bool)
    (enough : 32 * weight tokens + 4 ≤ n + 1) :
    Settles tokens 0 (Grammar.statements (n + 1) inBlock) (Grammar.statements (extra + n + 1) inBlock) := by
  have behind {left : List Token} (first : Statement) (lighter : weight left + 1 ≤ weight tokens) :
      Settles left 0 (do return first :: (← Grammar.statements n inBlock))
        (do return first :: (← Grammar.statements (extra + n) inBlock)) :=
    (settles.statements inBlock left (by omega)).bind fun _ _ _ => .pure
  rw [Grammar.statements, Grammar.statements]
  refine settles_skipBlank.bind fun _ left _ => ?_
  apply Settles.get_bind
  cases left with
  | nil =>
    dsimp only
    split
    · exact .fail
    · exact .pure
  | cons token rest =>
    have heavy := token.one_le_weight
    have fewer : weight rest + 1 ≤ weight (token :: rest) := by
      rw [weight_cons]
      omega
    dsimp only
    split
    · exact .set_bind fewer (behind _ (by omega))
    · split
      · exact .set_bind fewer .pure
      · exact .fail
    · exact .set_bind fewer (settles.statements inBlock rest (by omega))
    · refine .set_bind fewer ?_
      exact (settles.directive _ token.pos rest (by omega)).bind fun first left _ => behind first (by omega)
    · split
      · refine .set_bind fewer ?_
        exact (settles_assignment extra _ token.pos (by omega)).bind fun first left _ => behind first (by omega)
      · exact (settles.rule token.pos _ (by omega)).bind fun first left _ => behind first (by omega)
    · split
      · exact (settles.declaration token.pos _ (by omega)).bind fun first left _ => behind first (by omega)
      · exact (settles.rule token.pos _ (by omega)).bind fun first left _ => behind first (by omega)

theorem settles_block (settles : SettlesStatements extra n) (enough : 32 * weight tokens + 1 ≤ n + 1) :
    Settles tokens 1 (Grammar.block (n + 1)) (Grammar.block (extra + n + 1)) := by
  rw [Grammar.block, Grammar.block]
  exact (settles_expectMark '{').bind fun _ left _ => settles.statements true left (by omega)

theorem settles_optionalBlock (settles : SettlesStatements extra n) (enough : 32 * weight tokens + 2 ≤ n + 1) :
    Settles tokens 0 (Grammar.optionalBlock (n + 1)) (Grammar.optionalBlock (extra + n + 1)) := by
  rw [Grammar.optionalBlock, Grammar.optionalBlock]
  refine (settles_atMark '{').bind fun opens left _ => ?_
  split
  · exact ((settles.block left (by omega)).mono (Nat.zero_le 1)).map
  · exact settles_endStatement.bind fun _ _ _ => .pure

theorem settles_rule (settles : SettlesStatements extra n) (pos : Position)
    (enough : 32 * weight tokens + 3 ≤ n + 1) :
    Settles tokens 1 (Grammar.rule (n + 1) pos) (Grammar.rule (extra + n + 1) pos) := by
  rw [Grammar.rule, Grammar.rule]
  refine ((settlesExpressions extra n).rawTemplate _ _ tokens (by omega)).bind fun selector left _ => ?_
  refine (settles_atMark '{').bind fun opens left _ => ?_
  split
  · exact .fail
  · refine (settles.block left (by omega)).bind fun body left _ => ?_
    exact .pure

theorem settles_declaration (settles : SettlesStatements extra n) (pos : Position)
    (enough : 32 * weight tokens + 3 ≤ n + 1) :
    Settles tokens 1 (Grammar.declaration (n + 1) pos) (Grammar.declaration (extra + n + 1) pos) := by
  rw [Grammar.declaration, Grammar.declaration]
  refine ((settlesExpressions extra n).rawTemplate _ _ tokens (by omega)).bind fun property left _ => ?_
  refine (settles_expectMark ':').bind fun _ left _ => ?_
  dsimp only
  split
  · refine settles_skipTrivia.bind fun _ left _ => ?_
    refine ((settlesExpressions extra n).rawTemplate _ _ left (by omega)).bind fun text left _ => ?_
    exact settles_endStatement.bind fun _ _ _ => .pure
  · have behind (value : Option Expr) {left : List Token} (lighter : weight left + 1 ≤ weight tokens) :
        Settles left 0
          (do
            let important ← importance
            if ← atMark '{' then
              return Statement.declaration pos (Template.trimEnd property) value important (← Grammar.block n)
            else if value.isNone then fail .expression
            else
              endStatement
              return .declaration pos (Template.trimEnd property) value important [])
          (do
            let important ← importance
            if ← atMark '{' then
              return Statement.declaration pos (Template.trimEnd property) value important (← Grammar.block (extra + n))
            else if value.isNone then fail .expression
            else
              endStatement
              return .declaration pos (Template.trimEnd property) value important []) := by
      refine settles_importance.bind fun important left _ => ?_
      refine (settles_atMark '{').bind fun opens left _ => ?_
      split
      · exact ((settles.block left (by omega)).mono (Nat.zero_le 1)).bind fun _ _ _ => .pure
      · split
        · exact .fail
        · exact settles_endStatement.bind fun _ _ _ => .pure
    refine (settles_atMark '{').bind fun opens left _ => ?_
    split
    · exact behind none (by omega)
    · refine ((settlesExpressions extra n).expression left (by omega)).map.bind fun value left _ => ?_
      exact (behind value (by omega)).mono (by omega)

theorem settles_message (extra : Nat) (kind : MessageKind) (pos : Position)
    (enough : 32 * weight tokens + 13 ≤ n + 1) :
    Settles tokens 0 (Grammar.message (n + 1) kind pos) (Grammar.message (extra + n + 1) kind pos) := by
  rw [Grammar.message, Grammar.message]
  refine ((settlesExpressions extra n).expression tokens (by omega)).bind fun value left _ => ?_
  exact settles_endStatement.bind fun _ _ _ => .pure

theorem settles_callable (settles : SettlesStatements extra n) (enough : 32 * weight tokens + 2 ≤ n + 1) :
    Settles tokens 0 (Grammar.callable (n + 1)) (Grammar.callable (extra + n + 1)) := by
  have behind (name : String) (parameters : List Parameter) (rest : Option String) {left : List Token}
      (lighter : weight left ≤ weight tokens) :
      Settles left 0
        (do
          let body ← Grammar.block n
          return { name, parameters, rest, body, file := (← read).file : Callable Statement })
        (do
          let body ← Grammar.block (extra + n)
          return { name, parameters, rest, body, file := (← read).file }) := by
    refine ((settles.block left (by omega)).mono (Nat.zero_le 1)).bind fun body left _ => ?_
    exact fun _ => ⟨rfl, Nat.le_refl _⟩
  rw [Grammar.callable, Grammar.callable]
  refine settles_expectName.bind fun name left _ => ?_
  refine .eatMark_bind (fun left _ => ?_) ?_
  · refine (settles_parameters extra n (by omega)).bind fun given left _ => ?_
    obtain ⟨parameters, rest⟩ := given
    exact behind name parameters rest (by omega)
  · exact behind name [] none (by omega)

theorem weight_of_elseAt? {condition : Bool} (found : elseAt? tokens = some (condition, rest)) :
    weight rest + 1 ≤ weight tokens := by
  unfold elseAt? at found
  split at found
  · next token behind starts =>
    have fewer := weight_of_significant starts
    have heavy := token.one_le_weight
    split at found
    · split at found
      · cases found
        omega
      · split at found
        · split at found
          · next second last follows =>
            have lighter := weight_of_significant follows
            split at found
            · cases found
              omega
            · cases found
              omega
          · cases found
            omega
        · cases found
    · cases found
  · cases found

theorem settles_branches (settles : SettlesStatements extra n) (enough : 32 * weight tokens + 1 ≤ n + 1) :
    Settles tokens 0 (Grammar.branches (n + 1)) (Grammar.branches (extra + n + 1)) := by
  rw [Grammar.branches, Grammar.branches]
  apply Settles.get_bind
  split
  · next rest found =>
    have fewer := weight_of_elseAt? found
    refine .set_bind fewer ?_
    refine ((settlesExpressions extra n).expression rest (by omega)).bind fun condition left _ => ?_
    refine (settles.block left (by omega)).bind fun body left _ => ?_
    exact (settles.branches left (by omega)).bind fun _ _ _ => .pure
  · next rest found =>
    have fewer := weight_of_elseAt? found
    refine .set_bind fewer ?_
    exact ((settles.block rest (by omega)).mono (Nat.zero_le 1)).bind fun _ _ _ => .pure
  · exact .pure

theorem settles_directive (settles : SettlesStatements extra n) (name : String) (pos : Position)
    (enough : 32 * weight tokens + 14 ≤ n + 1) :
    Settles tokens 0 (Grammar.directive (n + 1) name pos) (Grammar.directive (extra + n + 1) name pos) := by
  have expressions := settlesExpressions extra n
  have block (statement : List Statement → Statement) {left : List Token} (lighter : weight left ≤ weight tokens) :
      Settles left 0 (do return statement (← Grammar.block n)) (do return statement (← Grammar.block (extra + n))) :=
    ((settles.block left (by omega)).mono (Nat.zero_le 1)).bind fun _ _ _ => .pure
  have optional (statement : Option (List Statement) → Statement) {left : List Token}
      (lighter : weight left ≤ weight tokens) :
      Settles left 0 (do return statement (← Grammar.optionalBlock n))
        (do return statement (← Grammar.optionalBlock (extra + n))) :=
    (settles.optionalBlock left (by omega)).bind fun _ _ _ => .pure
  apply directive_cases name pos (motive := fun parse => Settles tokens 0 (parse n) (parse (extra + n)))
  case imports =>
    refine (settles_importTargets extra n (by omega)).bind fun targets left _ => ?_
    exact settles_endStatement.bind fun _ _ _ => .pure
  case mixin | function => exact (settles.callable tokens (by omega)).bind fun _ _ _ => .pure
  case inclusion =>
    refine settles_expectName.bind fun mixin left _ => ?_
    refine .eatMark_bind (fun left _ => ?_) ?_
    · refine (expressions.argumentList left (by omega)).stoppingAt.bind fun arguments left _ => ?_
      exact optional _ (by omega)
    · exact optional _ (by omega)
  case content =>
    refine (settles_atMark '(').bind fun opens left _ => ?_
    split
    · refine (expressions.argumentList left (by omega)).stoppingAt.bind fun arguments left _ => ?_
      exact settles_endStatement.bind fun _ _ _ => .pure
    · exact settles_endStatement.bind fun _ _ _ => .pure
  case result =>
    refine (expressions.expression tokens (by omega)).bind fun value left _ => ?_
    exact settles_endStatement.bind fun _ _ _ => .pure
  case branch =>
    refine (expressions.expression tokens (by omega)).bind fun condition left _ => ?_
    refine (settles.block left (by omega)).bind fun body left _ => ?_
    exact (settles.branches left (by omega)).bind fun _ _ _ => .pure
  case otherwise => exact .fail
  case forEach =>
    refine (settles_loopNames extra n (by omega)).bind fun names left _ => ?_
    refine (settles_expectWord "in").bind fun _ left _ => ?_
    refine ((expressions.expression left (by omega)).mono (Nat.zero_le 1)).bind fun items left _ => ?_
    exact block _ (by omega)
  case forRange =>
    refine settles_expectVariable.bind fun name left _ => ?_
    refine (settles_expectWord "from").bind fun _ left _ => ?_
    refine (expressions.expression left (by omega)).stoppingAt.bind fun first left _ => ?_
    refine settles_rangeWord.bind fun inclusive left _ => ?_
    refine (expressions.expression left (by omega)).bind fun last left _ => ?_
    exact block _ (by omega)
  case whileTrue =>
    refine (expressions.expression tokens (by omega)).bind fun condition left _ => ?_
    exact block _ (by omega)
  case tells => exact fun kind => settles.message kind pos tokens (by omega)
  case unsupported =>
    refine (expressions.rawTemplate _ _ tokens (by omega)).bind fun _ left _ => ?_
    exact (settles.optionalBlock left (by omega)).bind fun _ _ _ => .pure
  case media =>
    refine settles_skipTrivia.bind fun _ left _ => ?_
    refine (expressions.rawTemplate _ _ left (by omega)).bind fun query left _ => ?_
    exact block _ (by omega)
  case other =>
    refine settles_skipTrivia.bind fun _ left _ => ?_
    refine (expressions.rawTemplate _ _ left (by omega)).bind fun parameters left _ => ?_
    exact optional _ (by omega)

theorem settlesStatements (extra n : Nat) : SettlesStatements extra n := by
  induction n with
  | zero => constructor <;> intros <;> omega
  | succ n shallower =>
    exact {
      statements := fun inBlock _ => settles_statements shallower inBlock
      block := fun _ => settles_block shallower
      optionalBlock := fun _ => settles_optionalBlock shallower
      rule := fun pos _ => settles_rule shallower pos
      declaration := fun pos _ => settles_declaration shallower pos
      directive := fun name pos _ => settles_directive shallower name pos
      message := fun kind pos _ => settles_message extra kind pos
      callable := fun _ => settles_callable shallower
      branches := fun _ => settles_branches shallower }

end Grammar

/-- The limit is out of reach: more calls than a text is given change nothing, and no text is refused as it meets the
limit. -/
theorem Statement.parse_within_limit {source file : String} {limit : Nat}
    (enough : Grammar.expressionLimit source.toList ≤ limit) :
    Statement.parse source file false =
        Grammar.parseText source file Position.start (Grammar.statements limit false) ∧
      ∀ error, Statement.parse source file false = .error error → error.cause ≠ .limit := by
  obtain ⟨extra, rfl⟩ := Nat.exists_eq_add_of_le' enough
  have light := Grammar.weight_lex_le source Position.start
  have settles := (Grammar.settlesStatements extra (Grammar.expressionLimit source.toList)).statements false
    (lex source Position.start).tokens (by rw [Grammar.expressionLimit]; omega)
  exact Grammar.parseText_settles file settles

end Stylesheet
