import Stylesheet.Proofs.CutOff.Expressions
import Stylesheet.Proofs.SameKinds

/-! Two parsers side by side. Where two parsers of expressions read tokens of the same kinds, each with a bound of its own
on the depth, and neither fails, they come to the same place. -/

namespace Stylesheet

namespace Grammar

variable {α β γ δ : Type} {tokens tokens' rest rest' : List Token} {token token' : Token} {context : Context}

/-! Steps that the next token decides -/

section Steps

variable {c : Char} {next : Bool → Parse α}

theorem eatMark_taken (starts : startsMark tokens c = true) (context : Context) :
    (eatMark c >>= next) context tokens = next true context ((significant tokens).drop 1) := by
  have step : (eatMark c >>= next) context tokens =
      (eatMark c context tokens >>= fun (taken, left) => next taken context left) := rfl
  rw [step, eatMark_eq, if_pos starts]
  rfl

theorem eatMark_missing (other : startsMark tokens c = false) (context : Context) :
    (eatMark c >>= next) context tokens = next false context tokens := by
  have step : (eatMark c >>= next) context tokens =
      (eatMark c context tokens >>= fun (taken, left) => next taken context left) := rfl
  rw [step, eatMark_eq, if_neg (Bool.eq_false_iff.1 other)]
  rfl

theorem eatSpread_taken (starts : startsSpread tokens = true) (context : Context) :
    (eatSpread >>= next) context tokens = next true context ((significant tokens).drop 3) := by
  have step : (eatSpread >>= next) context tokens = ((if startsSpread tokens then
      (do modify fun tokens => (significant tokens).drop 3; return true) else return false : Parse Bool) >>= next)
      context tokens := rfl
  rw [step, if_pos starts]
  rfl

theorem eatSpread_missing (other : startsSpread tokens = false) (context : Context) :
    (eatSpread >>= next) context tokens = next false context tokens := by
  have step : (eatSpread >>= next) context tokens = ((if startsSpread tokens then
      (do modify fun tokens => (significant tokens).drop 3; return true) else return false : Parse Bool) >>= next)
      context tokens := rfl
  rw [step, if_neg (Bool.eq_false_iff.1 other)]
  rfl

/-- What comes next, without taking it. -/
theorem atMark_bind_eq {c : Char} {next : Bool → Parse α} (context : Context) :
    (atMark c >>= next) context tokens = next (startsMark tokens c) context tokens := rfl

theorem peek_bind_eq {next : Option Token → Parse α} (context : Context) :
    (peek >>= next) context tokens = next (significant tokens).head? context tokens := rfl

theorem advance_bind_eq {next : PUnit → Parse α} (context : Context) :
    (advance >>= next) context tokens = next ⟨⟩ context ((significant tokens).drop 1) := rfl

theorem get_bind_eq {next : List Token → Parse α} (context : Context) :
    (get >>= next) context tokens = next tokens context tokens := rfl

end Steps

section Closing

variable {c : Char} {next : PUnit → Parse α}

theorem expectMark_eq (c : Char) :
    expectMark c = (eatMark c >>= fun taken => if taken then pure ⟨⟩ else fail (.mark c)) := rfl

theorem expectMark_taken (starts : startsMark tokens c = true) (context : Context) :
    (expectMark c >>= next) context tokens = next ⟨⟩ context ((significant tokens).drop 1) := by
  rw [expectMark_eq, bind_assoc, eatMark_taken starts]
  rfl

theorem expectMark_missing (other : startsMark tokens c = false) (context : Context) :
    (expectMark c >>= next) context tokens = .error (errorAt context (.mark c) tokens) := by
  rw [expectMark_eq, bind_assoc, eatMark_missing other]
  rfl

theorem startsMark_of_expectMark {value : α} {left : List Token}
    (run : (expectMark c >>= next) context tokens = .ok (value, left)) :
    startsMark tokens c = true := by
  by_contra other
  rw [expectMark_missing (Bool.eq_false_iff.2 other)] at run
  cases run

end Closing

theorem startsMark_unique {c d : Char} (starts : startsMark tokens c = true) (other : c ≠ d) :
    startsMark tokens d = false := by
  unfold startsMark at *
  cases next : (significant tokens).head? with
  | none => rfl
  | some token =>
    rw [next] at starts
    change token.isMark d = false
    have starts : token.isMark c = true := starts
    unfold Token.isMark at *
    split at starts
    · next known =>
      obtain rfl := eq_of_beq starts
      exact beq_false_of_ne other
    · cases starts

theorem startsMark_of_startsSpread (starts : startsSpread tokens = true) : startsMark tokens '.' = true := by
  unfold startsSpread at starts
  unfold startsMark
  split at starts
  · next next =>
    rw [next]
    simp only [Bool.and_eq_true] at starts
    exact starts.1.1
  · cases starts

/-- Where neither of two parsers fails, they come to the same place. -/
def InStep (tokens tokens' : List Token) (parse : Parse α) (parse' : Parse β) : Prop :=
  ∀ context context', context.stops = context'.stops → ∀ value value' left left',
    parse context tokens = .ok (value, left) → parse' context' tokens' = .ok (value', left') → SameKinds left left'

/-- From the same place, two parsers come to the same place. -/
structure Parallel (parse : Parse α) (parse' : Parse β) : Prop where
  inStep : ∀ {tokens tokens'}, SameKinds tokens tokens' → InStep tokens tokens' parse parse'

/-- A question about the tokens that are left, which has the same answer wherever they stand. -/
def Tells (look : Parse Bool) : Prop :=
  ∀ context context' tokens tokens', context.stops = context'.stops → SameKinds tokens tokens' →
    ∃ answer, look context tokens = .ok (answer, tokens) ∧ look context' tokens' = .ok (answer, tokens')

theorem tells_atMark (c : Char) : Tells (atMark c) := fun _ _ tokens tokens' _ same =>
  ⟨startsMark tokens' c, congrArg (fun answer => Except.ok (answer, tokens)) (same.startsMark c), rfl⟩

theorem tells_atExpressionEnd : Tells atExpressionEnd := by
  intro context context' tokens tokens' stops same
  refine ⟨endsExpression context'.stops tokens', ?_, rfl⟩
  change Except.ok (endsExpression context.stops tokens, tokens) = _
  rw [stops, same.endsExpression]

namespace InStep

variable {parse : Parse α} {parse' : Parse β} {next : α → Parse γ} {next' : β → Parse δ}

theorem pure (same : SameKinds tokens tokens') {value : α} {value' : β} :
    InStep tokens tokens' (pure value) (pure value') := by
  intro context context' _ _ _ _ _ run run'
  cases run
  cases run'
  exact same

theorem fail {expected : Expectation} : InStep tokens tokens' (fail expected : Parse α) parse' := by
  intro context context' _ _ _ _ _ run
  cases run

theorem giveUp : InStep tokens tokens' (giveUp : Parse α) parse' := by
  intro context context' _ _ _ _ _ run
  cases run

theorem giveUp' : InStep tokens tokens' parse (Grammar.giveUp : Parse β) := by
  intro context context' _ _ _ _ _ _ run'
  cases run'

theorem bind (first : InStep tokens tokens' parse parse')
    (later : ∀ value value' left left', SameKinds left left' → InStep left left' (next value) (next' value')) :
    InStep tokens tokens' (parse >>= next) (parse' >>= next') := by
  intro context context' stops value value' left left' run run'
  obtain ⟨middle, between, parsed, run⟩ := bind_eq_ok run
  obtain ⟨middle', between', parsed', run'⟩ := bind_eq_ok run'
  exact later middle middle' between between' (first context context' stops _ _ _ _ parsed parsed') context context'
    stops value value' left left' run run'

/-- The first parser goes on as another one, somewhere else. -/
theorem left {other : Parse α} (goes : ∀ context, parse context tokens = other context rest)
    (later : InStep rest tokens' other parse') : InStep tokens tokens' parse parse' := by
  intro context context' stops value value' left left' run run'
  rw [goes] at run
  exact later context context' stops value value' left left' run run'

/-- The second parser goes on as another one, somewhere else. -/
theorem right {other : Parse β} (goes : ∀ context, parse' context tokens' = other context rest')
    (later : InStep tokens rest' parse other) : InStep tokens tokens' parse parse' := by
  intro context context' stops value value' left left' run run'
  rw [goes] at run'
  exact later context context' stops value value' left left' run run'

theorem stoppingAt {stops : List String} (inside : InStep tokens tokens' parse parse') :
    InStep tokens tokens' (stoppingAt stops parse) (stoppingAt stops parse') :=
  fun context context' _ => inside { context with stops } { context' with stops } rfl

theorem set_bind {next : PUnit → Parse γ} {next' : PUnit → Parse δ} (later : InStep rest rest' (next ⟨⟩) (next' ⟨⟩)) :
    InStep tokens tokens' (set rest >>= next) (set rest' >>= next') := later

theorem get_bind {next : List Token → Parse γ} {next' : List Token → Parse δ}
    (later : InStep tokens tokens' (next tokens) (next' tokens')) :
    InStep tokens tokens' (get >>= next) (get >>= next') := later

theorem peek_bind {next : Option Token → Parse γ} {next' : Option Token → Parse δ}
    (later : InStep tokens tokens' (next (significant tokens).head?) (next' (significant tokens').head?)) :
    InStep tokens tokens' (peek >>= next) (peek >>= next') := later

theorem modify_bind {f : List Token → List Token} {next : PUnit → Parse γ} {next' : PUnit → Parse δ}
    (later : InStep (f tokens) (f tokens') (next ⟨⟩) (next' ⟨⟩)) :
    InStep tokens tokens' (modify f >>= next) (modify f >>= next') := later

theorem advance_bind {next : PUnit → Parse γ} {next' : PUnit → Parse δ} (first : significant tokens = token :: rest)
    (second : significant tokens' = token' :: rest') (later : InStep rest rest' (next ⟨⟩) (next' ⟨⟩)) :
    InStep tokens tokens' (advance >>= next) (advance >>= next') := by
  apply modify_bind
  rwa [first, second, List.drop_succ_cons, List.drop_succ_cons, List.drop_zero, List.drop_zero]

end InStep

/-- The first parser misses a mark. -/
theorem InStep.refused {c : Char} {next : PUnit → Parse α} {parse' : Parse β} (other : startsMark tokens c = false) :
    InStep tokens tokens' (expectMark c >>= next) parse' := by
  intro context context' _ _ _ _ _ run
  rw [expectMark_missing other] at run
  cases run

/-- The second parser misses a mark. -/
theorem InStep.refused' {c : Char} {parse : Parse α} {next : PUnit → Parse β} (other : startsMark tokens' c = false) :
    InStep tokens tokens' parse (expectMark c >>= next) := by
  intro context context' _ _ _ _ _ _ run'
  rw [expectMark_missing other] at run'
  cases run'

namespace Parallel

variable {parse : Parse α} {parse' : Parse β} {next : α → Parse γ} {next' : β → Parse δ}

theorem pure {value : α} {value' : β} : Parallel (pure value) (pure value') := ⟨fun same => .pure same⟩

theorem fail {expected : Expectation} : Parallel (fail expected : Parse α) parse' := ⟨fun _ => .fail⟩

theorem giveUp : Parallel (giveUp : Parse α) parse' := ⟨fun _ => .giveUp⟩

theorem giveUp' : Parallel parse (Grammar.giveUp : Parse β) := ⟨fun _ => .giveUp'⟩

theorem bind (first : Parallel parse parse') (later : ∀ value value', Parallel (next value) (next' value')) :
    Parallel (parse >>= next) (parse' >>= next') :=
  ⟨fun same => (first.inStep same).bind fun value value' _ _ => (later value value').inStep⟩

theorem map {f : α → γ} {f' : β → δ} (inside : Parallel parse parse') : Parallel (f <$> parse) (f' <$> parse') := by
  rw [← bind_pure_comp, ← bind_pure_comp]
  exact inside.bind fun _ _ => .pure

theorem stoppingAt {stops : List String} (inside : Parallel parse parse') :
    Parallel (stoppingAt stops parse) (stoppingAt stops parse') :=
  ⟨fun same => (inside.inStep same).stoppingAt⟩

/-- What is asked has one answer. -/
theorem ask_bind {look : Parse Bool} {next : Bool → Parse γ} {next' : Bool → Parse δ} (tells : Tells look)
    (later : ∀ answer, Parallel (next answer) (next' answer)) : Parallel (look >>= next) (look >>= next') := by
  refine ⟨fun {tokens tokens'} same context context' stops value value' left left' run run' => ?_⟩
  obtain ⟨answer, asked, asked'⟩ := tells context context' tokens tokens' stops same
  obtain ⟨found, between, parsed, run⟩ := bind_eq_ok run
  obtain ⟨found', between', parsed', run'⟩ := bind_eq_ok run'
  cases asked.symm.trans parsed
  cases asked'.symm.trans parsed'
  exact (later answer).inStep same context context' stops value value' left left' run run'

theorem eatMark_bind {c : Char} {next : Bool → Parse γ} {next' : Bool → Parse δ}
    (later : ∀ answer, Parallel (next answer) (next' answer)) : Parallel (eatMark c >>= next) (eatMark c >>= next') := by
  refine ⟨fun {tokens tokens'} same => ?_⟩
  cases starts : startsMark tokens' c with
  | true =>
    refine .left (eatMark_taken ((same.startsMark c).trans starts)) (.right (eatMark_taken starts) ?_)
    exact (later true).inStep (same.significant.drop 1)
  | false =>
    refine .left (eatMark_missing ((same.startsMark c).trans starts)) (.right (eatMark_missing starts) ?_)
    exact (later false).inStep same

theorem eatSpread_bind {next : Bool → Parse γ} {next' : Bool → Parse δ}
    (later : ∀ answer, Parallel (next answer) (next' answer)) :
    Parallel (eatSpread >>= next) (eatSpread >>= next') := by
  refine ⟨fun {tokens tokens'} same => ?_⟩
  cases starts : startsSpread tokens' with
  | true =>
    refine .left (eatSpread_taken (same.startsSpread.trans starts)) (.right (eatSpread_taken starts) ?_)
    exact (later true).inStep (same.significant.drop 3)
  | false =>
    refine .left (eatSpread_missing (same.startsSpread.trans starts)) (.right (eatSpread_missing starts) ?_)
    exact (later false).inStep same

end Parallel

theorem Parallel.return_left {parse : Parse α} {parse' : Parse β} {f : α → γ} (inside : Parallel parse parse') :
    Parallel (do return f (← parse)) parse' := by
  refine ⟨fun {tokens tokens'} same context context' stops value value' left left' run run' => ?_⟩
  obtain ⟨middle, between, parsed, run⟩ := bind_eq_ok run
  cases run
  exact inside.inStep same context context' stops middle value' left left' parsed run'

variable {n m : Nat}

/-- A text of its own takes no tokens. -/
theorem parallel_textTemplate (n m : Nat) (pos pos' : Position) (cs cs' : List Char) :
    Parallel (textTemplate n pos cs) (textTemplate m pos' cs') := by
  refine ⟨fun {tokens tokens'} same context context' _ value value' left left' run run' => ?_⟩
  obtain ⟨rfl, -⟩ := carries_textTemplate n pos cs context context tokens tokens value left rfl run
  obtain ⟨rfl, -⟩ := carries_textTemplate m pos' cs' context' context' tokens' tokens' value' left' rfl run'
  exact same

theorem parallel_expectMark (c : Char) : Parallel (expectMark c) (expectMark c) := by
  apply Parallel.eatMark_bind
  intro taken
  cases taken
  · exact .fail
  · exact .pure

theorem parallel_closing (c : Char) {value : α} {value' : β} :
    Parallel (do expectMark c; return value) (do expectMark c; return value') :=
  (parallel_expectMark c).bind fun _ _ => .pure

theorem parallel_advance : Parallel advance advance :=
  ⟨fun same => .modify_bind (.pure (same.significant.drop 1))⟩

/-- The parsers of expressions, as long as they go no deeper than two bounds. -/
structure ParallelExpressions (n m : Nat) : Prop where
  expression : Parallel (Grammar.expression n) (Grammar.expression m)
  commaItems : ∀ {atEnd}, Tells atEnd → Parallel (Grammar.commaItems n atEnd) (Grammar.commaItems m atEnd)
  spaceList : Parallel (Grammar.spaceList n) (Grammar.spaceList m)
  spaceItems : Parallel (Grammar.spaceItems n) (Grammar.spaceItems m)
  operation : ∀ level, Parallel (Grammar.operation n level) (Grammar.operation m level)
  operationsOn : ∀ level left left', Parallel (Grammar.operationsOn n level left) (Grammar.operationsOn m level left')
  operand : Parallel (Grammar.operand n) (Grammar.operand m)
  primary : ∀ {tokens tokens' token token' rest rest'}, significant tokens = token :: rest →
    significant tokens' = token' :: rest' → token.kind = token'.kind → SameKinds rest rest' →
    InStep tokens tokens' (Grammar.primary n token) (Grammar.primary m token')
  parenthesized : ∀ pos pos', Parallel (Grammar.parenthesized n pos) (Grammar.parenthesized m pos')
  mapEntries : Parallel (Grammar.mapEntries n) (Grammar.mapEntries m)
  bracketed : Parallel (Grammar.bracketed n) (Grammar.bracketed m)
  word : ∀ name pos pos', Parallel (Grammar.word n name pos) (Grammar.word m name pos')
  bareWord : Parallel (Grammar.bareWord n) (Grammar.bareWord m)
  verbatimCall : ∀ name, Parallel (Grammar.verbatimCall n name) (Grammar.verbatimCall m name)
  argumentList : Parallel (Grammar.argumentList n) (Grammar.argumentList m)
  moreArguments : Parallel (Grammar.moreArguments n) (Grammar.moreArguments m)
  interpolationBody : Parallel (Grammar.interpolationBody n) (Grammar.interpolationBody m)
  rawTemplate : ∀ withVariables ends,
    Parallel (Grammar.rawTemplate n withVariables ends) (Grammar.rawTemplate m withVariables ends)
  rawPieces : ∀ withVariables ends depth started, Parallel (Grammar.rawPieces n withVariables ends depth started)
    (Grammar.rawPieces m withVariables ends depth started)

theorem parallel_expression (shallower : ParallelExpressions n m) :
    Parallel (Grammar.expression (n + 1)) (Grammar.expression (m + 1)) := by
  rw [Grammar.expression, Grammar.expression]
  apply shallower.spaceList.bind
  intro first first'
  apply Parallel.ask_bind (tells_atMark ',')
  intro more
  cases more
  · exact .pure
  · exact (shallower.commaItems tells_atExpressionEnd).bind fun _ _ => .pure

theorem parallel_commaItems (shallower : ParallelExpressions n m) {atEnd : Parse Bool} (tells : Tells atEnd) :
    Parallel (Grammar.commaItems (n + 1) atEnd) (Grammar.commaItems (m + 1) atEnd) := by
  rw [Grammar.commaItems, Grammar.commaItems]
  apply Parallel.eatMark_bind
  intro more
  cases more
  · exact .pure
  · apply Parallel.ask_bind tells
    intro ended
    cases ended
    · apply shallower.spaceList.bind
      intro item item'
      exact (shallower.commaItems tells).bind fun _ _ => .pure
    · exact .pure

theorem parallel_spaceList (shallower : ParallelExpressions n m) :
    Parallel (Grammar.spaceList (n + 1)) (Grammar.spaceList (m + 1)) := by
  rw [Grammar.spaceList, Grammar.spaceList]
  apply Parallel.ask_bind tells_atExpressionEnd
  intro ended
  cases ended
  · apply (shallower.operation 0).bind
    intro first first'
    exact shallower.spaceItems.bind fun _ _ => .pure
  · exact .fail

theorem parallel_spaceItems (shallower : ParallelExpressions n m) :
    Parallel (Grammar.spaceItems (n + 1)) (Grammar.spaceItems (m + 1)) := by
  rw [Grammar.spaceItems, Grammar.spaceItems]
  apply Parallel.ask_bind tells_atExpressionEnd
  intro ended
  refine ⟨fun {tokens tokens'} same => ?_⟩
  apply InStep.get_bind
  rw [same.startsSpread]
  split
  · exact .pure same
  · apply ((shallower.operation 0).inStep same).bind
    intro item item' left left' same
    exact (shallower.spaceItems.bind fun _ _ => .pure).inStep same

theorem parallel_operation (shallower : ParallelExpressions n m) (level : Nat) :
    Parallel (Grammar.operation (n + 1) level) (Grammar.operation (m + 1) level) := by
  rw [Grammar.operation, Grammar.operation]
  split
  · exact (shallower.operation (level + 1)).bind (shallower.operationsOn level)
  · exact shallower.operand

theorem parallel_operationsOn (shallower : ParallelExpressions n m) (level : Nat) (left left' : Expr) :
    Parallel (Grammar.operationsOn (n + 1) level left) (Grammar.operationsOn (m + 1) level left') := by
  rw [Grammar.operationsOn, Grammar.operationsOn]
  refine ⟨fun {tokens tokens'} same => ?_⟩
  apply InStep.get_bind
  rcases same.operatorAt? level with ⟨none, none'⟩ | ⟨op, pos, pos', rest, rest', first, second, behind⟩
  · rw [none, none']
    exact .pure same
  · rw [first, second]
    apply InStep.set_bind
    exact ((shallower.operation (level + 1)).bind fun _ _ => shallower.operationsOn level _ _).inStep behind

theorem parallel_operand (shallower : ParallelExpressions n m) :
    Parallel (Grammar.operand (n + 1)) (Grammar.operand (m + 1)) := by
  rw [Grammar.operand, Grammar.operand]
  refine ⟨fun {tokens tokens'} same => ?_⟩
  apply InStep.peek_bind
  rcases same.ahead with ⟨empty, empty'⟩ | ⟨token, token', rest, rest', first, second, kind, behind⟩
  · rw [empty]
    exact .fail
  · have signs : unaryOpOf? token.kind = unaryOpOf? token'.kind := by rw [kind]
    rw [first, second]
    dsimp only [List.head?_cons]
    rw [signs]
    split
    · exact .advance_bind first second ((shallower.operand.bind fun _ _ => .pure).inStep behind)
    · exact shallower.primary first second kind behind

theorem inStep_primary (shallower : ParallelExpressions n m) (first : significant tokens = token :: rest)
    (second : significant tokens' = token' :: rest') (kind : token.kind = token'.kind) (behind : SameKinds rest rest') :
    InStep tokens tokens' (Grammar.primary (n + 1) token) (Grammar.primary (m + 1) token') := by
  rw [Grammar.primary, Grammar.primary, kind]
  split
  case h_1 | h_2 | h_5 | h_8 => exact .advance_bind first second (.pure behind)
  case h_3 | h_4 =>
    exact .advance_bind first second (((parallel_textTemplate _ _ _ _ _ _).bind fun _ _ => .pure).inStep behind)
  case h_6 => exact .advance_bind first second ((shallower.parenthesized _ _).stoppingAt.inStep behind)
  case h_7 => exact .advance_bind first second (shallower.bracketed.stoppingAt.inStep behind)
  case h_9 name _ => exact .advance_bind first second ((shallower.word name _ _).inStep behind)
  case h_10 =>
    apply InStep.modify_bind
    rw [first, second]
    exact (shallower.bareWord.bind fun _ _ => .pure).inStep (.cons kind behind)
  case h_11 => exact .fail

theorem parallel_parenthesized (shallower : ParallelExpressions n m) (pos pos' : Position) :
    Parallel (Grammar.parenthesized (n + 1) pos) (Grammar.parenthesized (m + 1) pos') := by
  rw [Grammar.parenthesized, Grammar.parenthesized]
  apply Parallel.eatMark_bind
  intro empty
  cases empty
  · apply shallower.spaceList.bind
    intro first first'
    apply Parallel.eatMark_bind
    intro isMap
    cases isMap
    · apply Parallel.ask_bind (tells_atMark ',')
      intro more
      cases more
      · exact parallel_closing ')'
      · exact (shallower.commaItems (tells_atMark ')')).bind fun _ _ => parallel_closing ')'
    · apply shallower.spaceList.bind
      intro value value'
      exact shallower.mapEntries.bind fun _ _ => parallel_closing ')'
  · exact .pure

theorem parallel_mapEntries (shallower : ParallelExpressions n m) :
    Parallel (Grammar.mapEntries (n + 1)) (Grammar.mapEntries (m + 1)) := by
  rw [Grammar.mapEntries, Grammar.mapEntries]
  apply Parallel.eatMark_bind
  intro more
  cases more
  · exact .pure
  · apply Parallel.ask_bind (tells_atMark ')')
    intro ended
    cases ended
    · apply shallower.spaceList.bind
      intro key key'
      apply (parallel_expectMark ':').bind
      intro _ _
      apply shallower.spaceList.bind
      intro value value'
      exact shallower.mapEntries.bind fun _ _ => .pure
    · exact .pure

theorem parallel_bracketed (shallower : ParallelExpressions n m) :
    Parallel (Grammar.bracketed (n + 1)) (Grammar.bracketed (m + 1)) := by
  rw [Grammar.bracketed, Grammar.bracketed]
  apply Parallel.ask_bind (tells_atMark ']')
  intro empty
  cases empty
  · exact shallower.expression.map.bind fun _ _ => parallel_closing ']'
  · exact parallel_closing ']'

theorem parallel_word (shallower : ParallelExpressions n m) (name : String) (pos pos' : Position) :
    Parallel (Grammar.word (n + 1) name pos) (Grammar.word (m + 1) name pos') := by
  rw [Grammar.word, Grammar.word]
  refine ⟨fun {tokens tokens'} same => ?_⟩
  apply InStep.get_bind
  cases same with
  | nil => exact .pure .nil
  | @cons token token' rest rest' kind behind =>
    dsimp only
    rw [Token.isMark_congr kind, kind]
    split
    · apply InStep.set_bind
      split
      · exact (shallower.verbatimCall name).inStep behind
      · exact (shallower.argumentList.stoppingAt.bind fun _ _ => .pure).inStep behind
    · split
      · exact (shallower.bareWord.bind fun _ _ => .pure).inStep (.cons kind behind)
      · exact .pure (.cons kind behind)

theorem parallel_bareWord (shallower : ParallelExpressions n m) :
    Parallel (Grammar.bareWord (n + 1)) (Grammar.bareWord (m + 1)) := by
  rw [Grammar.bareWord, Grammar.bareWord]
  refine ⟨fun {tokens tokens'} same => ?_⟩
  apply InStep.get_bind
  cases same with
  | nil => exact .pure .nil
  | @cons token token' rest rest' kind behind =>
    have joined {text text' : String} : InStep rest rest'
        (do return Template.consText text (← Grammar.bareWord n))
        (do return Template.consText text' (← Grammar.bareWord m)) :=
      (shallower.bareWord.bind fun _ _ => .pure).inStep behind
    dsimp only
    rw [kind, behind.joinsWord]
    split
    · exact .set_bind joined
    · exact .set_bind joined
    · apply InStep.set_bind
      exact (shallower.interpolationBody.bind fun _ _ => shallower.bareWord.bind fun _ _ => .pure).inStep behind
    · split
      · exact .set_bind joined
      · exact .pure (.cons kind behind)
    · exact .pure (.cons kind behind)

theorem parallel_verbatimCall (shallower : ParallelExpressions n m) (name : String) :
    Parallel (Grammar.verbatimCall (n + 1) name) (Grammar.verbatimCall (m + 1) name) := by
  rw [Grammar.verbatimCall, Grammar.verbatimCall]
  apply (shallower.rawTemplate false [')']).bind
  intro inner inner'
  refine ⟨fun {tokens tokens'} same => ?_⟩
  apply InStep.get_bind
  cases same with
  | nil => exact .fail
  | cons kind behind => exact .set_bind (.pure behind)

theorem parallel_argumentList (shallower : ParallelExpressions n m) :
    Parallel (Grammar.argumentList (n + 1)) (Grammar.argumentList (m + 1)) := by
  rw [Grammar.argumentList, Grammar.argumentList]
  apply Parallel.eatMark_bind
  intro empty
  cases empty
  · refine ⟨fun {tokens tokens'} same => ?_⟩
    apply InStep.get_bind
    rw [same.keywordAt?]
    split
    · refine (parallel_advance.bind fun _ _ => ?_).inStep same
      apply (parallel_expectMark ':').bind
      intro _ _
      apply shallower.spaceList.bind
      intro value value'
      exact shallower.moreArguments.bind fun _ _ => .pure
    · refine (shallower.spaceList.bind fun _ _ => ?_).inStep same
      apply Parallel.eatSpread_bind
      intro spread
      cases spread
      · exact shallower.moreArguments.bind fun _ _ => .pure
      · exact shallower.moreArguments.bind fun _ _ => .pure
  · exact .pure

theorem parallel_moreArguments (shallower : ParallelExpressions n m) :
    Parallel (Grammar.moreArguments (n + 1)) (Grammar.moreArguments (m + 1)) := by
  rw [Grammar.moreArguments, Grammar.moreArguments]
  apply Parallel.eatMark_bind
  intro more
  cases more
  · exact parallel_closing ')'
  · exact shallower.argumentList

theorem parallel_interpolationBody (shallower : ParallelExpressions n m) :
    Parallel (Grammar.interpolationBody (n + 1)) (Grammar.interpolationBody (m + 1)) := by
  rw [Grammar.interpolationBody, Grammar.interpolationBody]
  exact shallower.expression.stoppingAt.bind fun _ _ => parallel_closing '}'

theorem parallel_rawTemplate (shallower : ParallelExpressions n m) (withVariables : Bool) (ends : List Char) :
    Parallel (Grammar.rawTemplate (n + 1) withVariables ends) (Grammar.rawTemplate (m + 1) withVariables ends) := by
  rw [Grammar.rawTemplate, Grammar.rawTemplate]
  exact (shallower.rawPieces withVariables ends 0 false).bind fun _ _ => .pure

theorem parallel_rawPieces (shallower : ParallelExpressions n m) (withVariables : Bool) (ends : List Char)
    (depth : Nat) (started : Bool) :
    Parallel (Grammar.rawPieces (n + 1) withVariables ends depth started)
      (Grammar.rawPieces (m + 1) withVariables ends depth started) := by
  rw [Grammar.rawPieces, Grammar.rawPieces]
  have later {next next' : Template Expr → Template Expr} (depth : Nat) (started : Bool) :
      Parallel (do return next (← Grammar.rawPieces n withVariables ends depth started))
        (do return next' (← Grammar.rawPieces m withVariables ends depth started)) :=
    (shallower.rawPieces withVariables ends depth started).bind fun _ _ => .pure
  refine ⟨fun {tokens tokens'} same => ?_⟩
  apply InStep.get_bind
  cases same with
  | nil => exact .pure .nil
  | @cons token token' rest rest' kind behind =>
    have marks : token.isMark = token'.isMark := funext (Token.isMark_congr kind)
    dsimp only
    rw [marks, kind]
    split
    · exact .pure (.cons kind behind)
    · apply InStep.set_bind
      cases token'.kind with
      | interpolation => exact (shallower.interpolationBody.bind fun _ _ => later depth true).inStep behind
      | «variable» => exact (later depth true).inStep behind
      | quoted => exact ((parallel_textTemplate _ _ _ _ _ _).bind fun _ _ => later depth true).inStep behind
      | blank => exact (later depth started).inStep behind
      | comment => exact (shallower.rawPieces withVariables ends depth started).inStep behind
      | _ => exact (later _ true).inStep behind

/-- By induction on the first bound. Nothing is compared where one of the two parsers has given up. -/
theorem parallelExpressions (n m : Nat) : ParallelExpressions n m := by
  induction n generalizing m with
  | zero =>
    exact {
      expression := .giveUp
      commaItems := fun _ => .giveUp
      spaceList := .giveUp
      spaceItems := .giveUp
      operation := fun _ => .giveUp
      operationsOn := fun _ _ _ => .giveUp
      operand := .giveUp
      primary := fun _ _ _ _ => .giveUp
      parenthesized := fun _ _ => .giveUp
      mapEntries := .giveUp
      bracketed := .giveUp
      word := fun _ _ _ => .giveUp
      bareWord := .giveUp
      verbatimCall := fun _ => .giveUp
      argumentList := .giveUp
      moreArguments := .giveUp
      interpolationBody := .giveUp
      rawTemplate := fun _ _ => .giveUp
      rawPieces := fun _ _ _ _ => .giveUp }
  | succ n shallower =>
    cases m with
    | zero =>
      exact {
        expression := .giveUp'
        commaItems := fun _ => .giveUp'
        spaceList := .giveUp'
        spaceItems := .giveUp'
        operation := fun _ => .giveUp'
        operationsOn := fun _ _ _ => .giveUp'
        operand := .giveUp'
        primary := fun _ _ _ _ => .giveUp'
        parenthesized := fun _ _ => .giveUp'
        mapEntries := .giveUp'
        bracketed := .giveUp'
        word := fun _ _ _ => .giveUp'
        bareWord := .giveUp'
        verbatimCall := fun _ => .giveUp'
        argumentList := .giveUp'
        moreArguments := .giveUp'
        interpolationBody := .giveUp'
        rawTemplate := fun _ _ => .giveUp'
        rawPieces := fun _ _ _ _ => .giveUp' }
    | succ m =>
      have shallower := shallower m
      exact {
        expression := parallel_expression shallower
        commaItems := parallel_commaItems shallower
        spaceList := parallel_spaceList shallower
        spaceItems := parallel_spaceItems shallower
        operation := parallel_operation shallower
        operationsOn := parallel_operationsOn shallower
        operand := parallel_operand shallower
        primary := inStep_primary shallower
        parenthesized := parallel_parenthesized shallower
        mapEntries := parallel_mapEntries shallower
        bracketed := parallel_bracketed shallower
        word := parallel_word shallower
        bareWord := parallel_bareWord shallower
        verbatimCall := parallel_verbatimCall shallower
        argumentList := parallel_argumentList shallower
        moreArguments := parallel_moreArguments shallower
        interpolationBody := parallel_interpolationBody shallower
        rawTemplate := parallel_rawTemplate shallower
        rawPieces := parallel_rawPieces shallower }

end Grammar

end Stylesheet
