import Stylesheet.Proofs.CutOff.Following
import Stylesheet.Proofs.ReadingCases

/-! Expressions in a text that is cut off. -/

namespace Stylesheet.Grammar

variable {α β : Type} {short long rest rest' : List Token} {token token' : Token}

/-- What is read from a text of its own does not depend on the tokens around it. -/
def Carries (parse : Parse α) : Prop :=
  ∀ context context' tokens tokens' value left, context.file = context'.file →
    parse context' tokens' = .ok (value, left) → left = tokens' ∧ parse context tokens = .ok (value, tokens)

theorem Carries.followsOn {parse : Parse α} (carries : Carries parse) (continues : Continues short long) :
    FollowsOn short long parse parse := by
  intro context context' alike value left' run
  obtain ⟨rfl, same⟩ := carries context context' short long value left' alike.file run
  rw [same]
  exact .inr ⟨rfl, continues⟩

theorem Carries.pure {value : α} : Carries (pure value) := by
  intro context context' tokens tokens' found left _ run
  cases run
  exact ⟨rfl, rfl⟩

theorem Carries.bind {parse : Parse α} {next : α → Parse β} (first : Carries parse)
    (later : ∀ value, Carries (next value)) : Carries (parse >>= next) := by
  intro context context' tokens tokens' value left same run
  obtain ⟨middle, between, parsed, remaining⟩ := bind_eq_ok run
  obtain ⟨rfl, here⟩ := first context context' tokens tokens' middle between same parsed
  obtain ⟨rfl, there⟩ := later middle context context' tokens between value left same remaining
  refine ⟨rfl, ?_⟩
  have step : (parse >>= next) context tokens =
      (parse context tokens >>= fun (found, left) => next found context left) := rfl
  rw [step, here]
  exact there

theorem carries_embedded (n : Nat) (pos : Position) (cs : List Char) : Carries (embedded n pos cs) := by
  intro context context' tokens tokens' value left same run
  cases n with
  | zero => cases run
  | succ n =>
    rw [embedded] at run ⊢
    obtain ⟨code, parsed, found⟩ := Css.Except.map_eq_ok run
    cases found
    refine ⟨rfl, ?_⟩
    dsimp only
    rw [same, parsed]
    rfl

theorem carries_textTemplate (n : Nat) (pos : Position) (cs : List Char) : Carries (textTemplate n pos cs) := by
  induction n generalizing pos cs with
  | zero =>
    intro context context' tokens tokens' value left _ run
    cases run
  | succ n shorter =>
    rw [textTemplate]
    split
    · exact .pure
    · dsimp only
      split
      · intro context context' tokens tokens' value left _ run
        cases run
      · apply (carries_embedded n _ _).bind
        intro code
        apply (shorter _ _).bind
        intro more
        exact .pure

/-- The parsers of expressions, as long as they go no deeper than a bound. -/
structure BreaksOffExpressions (n : Nat) : Prop where
  expression : BreaksOff (Grammar.expression n)
  commaItems : ∀ atEnd, BreaksOff atEnd → BreaksOff (Grammar.commaItems n atEnd)
  spaceList : BreaksOff (Grammar.spaceList n)
  spaceItems : BreaksOff (Grammar.spaceItems n)
  operation : ∀ level, BreaksOff (Grammar.operation n level)
  operationsOn : ∀ level left, BreaksOff (Grammar.operationsOn n level left)
  operand : BreaksOff (Grammar.operand n)
  primary : ∀ {short long token rest rest'}, significant short = token :: rest → significant long = token :: rest' →
    Continues rest rest' → FollowsOn short long (Grammar.primary n token) (Grammar.primary n token)
  lastPrimary : ∀ {short long token token'}, significant short = [token] → token.kind.Becomes token'.kind →
    FollowsOn short long (Grammar.primary n token) (Grammar.primary n token')
  parenthesized : ∀ pos, BreaksOff (Grammar.parenthesized n pos)
  mapEntries : BreaksOff (Grammar.mapEntries n)
  bracketed : BreaksOff (Grammar.bracketed n)
  word : ∀ name pos, BreaksOff (Grammar.word n name pos)
  bareWord : BreaksOff (Grammar.bareWord n)
  verbatimCall : ∀ name, BreaksOff (Grammar.verbatimCall n name)
  argumentList : BreaksOff (Grammar.argumentList n)
  moreArguments : BreaksOff (Grammar.moreArguments n)
  interpolationBody : BreaksOff (Grammar.interpolationBody n)
  rawTemplate : ∀ withVariables ends, BreaksOff (Grammar.rawTemplate n withVariables ends)
  rawPieces : ∀ withVariables ends depth started, BreaksOff (Grammar.rawPieces n withVariables ends depth started)

variable {n : Nat}

theorem breaksOff_closing (c : Char) (value : α) : BreaksOff (do expectMark c; return value) :=
  (breaksOff_expectMark c).bind fun _ => .pure

theorem breaksOff_expression (breaks : BreaksOffExpressions n) : BreaksOff (Grammar.expression (n + 1)) := by
  rw [Grammar.expression]
  apply breaks.spaceList.bind
  intro first
  apply (breaksOff_atMark (by decide)).bind
  intro more
  split
  · exact (breaks.commaItems _ breaksOff_atExpressionEnd).bind fun _ => .pure
  · exact .pure

theorem breaksOff_commaItems (breaks : BreaksOffExpressions n) {atEnd : Parse Bool} (last : BreaksOff atEnd) :
    BreaksOff (Grammar.commaItems (n + 1) atEnd) := by
  rw [Grammar.commaItems]
  apply (breaksOff_eatMark (by decide)).bind
  intro more
  split
  · apply last.bind
    intro ended
    split
    · exact .pure
    · apply breaks.spaceList.bind
      intro item
      exact (breaks.commaItems atEnd last).bind fun _ => .pure
  · exact .pure

theorem breaksOff_spaceList (breaks : BreaksOffExpressions n) : BreaksOff (Grammar.spaceList (n + 1)) := by
  rw [Grammar.spaceList]
  apply breaksOff_atExpressionEnd.bind
  intro ended
  split
  · exact .fail
  · apply (breaks.operation 0).bind
    intro first
    exact breaks.spaceItems.bind fun _ => .pure

theorem breaksOff_spaceItems (breaks : BreaksOffExpressions n) : BreaksOff (Grammar.spaceItems (n + 1)) := by
  rw [Grammar.spaceItems]
  apply breaksOff_atExpressionEnd.bind
  intro ended
  refine .look_bind (fun tokens => ?_) fun short long continues => by rw [continues.startsSpread]
  split
  · exact .pure
  · apply (breaks.operation 0).bind
    intro item
    exact breaks.spaceItems.bind fun _ => .pure

theorem breaksOff_operation (breaks : BreaksOffExpressions n) (level : Nat) :
    BreaksOff (Grammar.operation (n + 1) level) := by
  rw [Grammar.operation]
  split
  · exact (breaks.operation (level + 1)).bind fun operand => breaks.operationsOn level operand
  · exact breaks.operand

theorem breaksOff_operationsOn (breaks : BreaksOffExpressions n) (level : Nat) (operand : Expr) :
    BreaksOff (Grammar.operationsOn (n + 1) level operand) := by
  rw [Grammar.operationsOn]
  refine .get_bind (fun tokens ended => ?_) fun short long continues => ?_
  · rw [operatorAt?_of_ended ended]
    exact .pure ended
  · rcases operatorAt?_continues level continues with ⟨none, none'⟩ | ⟨op, pos, rest, rest', first, second, behind⟩
    · rw [none, none']
      exact .pure continues
    · rw [first, second]
      refine .set_bind (.bind ((breaks.operation (level + 1)).follows rest rest' behind) fun right => ?_)
      exact breaks.operationsOn level _

theorem breaksOff_operand (breaks : BreaksOffExpressions n) : BreaksOff (Grammar.operand (n + 1)) := by
  rw [Grammar.operand]
  refine .peek_bind (fun _ => .fail) (fun {short long token rest rest'} _ first second behind => ?_)
    fun {short long token token'} _ first becomes => ?_
  · dsimp only
    split
    · exact .advance_bind first second ((breaks.operand.bind fun _ => .pure).follows rest rest' behind)
    · exact breaks.primary first second behind
  · dsimp only
    rw [(unaryOpOf?_of_becomes becomes).1, (unaryOpOf?_of_becomes becomes).2]
    exact breaks.lastPrimary first becomes

theorem knownStops : ∀ word ∈ ([] : List String), isKnown word = true := nofun

theorem followsOn_primary (breaks : BreaksOffExpressions n) (first : significant short = token :: rest)
    (second : significant long = token :: rest') (behind : Continues rest rest') :
    FollowsOn short long (Grammar.primary (n + 1) token) (Grammar.primary (n + 1) token) := by
  apply primary_cases token (motive := fun parse => FollowsOn short long (parse n) (parse n))
  case number | hash | named | parent =>
    intros
    exact .advance_bind first second (.pure behind)
  case quoted =>
    intro contents quote _
    have text := (carries_textTemplate n (shifted token.pos 1) contents.toList).followsOn behind
    exact .advance_bind first second (text.bind fun _ => .pure)
  case address =>
    intro contents _
    have text := (carries_textTemplate n (shifted token.pos 4) contents.toList).followsOn behind
    exact .advance_bind first second (text.bind fun _ => .pure)
  case parenthesis =>
    exact .advance_bind first second (((breaks.parenthesized token.pos).stoppingAt knownStops).follows _ _ behind)
  case bracket => exact .advance_bind first second ((breaks.bracketed.stoppingAt knownStops).follows _ _ behind)
  case identifier =>
    intro name _
    exact .advance_bind first second ((breaks.word name token.pos).follows _ _ behind)
  case code =>
    intro _
    refine .modify_bind ?_
    rw [first, second]
    exact (breaks.bareWord.bind fun _ => .pure).follows _ _ (.cons behind)
  case other => exact .fail

theorem followsOn_lastPrimary (breaks : BreaksOffExpressions n) (first : significant short = [token])
    (becomes : token.kind.Becomes token'.kind) :
    FollowsOn short long (Grammar.primary (n + 1) token) (Grammar.primary (n + 1) token') := by
  rw [Grammar.primary, Grammar.primary]
  generalize token.kind = kind, token'.kind = kind' at becomes
  cases becomes with
  | blank | atKeyword => exact .fail
  | ident => exact .advance_last first (breaks.word _ token.pos)
  | «variable» | hash => exact .advance_last first .pure

theorem breaksOff_parenthesized (breaks : BreaksOffExpressions n) (pos : Position) :
    BreaksOff (Grammar.parenthesized (n + 1) pos) := by
  rw [Grammar.parenthesized]
  apply (breaksOff_eatMark (by decide)).bind
  intro empty
  split
  · exact .pure
  · apply breaks.spaceList.bind
    intro first
    apply (breaksOff_eatMark (by decide)).bind
    intro isMap
    split
    · apply breaks.spaceList.bind
      intro value
      apply breaks.mapEntries.bind
      intro entries
      exact breaksOff_closing ')' _
    · apply (breaksOff_atMark (by decide)).bind
      intro more
      split
      · apply (breaks.commaItems _ (breaksOff_atMark (by decide))).bind
        intro items
        exact breaksOff_closing ')' _
      · exact breaksOff_closing ')' _

theorem breaksOff_mapEntries (breaks : BreaksOffExpressions n) : BreaksOff (Grammar.mapEntries (n + 1)) := by
  rw [Grammar.mapEntries]
  apply (breaksOff_eatMark (by decide)).bind
  intro more
  split
  · apply (breaksOff_atMark (by decide)).bind
    intro ended
    split
    · exact .pure
    · apply breaks.spaceList.bind
      intro key
      apply (breaksOff_expectMark ':').bind
      intro _
      apply breaks.spaceList.bind
      intro value
      exact breaks.mapEntries.bind fun _ => .pure
  · exact .pure

theorem breaksOff_bracketed (breaks : BreaksOffExpressions n) : BreaksOff (Grammar.bracketed (n + 1)) := by
  rw [Grammar.bracketed]
  apply (breaksOff_atMark (by decide)).bind
  intro empty
  split
  · exact breaksOff_closing ']' _
  · exact breaks.expression.map.bind fun inner => breaksOff_closing ']' _

theorem breaksOff_word (breaks : BreaksOffExpressions n) (name : String) (pos : Position) :
    BreaksOff (Grammar.word (n + 1) name pos) := by
  have call : BreaksOff (do
      if verbatimFunctions.contains name.toLower then Grammar.verbatimCall n name
      else return .call name (← stoppingAt [] (Grammar.argumentList n)) pos) := by
    split
    · exact breaks.verbatimCall name
    · exact (breaks.argumentList.stoppingAt knownStops).bind fun _ => .pure
  have joined : BreaksOff (do return Expr.string (Template.consText name (← Grammar.bareWord n)) false) :=
    breaks.bareWord.bind fun _ => .pure
  rw [Grammar.word]
  refine .get_bind (fun tokens ended => ?_) fun short long continues => ?_
  · cases tokens with
    | nil => exact .pure ended
    | cons token rest =>
      have trivia := (ended_cons.1 ended).1
      dsimp only
      split
      · exact .set_bind (call.ends rest (ended_cons.1 ended).2)
      · split
        · exact joined.ends _ ended
        · exact .pure ended
  · cases continues with
    | closing => exact .of_ends (.pure ended_nil)
    | cons behind =>
      dsimp only
      split
      · exact .set_bind (call.follows _ _ behind)
      · split
        · exact joined.follows _ _ (.cons behind)
        · exact .pure (.cons behind)
    | @last token token' braces becomes place closing =>
      have alone : Continues [token] (token' :: braces) := .last becomes place closing
      dsimp only
      rw [if_neg (Bool.eq_false_iff.1 (becomes.isMark '(').1), if_neg (Bool.eq_false_iff.1 (becomes.isMark '(').2)]
      generalize token.kind = kind, token'.kind = kind' at becomes
      cases becomes <;> exact .pure alone

theorem breaksOff_bareWord (breaks : BreaksOffExpressions n) : BreaksOff (Grammar.bareWord (n + 1)) := by
  have joined (text : String) : BreaksOff (do return Template.consText text (← Grammar.bareWord n)) :=
    breaks.bareWord.bind fun _ => .pure
  have code : BreaksOff (do
      let code ← Grammar.interpolationBody n
      return .code code :: (← Grammar.bareWord n)) :=
    breaks.interpolationBody.bind fun _ => breaks.bareWord.bind fun _ => .pure
  rw [Grammar.bareWord]
  refine .get_bind (fun tokens ended => ?_) fun short long continues => ?_
  · cases tokens with
    | nil => exact .pure ended
    | cons token rest =>
      have behind := (ended_cons.1 ended).2
      dsimp only
      split
      · exact .set_bind ((joined _).ends rest behind)
      · exact .set_bind ((joined _).ends rest behind)
      · exact .set_bind (code.ends rest behind)
      · split
        · exact .set_bind ((joined _).ends rest behind)
        · exact .pure ended
      · exact .pure ended
  · cases continues with
    | closing => exact .of_ends (.pure ended_nil)
    | @cons token rest rest' behind =>
      have whole : Continues (token :: rest) (token :: rest') := .cons behind
      dsimp only
      rw [behind.joinsWord]
      split
      · exact .set_bind ((joined _).follows rest rest' behind)
      · exact .set_bind ((joined _).follows rest rest' behind)
      · exact .set_bind (code.follows rest rest' behind)
      · split
        · exact .set_bind ((joined _).follows rest rest' behind)
        · exact .pure whole
      · exact .pure whole
    | @last token token' braces becomes place closing =>
      have alone : Continues [token] (token' :: braces) := .last becomes place closing
      dsimp only
      generalize token.kind = kind, token'.kind = kind' at becomes
      cases becomes with
      | ident => exact .of_ends (.set_bind ((joined _).ends [] ended_nil))
      | blank | atKeyword | «variable» | hash => exact .pure alone

theorem breaksOff_verbatimCall (breaks : BreaksOffExpressions n) (name : String) :
    BreaksOff (Grammar.verbatimCall (n + 1) name) := by
  rw [Grammar.verbatimCall]
  apply (breaks.rawTemplate false [')']).bind
  intro inner
  refine .get_bind (fun tokens ended => ?_) fun short long continues => ?_
  · cases tokens with
    | nil => exact .fail ended
    | cons token rest => exact .set_bind (.pure (ended_cons.1 ended).2)
  · cases continues with
    | closing => exact .of_ends (.fail ended_nil)
    | cons behind => exact .set_bind (.pure behind)
    | last => exact .of_ends (.set_bind (.pure ended_nil))

theorem breaksOff_argumentList (breaks : BreaksOffExpressions n) : BreaksOff (Grammar.argumentList (n + 1)) := by
  rw [Grammar.argumentList]
  apply (breaksOff_eatMark (by decide)).bind
  intro empty
  split
  · exact .pure
  · refine .look_bind (fun tokens => ?_) fun short long continues => by rw [continues.keywordAt?]
    split
    · apply breaksOff_advance.bind
      intro _
      apply (breaksOff_expectMark ':').bind
      intro _
      apply breaks.spaceList.bind
      intro value
      exact breaks.moreArguments.bind fun _ => .pure
    · apply breaks.spaceList.bind
      intro value
      apply breaksOff_eatSpread.bind
      intro spread
      split
      · exact breaks.moreArguments.bind fun _ => .pure
      · exact breaks.moreArguments.bind fun _ => .pure

theorem breaksOff_moreArguments (breaks : BreaksOffExpressions n) : BreaksOff (Grammar.moreArguments (n + 1)) := by
  rw [Grammar.moreArguments]
  apply (breaksOff_eatMark (by decide)).bind
  intro more
  split
  · exact breaks.argumentList
  · exact breaksOff_closing ')' _

theorem breaksOff_interpolationBody (breaks : BreaksOffExpressions n) :
    BreaksOff (Grammar.interpolationBody (n + 1)) := by
  rw [Grammar.interpolationBody]
  exact (breaks.expression.stoppingAt knownStops).bind fun code => breaksOff_closing '}' code

theorem breaksOff_rawTemplate (breaks : BreaksOffExpressions n) (withVariables : Bool) (ends : List Char) :
    BreaksOff (Grammar.rawTemplate (n + 1) withVariables ends) := by
  rw [Grammar.rawTemplate]
  exact (breaks.rawPieces withVariables ends 0 false).bind fun _ => .pure

theorem breaksOff_rawPieces (breaks : BreaksOffExpressions n) (withVariables : Bool) (ends : List Char) (depth : Nat)
    (started : Bool) : BreaksOff (Grammar.rawPieces (n + 1) withVariables ends depth started) := by
  have later {next : Template Expr → Template Expr} (depth : Nat) (started : Bool) :
      BreaksOff (do return next (← Grammar.rawPieces n withVariables ends depth started)) :=
    (breaks.rawPieces withVariables ends depth started).bind fun _ => .pure
  rw [Grammar.rawPieces]
  refine .get_bind (fun tokens ended => ?_) fun short long continues => ?_
  · cases tokens with
    | nil => exact .pure ended
    | cons token rest =>
      obtain ⟨trivia, behind⟩ := ended_cons.1 ended
      dsimp only
      split
      · exact .pure ended
      · refine .set_bind ?_
        unfold Token.isTrivia at trivia
        split at trivia
        · next known =>
          rw [known]
          exact (later depth started).ends rest behind
        · next known =>
          rw [known]
          exact (breaks.rawPieces withVariables ends depth started).ends rest behind
        · cases trivia
  · cases continues with
    | closing => exact .of_ends (.pure ended_nil)
    | @cons token rest rest' behind =>
      dsimp only
      split
      · exact .pure (.cons behind)
      · refine .set_bind ?_
        cases token.kind with
        | interpolation =>
          exact (breaks.interpolationBody.bind fun _ => later depth true).follows rest rest' behind
        | «variable» => exact (later depth true).follows rest rest' behind
        | quoted contents quote =>
          have text := (carries_textTemplate n (shifted token.pos 1) contents.toList).followsOn behind
          exact text.bind fun _ => later depth true
        | blank => exact (later depth started).follows rest rest' behind
        | comment => exact (breaks.rawPieces withVariables ends depth started).follows rest rest' behind
        | _ => exact (later _ true).follows rest rest' behind
    | @last token token' braces becomes place closing =>
      have goes : ¬(depth == 0 && ends.any token.isMark) := by
        rw [List.any_eq_false.2 fun c _ => Bool.eq_false_iff.1 (becomes.isMark c).1, Bool.and_false]
        exact Bool.false_ne_true
      apply FollowsOn.of_ends
      dsimp only
      rw [if_neg goes]
      refine .set_bind ?_
      generalize token'.kind = kind' at becomes
      cases known : token.kind with
      | blank => exact (later depth started).ends [] ended_nil
      | «variable» => exact (later depth true).ends [] ended_nil
      | ident | atKeyword | hash => exact (later _ true).ends [] ended_nil
      | _ =>
        rw [known] at becomes
        cases becomes

theorem breaksOffExpressions (n : Nat) : BreaksOffExpressions n := by
  induction n with
  | zero =>
    exact {
      expression := .giveUp
      commaItems := fun _ _ => .giveUp
      spaceList := .giveUp
      spaceItems := .giveUp
      operation := fun _ => .giveUp
      operationsOn := fun _ _ => .giveUp
      operand := .giveUp
      primary := fun _ _ _ => .giveUp
      lastPrimary := fun _ _ => .giveUp
      parenthesized := fun _ => .giveUp
      mapEntries := .giveUp
      bracketed := .giveUp
      word := fun _ _ => .giveUp
      bareWord := .giveUp
      verbatimCall := fun _ => .giveUp
      argumentList := .giveUp
      moreArguments := .giveUp
      interpolationBody := .giveUp
      rawTemplate := fun _ _ => .giveUp
      rawPieces := fun _ _ _ _ => .giveUp }
  | succ n shallower =>
    exact {
      expression := breaksOff_expression shallower
      commaItems := fun _ => breaksOff_commaItems shallower
      spaceList := breaksOff_spaceList shallower
      spaceItems := breaksOff_spaceItems shallower
      operation := breaksOff_operation shallower
      operationsOn := breaksOff_operationsOn shallower
      operand := breaksOff_operand shallower
      primary := followsOn_primary shallower
      lastPrimary := followsOn_lastPrimary shallower
      parenthesized := breaksOff_parenthesized shallower
      mapEntries := breaksOff_mapEntries shallower
      bracketed := breaksOff_bracketed shallower
      word := breaksOff_word shallower
      bareWord := breaksOff_bareWord shallower
      verbatimCall := breaksOff_verbatimCall shallower
      argumentList := breaksOff_argumentList shallower
      moreArguments := breaksOff_moreArguments shallower
      interpolationBody := breaksOff_interpolationBody shallower
      rawTemplate := breaksOff_rawTemplate shallower
      rawPieces := breaksOff_rawPieces shallower }

end Stylesheet.Grammar
