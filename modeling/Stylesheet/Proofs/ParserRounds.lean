import Stylesheet.Proofs.CutOff
import Stylesheet.Proofs.ParserProgress

/-! The rounds of the loops in the parsers. A round leaves its loop with a result or goes on to a further round, and
then it has taken a token, so there are no more rounds than tokens. A text with interpolations is parsed by parsers of
shorter texts. Both hold of malformed input too; with the limit out of reach, they are why parsing ends. -/

namespace Stylesheet.Grammar

variable {σ α β : Type} {token : Token} {tokens left rest : List Token} {a least n : Nat}

/-- How a round of a loop ends. What a further round starts with is `state`, and `add` puts what has been read before
what will be read. -/
inductive Round (σ α : Type) where
  | leaves (result : α)
  | again (state : σ) (add : α → α)

/-- What a loop does behind a round. -/
def Round.follow (loop : σ → Parse α) : Round σ α → Parse α
  | leaves result => return result
  | again state add => return add (← loop state)

/-- Several rounds, each of which runs on the tokens that the one before it has left. -/
inductive Rounds (round : Nat → σ → Parse (Round σ α)) (context : Context) :
    (count : Nat) → σ → List Token → σ → List Token → Prop where
  | none {state : σ} {tokens : List Token} : Rounds round context 0 state tokens state tokens
  | more {n count : Nat} {state next last : σ} {tokens between left : List Token} {add : α → α}
      (first : round n state context tokens = .ok (.again next add, between))
      (others : Rounds round context count next between last left) :
      Rounds round context (count + 1) state tokens last left

/-- A round takes at least so many tokens where it does not leave its loop. -/
def Advances (tokens : List Token) (least : Nat) (round : Parse (Round σ α)) : Prop :=
  ∀ context state add left, round context tokens = .ok (.again state add, left) → Behind least tokens left

theorem Rounds.behind {round : Nat → σ → Parse (Round σ α)} {context : Context} {count : Nat} {state last : σ}
    (advances : ∀ n state tokens, Advances tokens 1 (round n state))
    (rounds : Rounds round context count state tokens last left) : Behind count tokens left := by
  induction rounds with
  | none => exact .refl
  | more first others behind =>
    exact (advances _ _ _ _ _ _ _ first).trans behind (by omega)

/-- A parser is a loop of rounds, none of which stays where it is. `calls` is how many calls are nested in a round. -/
structure IsLoop (calls : Nat) (loop : Nat → σ → Parse α) (round : Nat → σ → Parse (Round σ α)) : Prop where
  unrolls : ∀ n state, loop (n + calls) state = round n state >>= Round.follow (loop n)
  advances : ∀ n state tokens, Advances tokens 1 (round n state)
  bounded : ∀ context count state tokens last left,
    Rounds round context count state tokens last left → count ≤ tokens.length

theorem IsLoop.of_advances {calls : Nat} {loop : Nat → σ → Parse α} {round : Nat → σ → Parse (Round σ α)}
    (unrolls : ∀ n state, loop (n + calls) state = round n state >>= Round.follow (loop n))
    (advances : ∀ n state tokens, Advances tokens 1 (round n state)) : IsLoop calls loop round where
  unrolls
  advances
  bounded _ _ _ _ _ _ rounds := by
    have := (rounds.behind advances).length_le
    omega

namespace Advances

variable {parse : Parse α} {next : α → Parse (Round σ β)}

theorem leaves {result : α} : Advances tokens least (pure (.leaves result) : Parse (Round σ α)) := by
  intro context state add left run
  cases run

theorem again {state : σ} {add : α → α} : Advances tokens 0 (pure (.again state add)) := by
  intro context state add left run
  cases run
  exact .refl

theorem fail {expected : Expectation} : Advances tokens least (fail expected : Parse (Round σ α)) := by
  intro context state add left run
  cases run

theorem bind (takes : Takes tokens a parse)
    (later : ∀ value left, Advances left (least - a) (next value)) : Advances tokens least (parse >>= next) := by
  intro context state add left run
  obtain ⟨middle, between, parsed, run⟩ := bind_eq_ok run
  have first := takes context middle between parsed
  exact first.trans (later middle between context state add left run) (by omega)

theorem get_bind {next : List Token → Parse (Round σ α)} (later : Advances tokens least (next tokens)) :
    Advances tokens least (get >>= next) := later

theorem set_bind {next : PUnit → Parse (Round σ α)} (behind : Behind a tokens left)
    (later : Advances left (least - a) (next ⟨⟩)) : Advances tokens least (set left >>= next) :=
  fun context state add last run => behind.trans (later context state add last run) (by omega)

theorem eatMark_bind {c : Char} {next : Bool → Parse (Round σ α)}
    (taken : ∀ left, Advances left (least - 1) (next true))
    (other : Advances tokens least (next false)) : Advances tokens least (eatMark c >>= next) := by
  intro context state add left run
  rw [eatMark_bind_apply] at run
  split at run
  · next starts =>
    have behind := behind_of_startsMark starts
    exact behind.trans (taken _ context state add left run) (by omega)
  · exact other context state add left run

end Advances

/-- A round that never leaves its loop. -/
def GoesOn (round : Parse (Round σ α)) : Prop :=
  ∀ context tokens result left, round context tokens ≠ .ok (.leaves result, left)

namespace GoesOn

theorem again {state : σ} {add : α → α} : GoesOn (pure (.again state add)) := by
  intro context tokens result left run
  cases run

theorem fail {expected : Expectation} : GoesOn (fail expected : Parse (Round σ α)) := by
  intro context tokens result left run
  cases run

theorem bind {parse : Parse α} {next : α → Parse (Round σ β)} (later : ∀ value, GoesOn (next value)) :
    GoesOn (parse >>= next) := by
  intro context tokens result left run
  obtain ⟨value, between, -, run⟩ := bind_eq_ok run
  exact later value context between result left run

end GoesOn

/-! Statements and raw texts -/

/-- A statement, or the end of the statements. -/
def statementRound (n : Nat) (inBlock : Bool) : Parse (Round Unit (List Statement)) := do
  skipBlank
  match ← get with
  | [] => if inBlock then fail (.mark '}') else return .leaves []
  | token :: rest =>
    match token.kind with
    | .comment comment =>
      set rest
      return .again () (.comment token.pos comment :: ·)
    | .mark '}' =>
      if inBlock then
        set rest
        return .leaves []
      else fail .selectorOrDirective
    | .mark ';' =>
      set rest
      return .again () id
    | .atKeyword name =>
      set rest
      let first ← directive n name token.pos
      return .again () (first :: ·)
    | .variable name =>
      let first ← if startsMark rest ':' then
          set rest
          assignment n name token.pos
        else rule n token.pos
      return .again () (first :: ·)
    | _ =>
      let first ← if startsDeclaration (token :: rest) then declaration n token.pos else rule n token.pos
      return .again () (first :: ·)

theorem statements_unroll (n : Nat) (inBlock : Bool) :
    statements (n + 1) inBlock = statementRound n inBlock >>= Round.follow fun _ => statements n inBlock := by
  rw [statements, statementRound, bind_assoc]
  refine bind_congr fun _ => ?_
  rw [bind_assoc]
  refine bind_congr fun left => ?_
  cases left with
  | nil =>
    dsimp only
    split <;> rfl
  | cons token rest =>
    dsimp only
    -- Loop and round look at the same kind, which is generalized so that one split decides both.
    generalize token.kind = kind
    split
    · rfl
    · split <;> rfl
    · simp only [bind_assoc, pure_bind, Round.follow, id, bind_pure]
    · simp only [bind_assoc, pure_bind, Round.follow]
    · split <;> simp only [bind_assoc, pure_bind, Round.follow]
    · split <;> simp only [bind_assoc, pure_bind, Round.follow]

theorem advances_statementRound (n : Nat) (inBlock : Bool) (tokens : List Token) :
    Advances tokens 1 (statementRound n inBlock) := by
  have takes := takesStatements n
  refine .bind takes_skipBlank fun _ left => ?_
  apply Advances.get_bind
  cases left with
  | nil =>
    dsimp only
    split
    · exact .fail
    · exact .leaves
  | cons token rest =>
    dsimp only
    split
    · exact .set_bind behind_cons .again
    · split
      · exact .set_bind behind_cons .leaves
      · exact .fail
    · exact .set_bind behind_cons .again
    · exact .set_bind behind_cons (Advances.bind (takes.directive _ token.pos rest) fun _ _ => .again)
    · split
      · refine .set_bind behind_cons ?_
        exact .bind ((takes_assignment n _ token.pos).mono (Nat.zero_le 1)) fun _ _ => .again
      · exact .bind (takes.rule token.pos _) fun _ _ => .again
    · split
      · exact .bind (takes.declaration token.pos _) fun _ _ => .again
      · exact .bind (takes.rule token.pos _) fun _ _ => .again

theorem statements_isLoop (inBlock : Bool) :
    IsLoop 1 (fun n (_ : Unit) => statements n inBlock) fun n _ => statementRound n inBlock :=
  .of_advances (fun n _ => statements_unroll n inBlock) fun n _ => advances_statementRound n inBlock

/-- Outside blocks the loop is left at the end of the text only. -/
theorem left_of_statementRound {context : Context} {result : List Statement}
    (run : statementRound n false context tokens = .ok (.leaves result, left)) : left = [] := by
  obtain ⟨_, between, _, run⟩ := bind_eq_ok run
  obtain ⟨_, _, got, run⟩ := bind_eq_ok run
  cases got
  cases between with
  | nil =>
    cases run
    rfl
  | cons token rest =>
    refine ((?_ : GoesOn _) context (token :: rest) result left run).elim
    dsimp only
    split
    · exact .bind fun _ => .again
    · exact .fail
    · exact .bind fun _ => .again
    · exact .bind fun _ => .bind fun _ => .again
    · split
      · exact .bind fun _ => .bind fun _ => .again
      · exact .bind fun _ => .again
    · split
      · exact .bind fun _ => .again
      · exact .bind fun _ => .again

theorem left_of_statements {context : Context} {result : List Statement}
    (run : statements n false context tokens = .ok (result, left)) : left = [] := by
  induction n generalizing tokens result with
  | zero => cases run
  | succ n shorter =>
    rw [statements_unroll] at run
    obtain ⟨round, between, first, run⟩ := bind_eq_ok run
    cases round with
    | leaves result =>
      cases run
      exact left_of_statementRound first
    | again state add =>
      obtain ⟨more, last, others, run⟩ := bind_eq_ok run
      cases run
      exact shorter others

/-- A token of a raw text, or the end of the text. From round to round it changes how many parentheses and brackets are
open, and whether the text has begun. -/
def rawRound (withVariables : Bool) (ends : List Char) (n : Nat) :
    (state : Nat × Bool) → Parse (Round (Nat × Bool) (Template Expr))
  | (depth, started) => do
    match ← get with
    | token :: rest =>
      if depth == 0 && ends.any token.isMark then return .leaves []
      else
        set rest
        match token.kind with
        | .interpolation =>
          let code ← interpolationBody n
          return .again (depth, true) (.code code :: ·)
        | .variable name =>
          return .again (depth, true) fun more =>
            if withVariables then .code (.variable name token.pos) :: more else Template.consText token.text more
        | .quoted contents quote =>
          let inner ← textTemplate n (shifted token.pos 1) contents.toList
          return .again (depth, true) fun more =>
            Template.consText quote.toString (Template.append inner (Template.consText quote.toString more))
        | .blank _ => return .again (depth, started) fun more => if started then Template.consText " " more else more
        | .comment _ => return .again (depth, started) id
        | _ =>
          let depth :=
            if token.isMark '(' || token.isMark '[' then depth + 1
            else if token.isMark ')' || token.isMark ']' then depth - 1
            else depth
          return .again (depth, true) (Template.consText token.text)
    | [] => return .leaves []

theorem rawPieces_isLoop (withVariables : Bool) (ends : List Char) :
    IsLoop 1 (fun n state => rawPieces n withVariables ends state.1 state.2) (rawRound withVariables ends) := by
  refine .of_advances (fun n state => ?_) fun n state tokens => ?_
  · rw [rawPieces, rawRound, bind_assoc]
    refine bind_congr fun left => ?_
    cases left with
    | nil => rfl
    | cons token rest =>
      dsimp only
      split
      · rfl
      · generalize token.kind = kind
        split <;> simp only [bind_assoc, pure_bind, Round.follow, id, bind_pure]
  · unfold rawRound
    apply Advances.get_bind
    cases tokens with
    | nil => exact .leaves
    | cons token rest =>
      dsimp only
      split
      · exact .leaves
      refine .set_bind behind_cons ?_
      split
      · exact .bind ((takesExpressions n).interpolationBody rest) fun _ _ => .again
      · exact .again
      · exact .bind (takes_textTemplate n _ _) fun _ _ => .again
      · exact .again
      · exact .again
      · exact .again

/-! Expressions -/

/-- An expression behind others, or the end of the list. -/
def itemRound (n : Nat) : Parse (Round Unit (List Expr)) := do
  if (← atExpressionEnd) || startsSpread (← get) then return .leaves []
  else
    let item ← operation n 0
    return .again () (item :: ·)

theorem spaceItems_isLoop : IsLoop 1 (fun n (_ : Unit) => spaceItems n) fun n _ => itemRound n := by
  refine .of_advances (fun n _ => ?_) fun n _ tokens => ?_
  · rw [spaceItems, itemRound, bind_assoc]
    refine bind_congr fun ended => ?_
    rw [bind_assoc]
    refine bind_congr fun left => ?_
    split <;> simp only [bind_assoc, pure_bind, Round.follow]
  · refine .bind takes_atExpressionEnd fun ended left => ?_
    apply Advances.get_bind
    split
    · exact .leaves
    · exact .bind ((takesExpressions n).operation 0 left) fun _ _ => .again

/-- A part of a bare word, or the end of the word. -/
def partRound (n : Nat) : Parse (Round Unit (Template Expr)) := do
  match ← get with
  | token :: rest =>
    match token.kind with
    | .ident _ | .number _ _ =>
      set rest
      return .again () (Template.consText token.text)
    | .interpolation =>
      set rest
      let code ← interpolationBody n
      return .again () (.code code :: ·)
    | .mark '-' =>
      if joinsWord rest then
        set rest
        return .again () (Template.consText "-")
      else return .leaves []
    | _ => return .leaves []
  | [] => return .leaves []

theorem bareWord_isLoop : IsLoop 1 (fun n (_ : Unit) => bareWord n) fun n _ => partRound n := by
  refine .of_advances (fun n _ => ?_) fun n _ tokens => ?_
  · rw [bareWord, partRound, bind_assoc]
    refine bind_congr fun left => ?_
    cases left with
    | nil => rfl
    | cons token rest =>
      dsimp only
      generalize token.kind = kind
      split
      · simp only [bind_assoc, pure_bind, Round.follow]
      · simp only [bind_assoc, pure_bind, Round.follow]
      · simp only [bind_assoc, pure_bind, Round.follow]
      · split <;> simp only [bind_assoc, pure_bind, Round.follow]
      · simp only [pure_bind, Round.follow]
  · apply Advances.get_bind
    cases tokens with
    | nil => exact .leaves
    | cons token rest =>
      dsimp only
      split
      · exact .set_bind behind_cons .again
      · exact .set_bind behind_cons .again
      · exact .set_bind behind_cons (Advances.bind ((takesExpressions n).interpolationBody rest) fun _ _ => .again)
      · split
        · exact .set_bind behind_cons .again
        · exact .leaves
      · exact .leaves

/-- An argument, as what it does to the arguments behind it. -/
def argument (n : Nat) : Parse (Arguments Expr → Arguments Expr) := do
  match keywordAt? (← get) with
  | some name =>
    advance
    expectMark ':'
    let value ← spaceList n
    return fun more => { more with keyword := (name, value) :: more.keyword }
  | none =>
    let value ← spaceList n
    if ← eatSpread then return fun more => { more with rest := more.rest <|> some value }
    else return fun more => { more with positional := value :: more.positional }

/-- An argument and a comma, or the end of the arguments. -/
def argumentRound (n : Nat) : Parse (Round Unit (Arguments Expr)) := do
  if ← eatMark ')' then return .leaves Arguments.none
  else
    let add ← argument (n + 1)
    if ← eatMark ',' then return .again () add
    else
      expectMark ')'
      return .leaves (add Arguments.none)

theorem takes_argument (n : Nat) : Takes tokens 1 (argument n) := by
  apply Takes.get_bind
  split
  · refine takes_advance.bind fun _ left => ?_
    refine (takes_expectMark ':').bind fun _ left => ?_
    exact (((takesExpressions n).spaceList left).mono (Nat.zero_le 1)).bind fun _ _ => .pure
  · refine ((takesExpressions n).spaceList tokens).bind fun value left => ?_
    refine takes_eatSpread.bind fun spread left => ?_
    split
    · exact .pure
    · exact .pure

theorem argumentList_unroll (n : Nat) :
    argumentList (n + 2) = argumentRound n >>= Round.follow fun _ => argumentList n := by
  have behind (add : Arguments Expr → Arguments Expr) : (do return add (← moreArguments (n + 1))) = (do
      if ← eatMark ',' then return add (← argumentList n)
      else
        expectMark ')'
        return add Arguments.none) := by
    rw [moreArguments, bind_assoc]
    refine bind_congr fun another => ?_
    split <;> simp only [bind_assoc, pure_bind]
  have unrolled : argumentList (n + 2) = (do
      if ← eatMark ')' then return Arguments.none
      else
        let add ← argument (n + 1)
        return add (← moreArguments (n + 1))) := by
    rw [argumentList]
    refine bind_congr fun closed => ?_
    split
    · rfl
    · rw [argument, bind_assoc]
      refine bind_congr fun left => ?_
      cases keywordAt? left with
      | some name => simp only [bind_assoc, pure_bind]
      | none =>
        simp only [bind_assoc]
        refine bind_congr fun value => ?_
        refine bind_congr fun spread => ?_
        split <;> simp only [pure_bind]
  rw [unrolled, argumentRound, bind_assoc]
  refine bind_congr fun closed => ?_
  split
  · rfl
  · rw [bind_assoc]
    refine bind_congr fun add => ?_
    rw [behind, bind_assoc]
    refine bind_congr fun another => ?_
    split <;> simp only [bind_assoc, pure_bind, Round.follow]

theorem argumentList_isLoop : IsLoop 2 (fun n (_ : Unit) => argumentList n) fun n _ => argumentRound n := by
  refine .of_advances (fun n _ => argumentList_unroll n) fun n _ tokens => ?_
  · refine .eatMark_bind (fun _ => .leaves) ?_
    refine .bind (takes_argument (n + 1)) fun add left => ?_
    refine .eatMark_bind (fun _ => .again) ?_
    exact .bind (takes_expectMark ')') fun _ _ => .leaves

/-- A reference and a comma, or the last target. -/
def targetRound (n : Nat) : Parse (Round Unit (List ImportTarget)) := do
  match referenceAt? (← get) with
  | some (reference, pos, rest) =>
    set rest
    let target := ImportTarget.sheet reference pos
    if ← eatMark ',' then return .again () (target :: ·)
    else return .leaves [target]
  | none =>
    if (← peek).isNone then fail .reference
    else return .leaves [.css (Template.trimEnd (← rawTemplate n false [';', '}']))]

theorem importTargets_isLoop : IsLoop 1 (fun n (_ : Unit) => importTargets n) fun n _ => targetRound n := by
  refine .of_advances (fun n _ => ?_) fun n _ tokens => ?_
  · rw [importTargets, targetRound, bind_assoc]
    refine bind_congr fun left => ?_
    cases referenceAt? left with
    | some found =>
      dsimp only
      rw [bind_assoc]
      refine bind_congr fun _ => ?_
      rw [bind_assoc]
      refine bind_congr fun more => ?_
      split <;> simp only [pure_bind, Round.follow]
    | none =>
      dsimp only
      rw [bind_assoc]
      refine bind_congr fun next => ?_
      split
      · rfl
      · simp only [bind_assoc, pure_bind, Round.follow]
  · apply Advances.get_bind
    split
    · next reference pos rest found =>
      exact .set_bind (behind_of_referenceAt? found) (.eatMark_bind (fun _ => .again) .leaves)
    · refine .bind takes_peek fun next left => ?_
      split
      · exact .fail
      · exact .bind ((takesExpressions n).rawTemplate false [';', '}'] left) fun _ _ => .leaves

/-- A parameter and a comma, or the end of the parameters. -/
def parameterRound (n : Nat) : Parse (Round Unit (List Parameter × Option String)) := do
  if ← eatMark ')' then return .leaves ([], none)
  else
    let name ← expectVariable
    if ← eatSpread then
      expectMark ')'
      return .leaves ([], some name)
    else
      let default ← if ← eatMark ':' then some <$> spaceList n else pure none
      if ← eatMark ',' then return .again () fun (more, rest) => (⟨name, default⟩ :: more, rest)
      else
        expectMark ')'
        return .leaves ([⟨name, default⟩], none)

theorem parameters_isLoop : IsLoop 1 (fun n (_ : Unit) => parameters n) fun n _ => parameterRound n := by
  refine .of_advances (fun n _ => ?_) fun n _ tokens => ?_
  · rw [parameters, parameterRound]
    simp only [bind_assoc]
    refine bind_congr fun closed => ?_
    split
    · rfl
    · simp only [bind_assoc]
      refine bind_congr fun name => ?_
      refine bind_congr fun spread => ?_
      split
      · simp only [bind_assoc, pure_bind, Round.follow]
      · simp only [bind_assoc]
        refine bind_congr fun given => ?_
        split
        · simp only [bind_assoc]
          refine bind_congr fun default => ?_
          refine bind_congr fun another => ?_
          split <;> simp only [bind_assoc, pure_bind, Round.follow]
        · simp only [bind_assoc, pure_bind]
          refine bind_congr fun another => ?_
          split <;> simp only [bind_assoc, pure_bind, Round.follow]
  · have behind (name : String) (default : Option Expr) {left : List Token} :
        Advances left 0
          (do
            if ← eatMark ',' then
              return .again () fun (more, rest) => (⟨name, default⟩ :: more, rest)
            else
              expectMark ')'
              return .leaves ([⟨name, default⟩], none) : Parse (Round Unit (List Parameter × Option String))) := by
      refine .eatMark_bind (fun _ => .again) ?_
      exact .bind (takes_expectMark ')') fun _ _ => .leaves
    refine .eatMark_bind (fun _ => .leaves) ?_
    refine .bind takes_expectVariable fun name left => ?_
    refine .bind takes_eatSpread fun spread left => ?_
    split
    · exact .bind (takes_expectMark ')') fun _ _ => .leaves
    · refine .eatMark_bind (fun left => ?_) (behind name none)
      refine .bind (((takesExpressions n).spaceList left).mono (Nat.zero_le 1)).map fun default left => ?_
      exact behind name default

/-! Texts with interpolations -/

/-- The contents of a string, with any parser for the texts of their interpolations. -/
def textTemplateBy (inner : Nat → Position → List Char → Parse Expr) :
    Nat → (pos : Position) → List Char → Parse (Template Expr)
  | 0, _, _ => giveUp
  | n + 1, pos, cs => do
    match splitAtInterpolation cs with
    | none => return Template.ofText (String.ofList cs)
    | some (before, behind) =>
      let inside := shifted pos (before.length + 2)
      match splitAtBrace 0 none behind with
      | none => fun _ _ => .error ⟨.unclosed .interpolation, inside⟩
      | some (body, rest) =>
        let code ← inner n inside body
        let more ← textTemplateBy inner n (shifted inside (body.length + 1)) rest
        return Template.consText (String.ofList before) (.code code :: more)

theorem textTemplateBy_embedded (n : Nat) (pos : Position) (cs : List Char) :
    textTemplateBy embedded n pos cs = textTemplate n pos cs := by
  induction n generalizing pos cs with
  | zero => rfl
  | succ n shorter =>
    rw [textTemplateBy, textTemplate]
    cases splitAtInterpolation cs with
    | none => rfl
    | some cut =>
      obtain ⟨before, behind⟩ := cut
      dsimp only
      cases splitAtBrace 0 none behind with
      | none => rfl
      | some cut =>
        obtain ⟨body, rest⟩ := cut
        dsimp only
        rw [shorter]

/-- Only texts that are shorter are parsed for the interpolations of a text. -/
theorem textTemplateBy_congr {inner inner' : Nat → Position → List Char → Parse Expr} {cs : List Char}
    (same : ∀ n pos body, body.length < cs.length → inner n pos body = inner' n pos body) (n : Nat) (pos : Position) :
    textTemplateBy inner n pos cs = textTemplateBy inner' n pos cs := by
  induction n generalizing pos cs with
  | zero => rfl
  | succ n shorter =>
    rw [textTemplateBy, textTemplateBy]
    cases opens : splitAtInterpolation cs with
    | none => rfl
    | some cut =>
      obtain ⟨before, behind⟩ := cut
      have inside := congrArg List.length (splitAtInterpolation_eq opens)
      simp only [List.length_append, List.length_cons] at inside
      dsimp only
      cases closes : splitAtBrace 0 none behind with
      | none => rfl
      | some cut =>
        obtain ⟨body, rest⟩ := cut
        have parts := congrArg List.length (splitAtBrace_eq closes)
        simp only [List.length_append, List.length_cons] at parts
        dsimp only
        rw [same n _ body (by omega)]
        refine bind_congr fun code => ?_
        rw [shorter fun n pos body fewer => same n pos body (by omega)]

/-! The end of parsing -/

/-- From some number of nested calls on a parser always gives one result, and that is not that it gave up. -/
def Finishes (parse : Nat → Parse α) : Prop :=
  ∀ context tokens, ∃ limit result, (∀ n, limit ≤ n → parse n context tokens = result) ∧
    ∀ error, result = .error error → error.cause ≠ .limit

theorem Finishes.of_settles {parse : Nat → Parse α} (limit : List Token → Nat)
    (settles : ∀ extra tokens, Settles tokens least (parse (limit tokens)) (parse (extra + limit tokens))) :
    Finishes parse := by
  intro context tokens
  refine ⟨limit tokens, parse (limit tokens) context tokens, fun n enough => ?_, fun error failed => ?_⟩
  · obtain ⟨extra, rfl⟩ := Nat.exists_eq_add_of_le' enough
    exact (settles extra tokens context).1.symm
  · have spends := (settles 0 tokens context).2
    rwa [failed] at spends

theorem expression_finishes : Finishes expression :=
  .of_settles (fun tokens => 32 * weight tokens + 12) fun extra tokens =>
    (settlesExpressions extra _).expression tokens (Nat.le_refl _)

theorem statements_finish (inBlock : Bool) : Finishes (statements · inBlock) :=
  .of_settles (fun tokens => 32 * weight tokens + 4) fun extra tokens =>
    (settlesStatements extra _).statements inBlock tokens (Nat.le_refl _)

theorem parse_within_limit {source file : String} {indented : Bool} {error : ParseError}
    (failed : Statement.parse source file indented = .error error) : error.cause ≠ .limit := by
  cases indented with
  | false => exact (Statement.parse_within_limit (Nat.le_refl _)).2 error failed
  | true =>
    have braces : Statement.parse (Indented.toBraces source) file false = .error error := failed
    exact (Statement.parse_within_limit (Nat.le_refl _)).2 error braces

/-- Parsing makes progress: an expression takes a token, and a round of a loop takes one unless it is the last one. The
texts of interpolations are shorter than the text they stand in. So there is always a result, and a stylesheet has been
read from all tokens of its text. -/
theorem parsing_progresses :
    (∀ n tokens, Takes tokens 1 (expression n) ∧ Takes tokens 1 (spaceList n) ∧
      (∀ level, Takes tokens 1 (operation n level)) ∧ Takes tokens 1 (operand n) ∧
      ∀ token rest, significant tokens = token :: rest → Takes tokens 1 (primary n token)) ∧
    ((∀ inBlock, IsLoop 1 (fun n (_ : Unit) => statements n inBlock) fun n _ => statementRound n inBlock) ∧
      (∀ withVariables ends, IsLoop 1 (fun n (state : Nat × Bool) => rawPieces n withVariables ends state.1 state.2)
        (rawRound withVariables ends)) ∧
      IsLoop 1 (fun n (_ : Unit) => spaceItems n) (fun n _ => itemRound n) ∧
      IsLoop 1 (fun n (_ : Unit) => bareWord n) (fun n _ => partRound n) ∧
      IsLoop 2 (fun n (_ : Unit) => argumentList n) (fun n _ => argumentRound n) ∧
      IsLoop 1 (fun n (_ : Unit) => importTargets n) (fun n _ => targetRound n) ∧
      IsLoop 1 (fun n (_ : Unit) => parameters n) fun n _ => parameterRound n) ∧
    (∀ inner n pos cs, (∀ m inside body, body.length < cs.length → inner m inside body = embedded m inside body) →
      textTemplateBy inner n pos cs = textTemplate n pos cs) ∧
    (Finishes expression ∧ ∀ inBlock, Finishes (statements · inBlock)) ∧
    (∀ source file indented error, Statement.parse source file indented = .error error → error.cause ≠ .limit) ∧
    (∀ n context tokens result left, statements n false context tokens = .ok (result, left) → left = []) ∧
    ∀ source file indented result, Statement.parse source file indented = .ok result →
      let text := if indented then Indented.toBraces source else source
      let limit := expressionLimit text.toList
      (lex text).error = none ∧
        statements limit false (textContext text file) (lex text).tokens = .ok (result, []) := by
  refine ⟨fun n tokens => ?_, ?_, fun inner n pos cs same => ?_, ⟨expression_finishes, statements_finish⟩,
    fun source file indented error => parse_within_limit, fun n context tokens result left => left_of_statements,
    fun source file indented result parsed => ?_⟩
  · have takes := takesExpressions n
    exact ⟨takes.expression tokens, takes.spaceList tokens, fun level => takes.operation level tokens,
      takes.operand tokens, fun token rest => takes.primary token rest tokens⟩
  · exact ⟨statements_isLoop, rawPieces_isLoop, spaceItems_isLoop, bareWord_isLoop, argumentList_isLoop,
      importTargets_isLoop, parameters_isLoop⟩
  · rw [textTemplateBy_congr same n pos, textTemplateBy_embedded]
  · obtain ⟨whole, left, run⟩ := parseText_eq_ok parsed
    obtain rfl := left_of_statements run
    exact ⟨whole, run⟩

/-- A variable, a string with an interpolation, a text with a brace too many and a stylesheet. -/
theorem parsing_progresses_sample :
    let x : Token := ⟨.variable "x", "$x", 0, ⟨1, 1⟩, ⟨1, 3⟩⟩
    let contents := "#\x7b$x\x7d"
    let inner := fun n inside body => if body.length < contents.toList.length then embedded n inside body else giveUp
    let sheet := "a \x7b b: $x \x7d"
    significant [x] = [x] ∧ Takes [x] 1 (primary 2 x) ∧
      textTemplateBy inner 40 ⟨1, 2⟩ contents.toList = textTemplate 40 ⟨1, 2⟩ contents.toList ∧
      (∃ error, Statement.parse "\x7d" "stdin" false = .error error ∧ error.cause ≠ .limit) ∧
      ∃ result limit, Statement.parse sheet "stdin" false = .ok result ∧
        statements limit false (textContext sheet "stdin") (lex sheet).tokens = .ok (result, []) := by
  intro x contents inner sheet
  obtain ⟨expressions, -, texts, -, settled, -, whole⟩ := parsing_progresses
  refine ⟨rfl, (expressions 2 [x]).2.2.2.2 x [] rfl, ?_, ?_, ?_⟩
  · exact texts inner 40 ⟨1, 2⟩ contents.toList fun m inside body fewer => if_pos fewer
  · have refused : (Statement.parse "\x7d" "stdin" false).isOk = false := by decide +kernel
    cases known : Statement.parse "\x7d" "stdin" false with
    | error error => exact ⟨error, rfl, settled "\x7d" "stdin" false error known⟩
    | ok result =>
      rw [known] at refused
      cases refused
  · have parses : (Statement.parse sheet "stdin" false).isOk = true := by decide +kernel
    cases known : Statement.parse sheet "stdin" false with
    | error error =>
      rw [known] at parses
      cases parses
    | ok result => exact ⟨result, _, rfl, (whole sheet "stdin" false result known).2⟩

end Stylesheet.Grammar
