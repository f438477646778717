import Stylesheet.Proofs.CutOff.Expressions

/-! Statements in a text that is cut off. -/

namespace Stylesheet.Grammar

variable {α : Type} {short long : List Token} {n : Nat}

theorem breaksOff_loopNames (n : Nat) : BreaksOff (Grammar.loopNames n) := by
  induction n with
  | zero => exact .giveUp
  | succ n shorter =>
    rw [Grammar.loopNames]
    apply breaksOff_expectVariable.bind
    intro name
    apply (breaksOff_eatMark (by decide)).bind
    intro more
    split
    · exact shorter.bind fun _ => .pure
    · exact .pure

/-- Behind an exclamation mark a word must follow, which then stands in both texts. -/
theorem flag_continues {next : List Token → Parse α} {value : α} (continues : Continues short long)
    (flags : ∀ rest rest', Continues rest rest' → FollowsOn short long (next rest) (next rest')) :
    FollowsOn short long
      (match significant short with
        | bang :: rest => if bang.isMark '!' then next rest else return value
        | [] => return value)
      (match significant long with
        | bang :: rest => if bang.isMark '!' then next rest else return value
        | [] => return value) := by
  cases continues.ahead with
  | ended ended closing =>
    rw [ended]
    exact .of_ends (.pure ended)
  | same first second behind =>
    rw [first, second]
    dsimp only
    split
    · exact flags _ _ behind
    · exact .pure continues
  | last first second becomes =>
    rw [first, second]
    dsimp only
    rw [if_neg (Bool.eq_false_iff.1 (becomes.isMark '!').1), if_neg (Bool.eq_false_iff.1 (becomes.isMark '!').2)]
    exact .pure continues

theorem breaksOff_assignmentFlags (n : Nat) (isDefault isGlobal : Bool) :
    BreaksOff (Grammar.assignmentFlags n isDefault isGlobal) := by
  induction n generalizing isDefault isGlobal with
  | zero => exact .giveUp
  | succ n shorter =>
    rw [Grammar.assignmentFlags]
    refine .get_bind (fun tokens ended => ?_) fun short long continues =>
      flag_continues continues fun rest rest' behind => ?_
    · rw [show significant tokens = [] from ended]
      exact .pure ended
    · cases behind with
      | closing closing =>
        cases rest' with
        | nil => exact .fail
        | cons token more =>
          have plain := isWord_of_mark (closing token List.mem_cons_self)
          dsimp only
          rw [if_neg (Bool.eq_false_iff.1 (plain _)), if_neg (Bool.eq_false_iff.1 (plain _))]
          exact .fail
      | last becomes =>
        have isDefault : isKnown "default" = true := by decide
        have isGlobal : isKnown "global" = true := by decide
        dsimp only
        rw [if_neg (Bool.eq_false_iff.1 (becomes.isWord isDefault).2),
          if_neg (Bool.eq_false_iff.1 (becomes.isWord isGlobal).2)]
        exact .fail
      | cons behind =>
        dsimp only
        split
        · exact .set_bind ((shorter true isGlobal).follows _ _ behind)
        · split
          · exact .set_bind ((shorter isDefault true).follows _ _ behind)
          · exact .fail

theorem breaksOff_importance : BreaksOff importance := by
  refine .get_bind (fun tokens ended => ?_) fun short long continues =>
      flag_continues continues fun rest rest' behind => ?_
  · rw [show significant tokens = [] from ended]
    exact .pure ended
  · cases behind with
    | closing closing =>
      cases rest' with
      | nil => exact .fail
      | cons token more =>
        dsimp only
        rw [if_neg (Bool.eq_false_iff.1 (isWord_of_mark (closing token List.mem_cons_self) _))]
        exact .fail
    | last becomes =>
      have known : isKnown "important" = true := by decide
      dsimp only
      rw [if_neg (Bool.eq_false_iff.1 (becomes.isWord known).2)]
      exact .fail
    | cons behind =>
      dsimp only
      split
      · exact .set_bind (.pure behind)
      · exact .fail

theorem breaksOff_assignment (n : Nat) (name : String) (pos : Position) :
    BreaksOff (Grammar.assignment n name pos) := by
  apply (breaksOff_expectMark ':').bind
  intro _
  apply (breaksOffExpressions n).expression.bind
  intro value
  apply (breaksOff_assignmentFlags n false false).bind
  intro flags
  exact breaksOff_endStatement.bind fun _ => .pure

theorem breaksOff_moreParameters (shorter : BreaksOff (Grammar.parameters n)) (name : String) (default : Option Expr) :
    BreaksOff (moreParameters n name default) := by
  apply (breaksOff_eatMark (by decide)).bind
  intro more
  split
  · exact shorter.bind fun _ => .pure
  · exact breaksOff_closing ')' _

theorem breaksOff_parameters (n : Nat) : BreaksOff (Grammar.parameters n) := by
  induction n with
  | zero => exact .giveUp
  | succ n shorter =>
    rw [parameters_succ]
    apply (breaksOff_eatMark (by decide)).bind
    intro empty
    split
    · exact .pure
    · apply breaksOff_expectVariable.bind
      intro name
      apply breaksOff_eatSpread.bind
      intro spread
      split
      · exact breaksOff_closing ')' _
      · apply (breaksOff_eatMark (by decide)).bind
        intro given
        split
        · exact (breaksOffExpressions n).spaceList.map.bind fun default => breaksOff_moreParameters shorter name default
        · exact breaksOff_moreParameters shorter name none

theorem breaksOff_importTargets (n : Nat) : BreaksOff (Grammar.importTargets n) := by
  induction n with
  | zero => exact .giveUp
  | succ n shorter =>
    have raw : BreaksOff (do
        if (← peek).isNone then fail .reference
        else return [ImportTarget.css (Template.trimEnd (← rawTemplate n false [';', '}']))]) := by
      have text : BreaksOff (do
          return [ImportTarget.css (Template.trimEnd (← rawTemplate n false [';', '}']))]) :=
        ((breaksOffExpressions n).rawTemplate false [';', '}']).bind fun _ => .pure
      refine .peek_bind (fun _ => .fail) (fun continues _ _ _ => ?_) fun continues _ _ => ?_
      · exact text.follows _ _ continues
      · exact text.follows _ _ continues
    have more (target : ImportTarget) : BreaksOff (do
        if ← eatMark ',' then return target :: (← importTargets n)
        else return [target]) := by
      apply (breaksOff_eatMark (by decide)).bind
      intro more
      split
      · exact shorter.bind fun _ => .pure
      · exact .pure
    rw [Grammar.importTargets]
    refine .get_bind (fun tokens ended => ?_) fun short long continues => ?_
    · rw [referenceAt?_of_ended ended]
      exact raw.ends tokens ended
    · rcases referenceAt?_continues continues with ⟨none, none'⟩ | ⟨reference, pos, rest, rest', first, second, behind⟩
      · rw [none, none']
        exact raw.follows short long continues
      · rw [first, second]
        exact .set_bind ((more _).follows rest rest' behind)

/-- The parsers of statements, as long as they go no deeper than a bound. -/
structure BreaksOffStatements (n : Nat) : Prop where
  statements : ∀ inBlock, BreaksOff (Grammar.statements n inBlock)
  block : BreaksOff (Grammar.block n)
  optionalBlock : BreaksOff (Grammar.optionalBlock n)
  rule : ∀ pos, BreaksOff (Grammar.rule n pos)
  declaration : ∀ pos, BreaksOff (Grammar.declaration n pos)
  directive : ∀ name pos, BreaksOff (Grammar.directive n name pos)
  message : ∀ kind pos, BreaksOff (Grammar.message n kind pos)
  callable : BreaksOff (Grammar.callable n)
  branches : BreaksOff (Grammar.branches n)

theorem breaksOff_statements (breaks : BreaksOffStatements n) (inBlock : Bool) :
    BreaksOff (Grammar.statements (n + 1) inBlock) := by
  have later (first : Statement) : BreaksOff (do return first :: (← Grammar.statements n inBlock)) :=
    (breaks.statements inBlock).bind fun _ => .pure
  have directive (name : String) (pos : Position) : BreaksOff (do
      let first ← Grammar.directive n name pos
      return first :: (← Grammar.statements n inBlock)) := (breaks.directive name pos).bind later
  have rule (pos : Position) : BreaksOff (do
      let first ← Grammar.rule n pos
      return first :: (← Grammar.statements n inBlock)) := (breaks.rule pos).bind later
  rw [Grammar.statements]
  apply breaksOff_skipBlank.bind
  intro _
  refine .get_bind (fun tokens ended => ?_) fun short long continues => ?_
  · cases tokens with
    | nil =>
      dsimp only
      split
      · exact .fail ended
      · exact .pure ended
    | cons token rest =>
      have behind := (ended_cons.1 ended).2
      dsimp only
      split
      · exact .set_bind ((later _).ends rest behind)
      · split
        · exact .set_bind (.pure behind)
        · exact .fail ended
      · exact .set_bind ((breaks.statements inBlock).ends rest behind)
      · exact .set_bind ((directive _ token.pos).ends rest behind)
      · split
        · exact .set_bind (((breaksOff_assignment n _ token.pos).bind later).ends rest behind)
        · exact (rule token.pos).ends _ ended
      · split
        · exact ((breaks.declaration token.pos).bind later).ends _ ended
        · exact (rule token.pos).ends _ ended
  · cases continues with
    | closing closing =>
      dsimp only
      split
      · exact .of_ends (.fail ended_nil)
      · exact .of_ends (.pure ended_nil)
    | @cons token rest rest' behind =>
      have whole : Continues (token :: rest) (token :: rest') := .cons behind
      dsimp only
      rw [behind.startsMark (by decide), startsDeclaration_eq whole]
      split
      · exact .set_bind ((later _).follows rest rest' behind)
      · split
        · exact .set_bind (.pure behind)
        · exact .fail
      · exact .set_bind ((breaks.statements inBlock).follows rest rest' behind)
      · exact .set_bind ((directive _ token.pos).follows rest rest' behind)
      · split
        · exact .set_bind (((breaksOff_assignment n _ token.pos).bind later).follows rest rest' behind)
        · exact (rule token.pos).follows _ _ whole
      · split
        · exact ((breaks.declaration token.pos).bind later).follows _ _ whole
        · exact (rule token.pos).follows _ _ whole
    | @last token token' braces becomes place closing =>
      have alone : Continues [token] (token' :: braces) := .last becomes place closing
      dsimp only
      rw [startsMark_of_closing .nil (by decide), startsMark_of_closing closing (by decide), startsDeclaration_eq alone,
        ← place]
      generalize token.kind = kind, token'.kind = kind' at becomes
      cases becomes with
      | atKeyword => exact .of_ends (.set_bind ((directive _ token.pos).ends [] ended_nil))
      | «variable» => exact (rule token.pos).follows _ _ alone
      | blank | ident | hash =>
        dsimp only
        split
        · exact ((breaks.declaration token.pos).bind later).follows _ _ alone
        · exact (rule token.pos).follows _ _ alone

theorem breaksOff_block (breaks : BreaksOffStatements n) : BreaksOff (Grammar.block (n + 1)) := by
  rw [Grammar.block]
  exact (breaksOff_expectMark '{').bind fun _ => breaks.statements true

theorem breaksOff_optionalBlock (breaks : BreaksOffStatements n) : BreaksOff (Grammar.optionalBlock (n + 1)) := by
  rw [Grammar.optionalBlock]
  apply (breaksOff_atMark (by decide)).bind
  intro opens
  split
  · exact breaks.block.map
  · exact breaksOff_endStatement.bind fun _ => .pure

theorem breaksOff_rule (breaks : BreaksOffStatements n) (pos : Position) : BreaksOff (Grammar.rule (n + 1) pos) := by
  rw [Grammar.rule]
  apply ((breaksOffExpressions n).rawTemplate false ['{', ';', '}']).bind
  intro selector
  apply (breaksOff_atMark (by decide)).bind
  intro opens
  split
  · exact .fail
  · exact breaks.block.bind fun _ => .pure

theorem breaksOff_declaration (breaks : BreaksOffStatements n) (pos : Position) :
    BreaksOff (Grammar.declaration (n + 1) pos) := by
  rw [Grammar.declaration]
  apply ((breaksOffExpressions n).rawTemplate false [':']).bind
  intro property
  apply (breaksOff_expectMark ':').bind
  intro _
  dsimp only
  split
  · apply breaksOff_skipTrivia.bind
    intro _
    apply ((breaksOffExpressions n).rawTemplate false [';', '}']).bind
    intro text
    exact breaksOff_endStatement.bind fun _ => .pure
  · have behind (value : Option Expr) : BreaksOff (do
        let important ← importance
        if ← atMark '{' then
          return Statement.declaration pos (Template.trimEnd property) value important (← Grammar.block n)
        else if value.isNone then fail .expression
        else
          endStatement
          return .declaration pos (Template.trimEnd property) value important []) := by
      apply breaksOff_importance.bind
      intro important
      apply (breaksOff_atMark (by decide)).bind
      intro opens
      split
      · exact breaks.block.bind fun _ => .pure
      · split
        · exact .fail
        · exact breaksOff_endStatement.bind fun _ => .pure
    apply (breaksOff_atMark (by decide)).bind
    intro opens
    split
    · exact behind none
    · exact (breaksOffExpressions n).expression.map.bind behind

theorem breaksOff_message (n : Nat) (kind : MessageKind) (pos : Position) :
    BreaksOff (Grammar.message (n + 1) kind pos) := by
  rw [Grammar.message]
  apply (breaksOffExpressions n).expression.bind
  intro value
  exact breaksOff_endStatement.bind fun _ => .pure

/-- The file that a definition stands in is the same in both texts. -/
theorem BreaksOff.file_bind {next : String → Parse α} (later : ∀ file, BreaksOff (next file)) :
    BreaksOff (do next (← read).file) := by
  refine ⟨fun tokens ended context => (later context.file).ends tokens ended context, ?_⟩
  intro short long continues context context' alike value left' run
  change Pursues context value left' (next context.file context short)
  rw [alike.file]
  exact (later context'.file).follows short long continues context context' alike value left' run

theorem breaksOff_callable (breaks : BreaksOffStatements n) : BreaksOff (Grammar.callable (n + 1)) := by
  have behind (name : String) (parameters : List Parameter) (rest : Option String) : BreaksOff (do
      let body ← Grammar.block n
      return { name, parameters, rest, body, file := (← read).file : Callable Statement }) := by
    apply breaks.block.bind
    intro body
    exact .file_bind fun _ => .pure
  rw [Grammar.callable]
  apply breaksOff_expectName.bind
  intro name
  apply (breaksOff_eatMark (by decide)).bind
  intro opens
  split
  · exact (breaksOff_parameters n).bind fun given => behind name given.1 given.2
  · exact behind name [] none

theorem breaksOff_branches (breaks : BreaksOffStatements n) : BreaksOff (Grammar.branches (n + 1)) := by
  have conditional : BreaksOff (do
      let condition ← Grammar.expression n
      let body ← Grammar.block n
      let behind ← Grammar.branches n
      return ((condition, body) :: behind.1, behind.2)) := by
    apply (breaksOffExpressions n).expression.bind
    intro condition
    apply breaks.block.bind
    intro body
    exact breaks.branches.bind fun _ => .pure
  have otherwise : BreaksOff (do
      return (([] : List (Expr × List Statement)), some (← Grammar.block n))) := breaks.block.bind fun _ => .pure
  rw [Grammar.branches]
  refine .get_bind (fun tokens ended => ?_) fun short long continues => ?_
  · rw [elseAt?_of_ended ended]
    exact .pure ended
  · rcases elseAt?_continues continues with ⟨none, none'⟩ | ⟨condition, rest, rest', first, second, behind⟩
    · rw [none, none']
      exact .pure continues
    · rw [first, second]
      cases condition with
      | true => exact .set_bind (conditional.follows rest rest' behind)
      | false => exact .set_bind (otherwise.follows rest rest' behind)

theorem breaksOff_directive (breaks : BreaksOffStatements n) (name : String) (pos : Position) :
    BreaksOff (Grammar.directive (n + 1) name pos) := by
  have expressions := breaksOffExpressions n
  have block (statement : List Statement → Statement) : BreaksOff (do return statement (← Grammar.block n)) :=
    breaks.block.bind fun _ => .pure
  have optional (statement : Option (List Statement) → Statement) :
      BreaksOff (do return statement (← Grammar.optionalBlock n)) := breaks.optionalBlock.bind fun _ => .pure
  have simple (statement : Statement) : BreaksOff (do endStatement; return statement) :=
    breaksOff_endStatement.bind fun _ => .pure
  apply directive_cases name pos (motive := fun parse => BreaksOff (parse n))
  case imports => exact (breaksOff_importTargets n).bind fun _ => simple _
  case mixin | function => exact breaks.callable.bind fun _ => .pure
  case inclusion =>
    apply breaksOff_expectName.bind
    intro mixin
    apply (breaksOff_eatMark (by decide)).bind
    intro opens
    split
    · exact (expressions.argumentList.stoppingAt knownStops).bind fun _ => optional _
    · exact optional _
  case content =>
    apply (breaksOff_atMark (by decide)).bind
    intro opens
    split
    · exact (expressions.argumentList.stoppingAt knownStops).bind fun _ => simple _
    · exact simple _
  case result => exact expressions.expression.bind fun _ => simple _
  case branch =>
    apply expressions.expression.bind
    intro condition
    apply breaks.block.bind
    intro body
    exact breaks.branches.bind fun _ => .pure
  case otherwise => exact .fail
  case forEach =>
    apply (breaksOff_loopNames n).bind
    intro names
    apply (breaksOff_expectWord (by decide)).bind
    intro _
    exact expressions.expression.bind fun _ => block _
  case forRange =>
    apply breaksOff_expectVariable.bind
    intro name
    apply (breaksOff_expectWord (by decide)).bind
    intro _
    apply (expressions.expression.stoppingAt (by decide)).bind
    intro first
    apply breaksOff_rangeWord.bind
    intro inclusive
    exact expressions.expression.bind fun _ => block _
  case whileTrue => exact expressions.expression.bind fun _ => block _
  case tells => exact fun kind => breaks.message kind pos
  case unsupported =>
    apply (expressions.rawTemplate false [';', '{', '}']).bind
    intro _
    exact breaks.optionalBlock.bind fun _ => .pure
  case media =>
    apply breaksOff_skipTrivia.bind
    intro _
    exact (expressions.rawTemplate true ['{', ';']).bind fun _ => block _
  case other =>
    apply breaksOff_skipTrivia.bind
    intro _
    exact (expressions.rawTemplate false ['{', ';', '}']).bind fun _ => optional _

theorem breaksOffStatements (n : Nat) : BreaksOffStatements n := by
  induction n with
  | zero =>
    exact ⟨fun _ => .giveUp, .giveUp, .giveUp, fun _ => .giveUp, fun _ => .giveUp, fun _ _ => .giveUp,
      fun _ _ => .giveUp, .giveUp, .giveUp⟩
  | succ n shallower =>
    exact {
      statements := breaksOff_statements shallower
      block := breaksOff_block shallower
      optionalBlock := breaksOff_optionalBlock shallower
      rule := breaksOff_rule shallower
      declaration := breaksOff_declaration shallower
      directive := breaksOff_directive shallower
      message := breaksOff_message n
      callable := breaksOff_callable shallower
      branches := breaksOff_branches shallower }

end Stylesheet.Grammar
