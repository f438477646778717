import Stylesheet.Proofs.MentionReading

/-! What statements take from the text that they are read from, however deep they stand: mixins and functions the name
of its file, and imports their references, which are strings among its tokens. -/

namespace Stylesheet

open Grammar

/-- A token is a string with this content and stands here. -/
def Token.Cites (token : Token) (contents : String) (pos : Position) : Prop :=
  token.pos = pos ∧ ∃ quote, token.kind = .quoted contents quote

namespace Statement

/-- The definition that a statement makes. -/
def definition? : Statement → Option (Callable Statement)
  | mixin _ callable | function _ callable => some callable
  | _ => none

/-- What a statement imports itself. -/
def targets : Statement → List ImportTarget
  | imports _ targets => targets
  | _ => []

/-- A statement stands somewhere among others: it is one of them, or in a block of one that does. -/
inductive Within (statements : List Statement) : Statement → Prop
  | here {statement : Statement} (member : statement ∈ statements) : Within statements statement
  | deeper {outer statement : Statement} {body : List Statement} (around : Within statements outer)
    (block : body ∈ outer.blocks) (member : statement ∈ body) : Within statements statement

/-- All definitions that stand among some statements carry the name of a file. -/
def FiledIn (file : String) (statements : List Statement) : Prop :=
  ∀ statement, Within statements statement → ∀ callable ∈ statement.definition?, callable.file = file

/-- A reference to a stylesheet is a string of a supply. -/
def Quoted (supply : Supply) (target : ImportTarget) : Prop :=
  ∀ reference pos, target = .sheet reference pos → ∃ token, supply.fit token ∧ token.Cites reference pos

/-- What a statement takes from a supply itself. -/
structure Own (supply : Supply) (statement : Statement) : Prop where
  definition : ∀ callable ∈ statement.definition?, callable.file = supply.file
  targets : ∀ target ∈ statement.targets, Quoted supply target

/-- All statements that stand among some are taken from a supply. -/
def TakenFrom (supply : Supply) (statements : List Statement) : Prop :=
  ∀ statement, Within statements statement → statement.Own supply

variable {statements rest : List Statement} {statement first : Statement} {supply : Supply}

theorem Within.cases_nil (stands : Within [] statement) : False := by
  induction stands with
  | here member => cases member
  | deeper _ _ _ none => exact none

theorem Within.cases_cons (stands : Within (first :: rest) statement) :
    statement = first ∨ (∃ body ∈ first.blocks, Within body statement) ∨ Within rest statement := by
  induction stands with
  | here member => exact (List.mem_cons.1 member).imp_right fun later => .inr (.here later)
  | deeper around block member outer =>
    rcases outer with rfl | ⟨body, first, inside⟩ | later
    · exact .inr (.inl ⟨_, block, .here member⟩)
    · exact .inr (.inl ⟨body, first, inside.deeper block member⟩)
    · exact .inr (.inr (later.deeper block member))

/-- What a statement needs to be taken from a supply with all that stands in it. -/
structure Files (supply : Supply) (statement : Statement) : Prop where
  own : statement.Own supply
  inside : ∀ body ∈ statement.blocks, TakenFrom supply body

theorem takenFrom_nil (supply : Supply) : TakenFrom supply [] := fun _ stands => absurd stands Within.cases_nil

theorem Files.cons (here : first.Files supply) (later : TakenFrom supply rest) : TakenFrom supply (first :: rest) := by
  intro statement stands
  rcases stands.cases_cons with rfl | ⟨body, block, inside⟩ | behind
  · exact here.own
  · exact here.inside body block statement inside
  · exact later statement behind

theorem quoted_css (supply : Supply) (text : Template Expr) : Quoted supply (.css text) := by
  intro reference pos same
  cases same

/-- A statement that takes nothing itself, and has no blocks. -/
theorem files_simple (none : statement.definition? = none) (none' : statement.targets = [])
    (empty : statement.blocks = []) : statement.Files supply :=
  ⟨⟨by simp [none], by simp [none']⟩, by simp [empty]⟩

theorem files_body {body : List Statement} (none : statement.definition? = none) (none' : statement.targets = [])
    (blocks : statement.blocks = [body]) (inside : TakenFrom supply body) : statement.Files supply :=
  ⟨⟨by simp [none], by simp [none']⟩, by simpa [blocks] using inside⟩

end Statement

namespace Grammar
open Statement

variable {supply : Supply} {n : Nat}

/-- The parsers of statements take what they read from a supply, as long as they go no deeper than a bound. -/
structure Filing (supply : Supply) (n : Nat) : Prop where
  statements : ∀ inBlock, Keeps supply (TakenFrom supply) (Grammar.statements n inBlock)
  block : Keeps supply (TakenFrom supply) (Grammar.block n)
  optionalBlock : Keeps supply (fun body => ∀ statements ∈ body, TakenFrom supply statements) (Grammar.optionalBlock n)
  rule : ∀ pos, Keeps supply (Files supply) (Grammar.rule n pos)
  declaration : ∀ pos, Keeps supply (Files supply) (Grammar.declaration n pos)
  directive : ∀ name pos, Keeps supply (Files supply) (Grammar.directive n name pos)
  message : ∀ kind pos, Keeps supply (Files supply) (Grammar.message n kind pos)
  callable : Keeps supply (fun callable => callable.file = supply.file ∧ TakenFrom supply callable.body)
    (Grammar.callable n)
  branches : Keeps supply
    (fun (clauses, otherwise) => ∀ body ∈ clauses.map (·.2) ++ otherwise.toList, TakenFrom supply body)
    (Grammar.branches n)

theorem cites_of_referenceAt? {tokens rest : List Token} {reference : String} {pos : Position}
    (found : referenceAt? tokens = some (reference, pos, rest)) : ∃ token ∈ tokens, token.Cites reference pos := by
  unfold referenceAt? at found
  split at found
  · next token behind starts =>
    split at found
    · next contents quote kind =>
      dsimp only at found
      split at found
      · cases found
        have member : token ∈ significant tokens := starts ▸ List.mem_cons_self
        exact ⟨token, significant_subset tokens member, rfl, quote, kind⟩
      · cases found
    · cases found
  · cases found

theorem assignment_files (n : Nat) (name : String) (pos : Position) :
    Keeps supply (Files supply) (assignment n name pos) := by
  refine (passes_expectMark ':').andThen fun _ => (findsExpressions supply n).expression.passes.andThen fun _ => ?_
  refine (passes_assignmentFlags n false false).andThen fun _ => passes_endStatement.andThen fun _ => ?_
  exact .pure (files_simple rfl rfl rfl)

theorem importTargets_quoted (n : Nat) :
    Keeps supply (fun targets => ∀ target ∈ targets, Quoted supply target) (importTargets n) := by
  induction n with
  | zero => exact .giveUp
  | succ n shorter =>
    rw [importTargets]
    apply Keeps.get_bind
    intro tokens good
    split
    · next reference pos rest found =>
      have quoted : Quoted supply (.sheet reference pos) := by
        rintro _ _ ⟨⟩
        obtain ⟨token, member, cites⟩ := cites_of_referenceAt? found
        exact ⟨token, good token member, cites⟩
      refine .set_bind (fun token member => good token (mem_of_referenceAt? found member)) ?_
      apply (passes_eatMark ',').andThen
      intro more
      split
      · apply shorter.bind
        intro targets others
        exact .pure (List.forall_mem_cons.2 ⟨quoted, others⟩)
      · exact .pure (List.forall_mem_singleton.2 quoted)
    · apply keeps_peek.passes.andThen
      intro token?
      split
      · exact .fail
      · apply ((findsExpressions supply n).rawTemplate false [';', '}']).passes.andThen
        intro text
        exact .pure (List.forall_mem_singleton.2 (quoted_css supply _))

theorem filing_statements (filing : Filing supply n) (inBlock : Bool) :
    Keeps supply (TakenFrom supply) (Grammar.statements (n + 1) inBlock) := by
  have behind {first : Statement} (here : first.Files supply) :
      Keeps supply (TakenFrom supply) (do return first :: (← Grammar.statements n inBlock)) :=
    (filing.statements inBlock).bind fun rest later => .pure (here.cons later)
  rw [Grammar.statements]
  apply passes_skipBlank.andThen
  intro _
  apply Keeps.get_bind
  intro tokens good
  cases tokens with
  | nil =>
    dsimp only
    split
    · exact .fail
    · exact .pure (takenFrom_nil supply)
  | cons token rest =>
    have after := (List.forall_mem_cons.1 good).2
    dsimp only
    split
    · exact .set_bind after (behind (files_simple rfl rfl rfl))
    · split
      · exact .set_bind after (.pure (takenFrom_nil supply))
      · exact .fail
    · exact .set_bind after (filing.statements inBlock)
    · exact .set_bind after ((filing.directive _ token.pos).bind fun _ here => behind here)
    · split
      · exact .set_bind after ((assignment_files n _ token.pos).bind fun _ here => behind here)
      · exact (filing.rule token.pos).bind fun _ here => behind here
    · split
      · exact (filing.declaration token.pos).bind fun _ here => behind here
      · exact (filing.rule token.pos).bind fun _ here => behind here

theorem filing_block (filing : Filing supply n) : Keeps supply (TakenFrom supply) (Grammar.block (n + 1)) := by
  rw [Grammar.block]
  exact (passes_expectMark '{').andThen fun _ => filing.statements true

theorem filing_optionalBlock (filing : Filing supply n) :
    Keeps supply (fun body => ∀ statements ∈ body, TakenFrom supply statements) (Grammar.optionalBlock (n + 1)) := by
  rw [Grammar.optionalBlock]
  apply (passes_atMark '{').andThen
  intro opens
  split
  · exact .map (filing.block.imp fun body inside => by rintro _ ⟨⟩; exact inside)
  · exact passes_endStatement.andThen fun _ => .pure fun body member => absurd member (Option.not_mem_none body)

theorem filing_rule (filing : Filing supply n) (pos : Position) :
    Keeps supply (Files supply) (Grammar.rule (n + 1) pos) := by
  rw [Grammar.rule]
  apply ((findsExpressions supply n).rawTemplate false ['{', ';', '}']).passes.andThen
  intro selector
  apply (passes_atMark '{').andThen
  intro opens
  split
  · exact .fail
  · exact filing.block.bind fun body inside => .pure (files_body rfl rfl rfl inside)

theorem filing_declaration (filing : Filing supply n) (pos : Position) :
    Keeps supply (Files supply) (Grammar.declaration (n + 1) pos) := by
  have expressions := findsExpressions supply n
  rw [Grammar.declaration]
  apply (expressions.rawTemplate false [':']).passes.andThen
  intro property
  apply (passes_expectMark ':').andThen
  intro _
  dsimp only
  split
  · apply passes_skipTrivia.andThen
    intro _
    apply (expressions.rawTemplate false [';', '}']).passes.andThen
    intro text
    exact passes_endStatement.andThen fun _ => .pure (files_body rfl rfl rfl (takenFrom_nil supply))
  · -- Behind the value, if there is one, there may be a block.
    have behind (value : Option Expr) : Keeps supply (Files supply) (do
        let important ← importance
        if ← atMark '{' then return Statement.declaration pos (Template.trimEnd property) value important (← block n)
        else if value.isNone then fail .expression
        else
          endStatement
          return .declaration pos (Template.trimEnd property) value important []) := by
      apply passes_importance.andThen
      intro important
      apply (passes_atMark '{').andThen
      intro opens
      split
      · exact filing.block.bind fun body inside => .pure (files_body rfl rfl rfl inside)
      · split
        · exact .fail
        · exact passes_endStatement.andThen fun _ => .pure (files_body rfl rfl rfl (takenFrom_nil supply))
    apply (passes_atMark '{').andThen
    intro opens
    split
    · exact behind none
    · have value : Passes supply (some <$> expression n) := .map expressions.expression.passes
      exact value.andThen behind

theorem filing_message (n : Nat) (kind : MessageKind) (pos : Position) :
    Keeps supply (Files supply) (Grammar.message (n + 1) kind pos) := by
  rw [Grammar.message]
  refine (findsExpressions supply n).expression.passes.andThen fun _ => passes_endStatement.andThen fun _ => ?_
  exact .pure (files_simple rfl rfl rfl)

theorem filing_into_block (filing : Filing supply n) {statement : List Statement → Statement}
    (none : ∀ body, (statement body).definition? = none) (none' : ∀ body, (statement body).targets = [])
    (blocks : ∀ body, (statement body).blocks = [body]) :
    Keeps supply (Files supply) (do return statement (← Grammar.block n)) := by
  apply filing.block.bind
  intro body inside
  exact .pure (files_body (none body) (none' body) (blocks body) inside)

theorem filing_into_optionalBlock (filing : Filing supply n) {statement : Option (List Statement) → Statement}
    (none : ∀ body, (statement body).definition? = none) (none' : ∀ body, (statement body).targets = [])
    (blocks : ∀ body, (statement body).blocks = body.toList) :
    Keeps supply (Files supply) (do return statement (← Grammar.optionalBlock n)) := by
  apply filing.optionalBlock.bind
  intro body inside
  exact .pure ⟨⟨by simp [none], by simp [none']⟩, fun block member => inside block (by simpa [blocks] using member)⟩

theorem filing_definition (filing : Filing supply n) {statement : Callable Statement → Statement}
    (own : ∀ callable, (statement callable).definition? = some callable)
    (none : ∀ callable, (statement callable).targets = [])
    (blocks : ∀ callable, (statement callable).blocks = [callable.body]) :
    Keeps supply (Files supply) (do return statement (← Grammar.callable n)) := by
  apply filing.callable.bind
  intro callable given
  exact .pure ⟨⟨by simpa [own] using given.1, by simp [none]⟩, by simpa [blocks] using given.2⟩

theorem filing_directive (filing : Filing supply n) (name : String) (pos : Position) :
    Keeps supply (Files supply) (Grammar.directive (n + 1) name pos) := by
  have expressions := findsExpressions supply n
  apply directive_cases name pos (motive := fun parse => Keeps supply (Files supply) (parse n))
  case imports =>
    refine (importTargets_quoted n).bind fun targets quoted => passes_endStatement.andThen fun _ => .pure ?_
    exact ⟨⟨by simp [Statement.definition?], quoted⟩, by simp [Statement.blocks]⟩
  case mixin | function => exact filing_definition filing (fun _ => rfl) (fun _ => rfl) fun _ => rfl
  case inclusion =>
    apply passes_expectName.andThen
    intro mixin
    apply (passes_eatMark '(').andThen
    intro opens
    split
    · exact expressions.argumentList.stoppingAt.passes.andThen fun _ =>
        filing_into_optionalBlock filing (fun _ => rfl) (fun _ => rfl) fun _ => rfl
    · exact filing_into_optionalBlock filing (fun _ => rfl) (fun _ => rfl) fun _ => rfl
  case content =>
    have simple : Keeps supply (Files supply) (do
        endStatement
        return Statement.content pos) := passes_endStatement.andThen fun _ => .pure (files_simple rfl rfl rfl)
    apply (passes_atMark '(').andThen
    intro opens
    split
    · exact expressions.argumentList.stoppingAt.passes.andThen fun _ => simple
    · exact simple
  case result =>
    refine expressions.expression.passes.andThen fun _ => passes_endStatement.andThen fun _ => ?_
    exact .pure (files_simple rfl rfl rfl)
  case branch =>
    refine expressions.expression.passes.andThen fun condition => filing.block.bind fun body inside => ?_
    apply filing.branches.bind
    rintro ⟨clauses, otherwise⟩ rest
    have own : (Statement.branch pos ((condition, body) :: clauses) otherwise).Own supply :=
      ⟨by simp [Statement.definition?], by simp [Statement.targets]⟩
    exact .pure ⟨own, List.forall_mem_cons.2 ⟨inside, rest⟩⟩
  case otherwise => exact .fail
  case forEach =>
    refine (passes_loopNames n).andThen fun names => (passes_expectWord "in").andThen fun _ => ?_
    apply expressions.expression.passes.andThen
    intro _
    exact filing_into_block filing (fun _ => rfl) (fun _ => rfl) fun _ => rfl
  case forRange =>
    refine passes_expectVariable.andThen fun name => (passes_expectWord "from").andThen fun _ => ?_
    refine expressions.expression.stoppingAt.passes.andThen fun _ => passes_rangeWord.andThen fun inclusive => ?_
    apply expressions.expression.passes.andThen
    intro _
    exact filing_into_block filing (fun _ => rfl) (fun _ => rfl) fun _ => rfl
  case whileTrue =>
    apply expressions.expression.passes.andThen
    intro _
    exact filing_into_block filing (fun _ => rfl) (fun _ => rfl) fun _ => rfl
  case tells => exact fun kind => filing.message kind pos
  case unsupported =>
    refine (expressions.rawTemplate false [';', '{', '}']).passes.andThen fun _ => ?_
    exact filing.optionalBlock.passes.andThen fun _ => .pure (files_simple rfl rfl rfl)
  case media =>
    refine passes_skipTrivia.andThen fun _ => (expressions.rawTemplate true ['{', ';']).passes.andThen fun query => ?_
    exact filing_into_block filing (fun _ => rfl) (fun _ => rfl) fun _ => rfl
  case other =>
    refine passes_skipTrivia.andThen fun _ => ?_
    refine (expressions.rawTemplate false ['{', ';', '}']).passes.andThen fun parameters => ?_
    exact filing_into_optionalBlock filing (fun _ => rfl) (fun _ => rfl) fun _ => rfl

/-- A definition takes the name of the file from what does not change while a text is parsed. -/
theorem filing_callable (filing : Filing supply n) :
    Keeps supply (fun callable => callable.file = supply.file ∧ TakenFrom supply callable.body)
      (Grammar.callable (n + 1)) := by
  have behind (name : String) (parameters : List Parameter) (rest : Option String) :
      Keeps supply (fun callable : Callable Statement => callable.file = supply.file ∧ TakenFrom supply callable.body)
        (do
          let body ← block n
          return { name, parameters, rest, body, file := (← read).file }) :=
    filing.block.bind fun body inside => .read_bind fun context file => .pure ⟨file, inside⟩
  rw [Grammar.callable]
  apply passes_expectName.andThen
  intro name
  apply (passes_eatMark '(').andThen
  intro opens
  split
  · apply (finds_parameters n).passes.andThen
    rintro ⟨parameters, rest⟩
    exact behind name parameters rest
  · exact behind name [] none

theorem filing_branches (filing : Filing supply n) :
    Keeps supply (fun (clauses, otherwise) => ∀ body ∈ clauses.map (·.2) ++ otherwise.toList, TakenFrom supply body)
      (Grammar.branches (n + 1)) := by
  rw [Grammar.branches]
  apply Keeps.get_bind
  intro tokens good
  split
  · next rest found =>
    refine .set_bind (fun token member => good token (mem_of_elseAt? found member)) ?_
    refine (findsExpressions supply n).expression.passes.andThen fun condition => ?_
    refine filing.block.bind fun body inside => filing.branches.bind ?_
    rintro ⟨clauses, otherwise⟩ rest
    exact .pure (List.forall_mem_cons.2 ⟨inside, rest⟩)
  · next rest found =>
    refine .set_bind (fun token member => good token (mem_of_elseAt? found member)) ?_
    exact filing.block.bind fun body inside => .pure (by simpa using inside)
  · exact .pure fun body member => absurd member List.not_mem_nil

theorem filing (supply : Supply) (n : Nat) : Filing supply n := by
  induction n with
  | zero =>
    exact ⟨fun _ => .giveUp, .giveUp, .giveUp, fun _ => .giveUp, fun _ => .giveUp, fun _ _ => .giveUp,
      fun _ _ => .giveUp, .giveUp, .giveUp⟩
  | succ n shallower =>
    exact {
      statements := filing_statements shallower
      block := filing_block shallower
      optionalBlock := filing_optionalBlock shallower
      rule := filing_rule shallower
      declaration := filing_declaration shallower
      directive := filing_directive shallower
      message := filing_message n
      callable := filing_callable shallower
      branches := filing_branches shallower }

end Grammar

/-- The text that the statements of a source are read from. -/
def Statement.parsedText (source : String) (indented : Bool) : String :=
  if indented then Indented.toBraces source else source

/-- The statements of a source are taken from the tokens of its text. -/
theorem Statement.takenFrom_parse {source file : String} {indented : Bool} {statements : List Statement}
    (parsed : Statement.parse source file indented = .ok statements) :
    TakenFrom (.ofTokens file (· ∈ (lex (parsedText source indented)).tokens)) statements :=
  ((Grammar.filing _ _).statements false).parseText (fun _ member => member) parsed

/-- All definitions of a stylesheet carry the name of its file. -/
theorem Statement.filedIn_parse {source file : String} {indented : Bool} {statements : List Statement}
    (parsed : Statement.parse source file indented = .ok statements) : FiledIn file statements :=
  fun statement stands => (takenFrom_parse parsed statement stands).definition

end Stylesheet
