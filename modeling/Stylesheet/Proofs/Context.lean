import Stylesheet.Proofs.Tasks
import Stylesheet.Proofs.Growth

/-! Where an evaluation is: in which file, scope, block and rule, and inside of what. Whatever a statement or an
expression does, and whether it fails or not, the evaluation is there again behind it. Only the first declaration of a
block outside of any rule leaves the rule that it makes as the current one, for the declarations that follow it. -/

namespace Stylesheet.Evaluation

/-- The same context, whatever the current rules are. -/
structure SameContext (before after : State) : Prop where
  sheet : after.sheet = before.sheet
  file : after.file = before.file
  source : after.source = before.source
  scope : after.place.scope = before.place.scope
  container : after.place.container = before.place.container
  selectors : after.place.selectors = before.place.selectors
  media : after.place.media = before.place.media
  inKeyframes : after.place.inKeyframes = before.place.inKeyframes
  depth : after.place.depth = before.place.depth
  content : after.content = before.content
  functionDepth : after.functionDepth = before.functionDepth
  propertyName : after.propertyName = before.propertyName
  statementPos : after.statementPos = before.statementPos

/-- There was no current rule. Now it is a new one in the current block, for the current selectors. -/
def RuleMade (before after : State) : Prop :=
  ∃ id selectors entry, before.place.rule = none ∧ before.place.selectors = some selectors ∧
    after.place.rule = some id ∧ before.tree.entries.size ≤ id ∧ after.tree.entries[id]? = some entry ∧
    entry.content = .rule selectors ∧ entry.holder = before.place.container

/-- The current container is a block of the tree, if there is one. -/
def State.Anchored (state : State) : Prop := ∀ id, state.place.container = some id → state.tree.isBlock id = true

variable {inner outer part : Part} {before between after state entered : State} {leave : State → State}

namespace SameContext

theorem refl (state : State) : SameContext state state := by
  constructor <;> rfl

theorem trans (first : SameContext before between) (second : SameContext between after) : SameContext before after where
  sheet := second.sheet.trans first.sheet
  file := second.file.trans first.file
  source := second.source.trans first.source
  scope := second.scope.trans first.scope
  container := second.container.trans first.container
  selectors := second.selectors.trans first.selectors
  media := second.media.trans first.media
  inKeyframes := second.inKeyframes.trans first.inKeyframes
  depth := second.depth.trans first.depth
  content := second.content.trans first.content
  functionDepth := second.functionDepth.trans first.functionDepth
  propertyName := second.propertyName.trans first.propertyName
  statementPos := second.statementPos.trans first.statementPos

/-- What was changed for something inside is put back behind it. -/
theorem leaves (enters : Enters inner outer state entered leave) (same : SameContext entered after) :
    SameContext state (leave after) := by
  cases enters with
  | inScope => exact { same with scope := rfl }
  | inFile => exact { same with file := rfl, source := rfl }
  | inFunction => exact { same with functionDepth := rfl }
  | inProperty => exact { same with propertyName := rfl }
  | atStatement => exact { same with statementPos := rfl }
  | inSheet => exact { same with sheet := rfl, file := rfl, source := rfl }
  | withContent state block =>
    have content : after.content.tail = state.content := by rw [same.content]; rfl
    exact { same with content }
  | @content _ block outer handed =>
    have content : some block :: after.content = state.content := by rw [same.content, handed]
    exact { same with content }
  | inRule | inDirective | inMedia =>
    exact { same with
      scope := rfl, container := rfl, selectors := rfl, media := rfl, inKeyframes := rfl, depth := rfl }

end SameContext

namespace RuleMade

/-- What was done before a rule was made does not matter to it. -/
theorem behind (made : RuleMade between after) (keeps : before.tree.Keeps between.tree)
    (rule : between.place.rule = before.place.rule) (selectors : between.place.selectors = before.place.selectors)
    (container : between.place.container = before.place.container) : RuleMade before after := by
  obtain ⟨id, current, entry, missing, known, changed, later, found, content, holder⟩ := made
  have new : before.tree.entries.size ≤ id := Nat.le_trans keeps.size_le later
  exact ⟨id, current, entry, rule ▸ missing, selectors ▸ known, changed, new, found, content, container ▸ holder⟩

/-- A rule that was made stays what and where it is. -/
theorem keeps (made : RuleMade before between) (keeps : between.tree.Keeps after.tree)
    (rule : after.place.rule = between.place.rule) : RuleMade before after := by
  obtain ⟨id, selectors, entry, missing, known, current, new, found, content, holder⟩ := made
  obtain ⟨later, present, same, held⟩ := keeps id entry found
  exact ⟨id, selectors, later, missing, known, rule.trans current, new, present, same.trans content,
    held.trans holder⟩

end RuleMade

namespace State.Anchored

theorem keeps (anchored : before.Anchored) (keeps : before.tree.Keeps after.tree)
    (container : after.place.container = before.place.container) : after.Anchored :=
  fun id held => keeps.isBlock (anchored id (container ▸ held))

/-- A block that was pushed can be the container. -/
theorem pushed (holder : Option Nat) (name parameters : String) (pos : Position) :
    (state.pushed holder (.block name parameters) pos).isBlock state.tree.entries.size = true := by
  simp [State.pushed, Css.Tree.push, Css.Tree.isBlock, Css.Entry.isBlock]

theorem enters (enters : Enters inner outer state entered leave) (anchored : state.Anchored) : entered.Anchored := by
  cases enters with
  | inRule => exact anchored.keeps (Css.Tree.keeps_push _ _ _ _ _) rfl
  | inDirective =>
    rintro _ ⟨⟩
    exact pushed _ _ _ _
  | inMedia =>
    rintro _ ⟨⟩
    exact pushed _ _ _ _
  | inSheet _ sheet => exact anchored.keeps (Css.Tree.keeps_addSource _ _ _) rfl
  | _ => exact anchored

end State.Anchored

/-- A statement or an expression is back where it began. A rule is made by statements alone, outside of functions. -/
structure Returns (part : Part) (before after : State) : Prop where
  context : SameContext before after
  keeps : before.tree.Keeps after.tree
  rule : after.place.rule = before.place.rule ∨
    part = .statement ∧ before.functionDepth = 0 ∧ RuleMade before after

namespace Returns

/-- Most changes leave the tree and the place. -/
theorem still (context : SameContext before after) (tree : after.tree = before.tree)
    (rule : after.place.rule = before.place.rule) : Returns part before after :=
  ⟨context, tree ▸ .refl _, .inl rule⟩

theorem grown (context : SameContext before after) (keeps : before.tree.Keeps after.tree)
    (rule : after.place.rule = before.place.rule) : Returns part before after :=
  ⟨context, keeps, .inl rule⟩

theorem trans (first : Returns part before between) (second : Returns part between after) : Returns part before after := by
  refine ⟨first.context.trans second.context, first.keeps.trans second.keeps, ?_⟩
  rcases first.rule with same | ⟨statement, outside, made⟩
  · rcases second.rule with same' | ⟨statement, outside, made⟩
    · exact .inl (same'.trans same)
    · have outside : before.functionDepth = 0 := first.context.functionDepth ▸ outside
      exact .inr ⟨statement, outside, made.behind first.keeps same first.context.selectors first.context.container⟩
  · rcases second.rule with same' | ⟨-, -, again⟩
    · exact .inr ⟨statement, outside, made.keeps second.keeps same'⟩
    · -- Once there is a current rule, no other one is made.
      obtain ⟨_, _, _, -, -, current, -⟩ := made
      obtain ⟨_, _, _, missing, -⟩ := again
      rw [current] at missing
      cases missing

/-- What is entered begins with the nodes that are there. -/
theorem entered_keeps (enters : Enters inner outer state entered leave) : state.tree.Keeps entered.tree := by
  cases enters with
  | inRule | inDirective | inMedia => exact Css.Tree.keeps_push _ _ _ _ _
  | inSheet => exact Css.Tree.keeps_addSource _ _ _
  | _ => exact .refl _

theorem leave_tree (enters : Enters inner outer state entered leave) : (leave after).tree = after.tree := by
  cases enters <;> rfl

theorem leaves (enters : Enters inner outer state entered leave) (inside : Returns inner entered after) :
    Returns outer state (leave after) := by
  have keeps : state.tree.Keeps (leave after).tree := by
    rw [leave_tree enters]
    exact (entered_keeps enters).trans inside.keeps
  refine ⟨inside.context.leaves enters, keeps, ?_⟩
  cases enters with
  | inRule | inDirective | inMedia => exact .inl rfl
  | inFunction =>
    rcases inside.rule with same | ⟨-, outside, -⟩
    · exact .inl same
    · cases outside
  | inSheet =>
    rcases inside.rule with same | ⟨statement, outside, made⟩
    · exact .inl same
    · have made : RuleMade state after := made.behind (entered_keeps (.inSheet state _)) rfl rfl rfl
      exact .inr ⟨statement, outside, made⟩
  | _ => exact inside.rule

/-- The rule that a declaration makes stands in the current container. -/
theorem ruleMade {selectors : Selectors} {pos : Position} (anchored : before.Anchored)
    (outside : before.functionDepth = 0) (missing : before.place.rule = none)
    (known : before.place.selectors = some selectors) :
    Returns .statement before { before with
      tree := before.pushed before.place.container (.rule selectors) pos
      place.rule := some before.tree.entries.size } := by
  refine ⟨by constructor <;> rfl, Css.Tree.keeps_push _ _ _ _ _, .inr ⟨rfl, outside, ?_⟩⟩
  exact ⟨_, selectors, _, missing, known, rfl, Nat.le_refl _, Css.Tree.getElem?_push_size anchored, rfl, rfl⟩

end Returns

/-- By induction on the course: no change that it is made of leads elsewhere. -/
theorem Leads.returns (leads : Leads part before after) (anchored : before.Anchored) : Returns part before after := by
  induction leads with
  | refl => exact .still (.refl _) rfl rfl
  | trans _ _ first second =>
    have begun := first anchored
    exact begun.trans (second (anchored.keeps begun.keeps begun.context.container))
  | expression _ inside =>
    obtain ⟨context, keeps, same | ⟨statement, -⟩⟩ := inside anchored
    · exact .grown context keeps same
    · cases statement
  | inside enters _ inside => exact (inside (anchored.enters enters)).leaves enters
  | directive | comment => exact .grown (by constructor <;> rfl) (Css.Tree.keeps_push _ _ _ _ _) rfl
  | item => exact .grown (by constructor <;> rfl) (Css.Tree.keeps_pushItem _ _ _) rfl
  | rule pos outside missing known => exact .ruleMade anchored outside missing known
  | _ => exact .still (by constructor <;> rfl) rfl rfl

theorem Reachable.anchored (reached : Reachable state) : state.Anchored := by
  induction reached with
  | start sheet =>
    rintro id ⟨⟩
  | leads _ leads anchored =>
    have returned := leads.returns anchored
    exact anchored.keeps returned.keeps returned.context.container
  | enters _ enters anchored => exact anchored.enters enters

/-- Where an evaluation can come to, every statement and every expression ends where it began, whether it fails or not,
at any bound on the depth. A statement may leave a new rule for the current selectors as the current one, where there was
none; an expression leaves the current rule, too. -/
theorem evaluation_returns (reached : Reachable before) (depth : Nat) (environment : Environment) :
    (∀ statement, let after := (((evaluator depth).exec statement).outcome environment before).2
      SameContext before after ∧ (after.place.rule = before.place.rule ∨ RuleMade before after)) ∧
    ∀ expr, let after := (((evaluator depth).eval expr).outcome environment before).2
      SameContext before after ∧ after.place.rule = before.place.rule := by
  have guided := guided_evaluator depth
  refine ⟨fun statement => ?_, fun expr => ?_⟩
  · obtain ⟨context, -, rule⟩ := (guided.exec statement environment before).returns reached.anchored
    exact ⟨context, rule.imp_right fun made => made.2.2⟩
  · obtain ⟨context, -, same | ⟨statement, -⟩⟩ := (guided.eval expr environment before).returns reached.anchored
    · exact ⟨context, same⟩
    · cases statement

/-- There is nothing to import. -/
def plainEnvironment : Environment := ⟨5, none, [], ⟨true, []⟩, .start []⟩

/-- Inside of a media block in a rule. -/
def mediaState : State :=
  ((State.start { path := "stdin", source := "", directory := none, chain := ["stdin"], statements := [] }).inRule
    (Selectors.parse "a") .start).inMedia "print" .start

theorem reachable_mediaState : Reachable mediaState := .enters (.enters (.start _) (.inRule _ _ rfl)) (.inMedia _ _ rfl)

/-- There, a declaration leaves a rule for those that follow it. -/
theorem evaluation_returns_media :
    let declaration : Statement := .declaration .start [.text "x"] (some (.string [.text "1"] false)) false []
    let after := (((evaluator 2).exec declaration).outcome plainEnvironment mediaState).2
    SameContext mediaState after ∧ RuleMade mediaState after := by
  intro declaration after
  obtain ⟨context, same | made⟩ := (evaluation_returns reachable_mediaState 2 plainEnvironment).1 declaration
  · have current : after.place.rule = some 2 := by decide +kernel
    cases current.symm.trans same
  · exact ⟨context, made⟩

end Stylesheet.Evaluation
