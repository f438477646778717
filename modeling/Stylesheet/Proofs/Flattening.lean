import Stylesheet.Proofs.Growth
import Stylesheet.Proofs.Runs

/-! Flattening neither loses, doubles nor misplaces a declaration. While a plain statement runs, the place of the
evaluation says what the source has around the statement, and the readings of the statement are added to the tree. -/

namespace Stylesheet.Evaluation
open Css (Tree)

variable {environment : Environment} {before after : State} {around : Surroundings}

/-- The properties around a statement as the evaluation joins them. -/
def propertyName (around : Surroundings) : Option String :=
  if around.properties = [] then none else some ("-".intercalate around.properties)

theorem fullName_propertyName (around : Surroundings) (name : String) :
    Evaluator.fullName (propertyName around) name = "-".intercalate (around.properties ++ [name]) := by
  unfold propertyName
  split
  · next outermost => rw [outermost, List.nil_append, String.intercalate_singleton, Evaluator.fullName]
  · next inner =>
    rw [String.intercalate_append_of_ne_nil inner (List.cons_ne_nil _ _), String.intercalate_singleton,
      Evaluator.fullName]

/-- The innermost media block is known exactly if it is also the innermost directive. -/
structure MediaMatches (around : Surroundings) (tree : Tree) (place : Place) : Prop where
  earlier : ∀ outer, place.media = some outer → outer.block < tree.entries.size
  direct : ∀ query, around.query = some query → ∃ outer, place.media = some outer ∧ outer.query = query ∧
    place.container = some outer.block ∧ tree.pathTo outer.holder = around.path.dropLast ∧
      ∀ id, outer.holder = some id → tree.isBlock id = true
  apart : around.query = none → ∀ outer, place.media = some outer → place.container ≠ some outer.block

/-- A node takes the declarations that stand in given surroundings. -/
def Takes (around : Surroundings) (tree : Tree) (id : Nat) : Prop :=
  ∃ entry, tree.entries[id]? = some entry ∧ entry.takesItems = true ∧ entry.selectors? = around.selectors ∧
    tree.pathIn id = around.path

/-- The place of the evaluation says what is around a statement. -/
structure Stands (around : Surroundings) (state : State) : Prop where
  ordered : state.tree.Ordered
  source : state.source = 0
  outside : state.functionDepth = 0
  still : state.place.inKeyframes = false
  property : state.propertyName = propertyName around
  selectors : state.place.selectors = around.selectors
  container : ∀ id, state.place.container = some id → state.tree.isBlock id = true
  path : state.tree.pathTo state.place.container = around.path
  rule : ∀ id, state.place.rule = some id → Takes around state.tree id
  media : MediaMatches around state.tree state.place

theorem Takes.keeps {first second : Tree} {id : Nat} (takes : Takes around first id) (keeps : first.Keeps second)
    (ordered : first.Ordered) (ordered' : second.Ordered) : Takes around second id := by
  obtain ⟨entry, found, items, selectors, path⟩ := takes
  obtain ⟨later, found', content, -⟩ := keeps id entry found
  refine ⟨later, found', ?_, ?_, ?_⟩
  · simpa only [Css.Entry.takesItems, content] using items
  · simpa only [Css.Entry.selectors?, content] using selectors
  · rw [keeps.pathIn ordered ordered' (Array.getElem?_eq_some_iff.1 found).1, path]

theorem MediaMatches.keeps {first second : Tree} {place : Place} (media : MediaMatches around first place)
    (keeps : first.Keeps second) (ordered : first.Ordered) (ordered' : second.Ordered) :
    MediaMatches around second place where
  earlier outer known := Nat.lt_of_lt_of_le (media.earlier outer known) keeps.size_le
  apart := media.apart
  direct query inner := by
    obtain ⟨outer, known, same, container, path, block⟩ := media.direct query inner
    exact ⟨outer, known, same, container, by rw [keeps.pathTo ordered ordered' block, path],
      fun id held => keeps.isBlock (block id held)⟩

/-- What is around a statement stays around the next one, while the tree grows. -/
theorem Stands.grown (stands : Stands around before) {placed} (grown : before.tree.Grown after.tree placed)
    (place : after.place = before.place) (source : after.source = 0) (outside : after.functionDepth = 0)
    (property : after.propertyName = before.propertyName) : Stands around after where
  ordered := grown.ordered
  source := source
  outside := outside
  still := by rw [place, stands.still]
  property := by rw [property, stands.property]
  selectors := by rw [place, stands.selectors]
  container id held := grown.keeps.isBlock (stands.container id (by rwa [← place]))
  path := by rw [place, grown.keeps.pathTo stands.ordered grown.ordered stands.container, stands.path]
  rule id known := (stands.rule id (by rwa [← place])).keeps grown.keeps stands.ordered grown.ordered
  media := place ▸ stands.media.keeps grown.keeps stands.ordered grown.ordered

theorem grown_pushed (ordered : before.tree.Ordered) (holder : Option Nat) (content : Css.Content) (pos : Position) :
    before.tree.Grown (before.pushed holder content pos) [] :=
  .push ordered _ _ _ _

theorem Stands.pushed (stands : Stands around before) (holder : Option Nat) (content : Css.Content) (pos : Position) :
    Stands around { before with tree := before.pushed holder content pos } :=
  stands.grown (grown_pushed stands.ordered _ _ _) rfl stands.source stands.outside rfl

/-- A rule that is pushed at the current place takes declarations with its selectors. -/
theorem Stands.takes_pushed (stands : Stands around before) (selectors : Selectors) (pos : Position) :
    Takes { around with selectors := some selectors }
      (before.pushed before.place.container (.rule selectors) pos) before.tree.entries.size :=
  ⟨_, Tree.getElem?_push_size stands.container, rfl, rfl,
    (Tree.pathIn_push stands.ordered _ _ _ stands.container).trans stands.path⟩

/-- Inside a rule. -/
theorem Stands.inRule (stands : Stands around before) (selectors : Selectors) (pos : Position) (scopes : Scopes)
    (depth scope : Nat) :
    Stands { around with selectors := some selectors }
      { before with
        tree := before.pushed before.place.container (.rule selectors) pos
        scopes
        place := { before.place with
          rule := some before.tree.entries.size, selectors := some selectors, depth, scope } } := by
  have stays := stands.pushed before.place.container (.rule selectors) pos
  exact { stays with
    selectors := rfl
    rule := fun id same => by
      cases same
      exact stands.takes_pushed selectors pos
    media := ⟨stays.media.earlier, stays.media.direct, stays.media.apart⟩ }

theorem Stands.isBlock_pushed (holder : Option Nat) (name parameters : String) (pos : Position) :
    (before.pushed holder (.block name parameters) pos).isBlock before.tree.entries.size = true := by
  exact Tree.isBlock_iff.2 ⟨⟨.block name parameters, [], _, _, _⟩, name, parameters, Array.getElem?_push_size, rfl⟩

/-- Inside a directive that is no media block. -/
theorem Stands.inDirective (stands : Stands around before) (name parameters : String) (pos : Position)
    (scopes : Scopes) (depth scope : Nat) :
    Stands (around.inDirective name parameters)
      { before with
        tree := before.pushed before.place.container (.block name parameters) pos
        scopes
        place := { before.place with
          container := some before.tree.entries.size, rule := none, depth, scope } } := by
  have stays := stands.pushed before.place.container (.block name parameters) pos
  exact { stays with
    container := fun id same => by
      cases same
      exact Stands.isBlock_pushed _ _ _ _
    path := by
      refine (Tree.pathIn_push stands.ordered _ _ _ stands.container).trans ?_
      rw [stands.path]
      rfl
    rule := fun id same => by cases same
    media :=
      { earlier := stays.media.earlier
        direct := fun query same => by cases same
        apart := fun _ outer known same => by
          have := stands.media.earlier outer known
          simp only [Option.some.injEq] at same
          omega } }

/-- Inside a property. -/
theorem Stands.inProperty (stands : Stands around before) (name : String) :
    Stands { around with properties := around.properties ++ [name] }
      { before with propertyName := some ("-".intercalate (around.properties ++ [name])) } :=
  { stands with
    property := by simp [propertyName]
    media := ⟨stands.media.earlier, stands.media.direct, stands.media.apart⟩ }

/-- Behind a property. -/
theorem Stands.outProperty {name : String} {inner : State}
    (stands : Stands { around with properties := around.properties ++ [name] } inner) :
    Stands around { inner with propertyName := propertyName around } :=
  { stands with
    property := rfl
    media := ⟨stands.media.earlier, stands.media.direct, stands.media.apart⟩ }

/-- The block that a media query goes to, and what stands inside it. -/
theorem Stands.joinedMedia_spec (stands : Stands around before) (query : String) {both : String} {holder : Option Nat}
    (joined : Evaluator.joinedMedia before.place query = (both, holder)) :
    (around.inMedia query).query = some both ∧
      (around.inMedia query).path = before.tree.pathTo holder ++ [("media", both)] ∧
      ∀ id, holder = some id → before.tree.isBlock id = true := by
  unfold Evaluator.joinedMedia at joined
  cases inner : around.query with
  | none =>
    have alone : (query, before.place.container) = (both, holder) := by
      split at joined
      · next outer known => rwa [if_neg (stands.media.apart inner outer known)] at joined
      · exact joined
    cases alone
    simp only [Surroundings.inMedia, inner, stands.path, true_and]
    exact stands.container
  | some outer =>
    obtain ⟨context, known, rfl, container, path, block⟩ := stands.media.direct outer inner
    simp only [known, container, if_true, Prod.mk.injEq] at joined
    obtain ⟨rfl, rfl⟩ := joined
    simp only [Surroundings.inMedia, inner, path, true_and]
    exact block

/-- Inside a media block. -/
theorem Stands.inMedia (stands : Stands around before) (query : String) {both : String} {holder : Option Nat}
    (joined : Evaluator.joinedMedia before.place query = (both, holder)) (pos : Position) (scopes : Scopes)
    (log : List LogEvent) (depth scope : Nat) :
    Stands (around.inMedia query)
      { before with
        tree := before.pushed holder (.block "media" both) pos
        scopes
        log
        place := { before.place with
          media := some ⟨both, holder, before.tree.entries.size⟩
          container := some before.tree.entries.size, rule := none, depth, scope } } := by
  obtain ⟨direct, path, block⟩ := stands.joinedMedia_spec query joined
  have grown := grown_pushed stands.ordered holder (.block "media" both) pos
  have stays := stands.pushed holder (.block "media" both) pos
  have pathIn : (before.pushed holder (.block "media" both) pos).pathIn before.tree.entries.size =
      (around.inMedia query).path := (Tree.pathIn_push stands.ordered _ _ _ block).trans path.symm
  exact { stays with
    property := by simpa only [propertyName, Surroundings.inMedia_properties] using stands.property
    selectors := by simpa only [Surroundings.inMedia_selectors] using stands.selectors
    container := fun id same => by
      cases same
      exact Stands.isBlock_pushed _ _ _ _
    path := pathIn
    rule := fun id same => by cases same
    media :=
      { earlier := fun outer same => by
          cases same
          exact Nat.lt_of_lt_of_eq (Nat.lt_succ_self _) (Array.size_push _).symm
        direct := fun other same => by
          refine ⟨_, rfl, Option.some.inj (direct.symm.trans same), rfl, ?_, ?_⟩
          · rw [path, List.dropLast_concat]
            exact grown.keeps.pathTo stands.ordered grown.ordered block
          · exact fun id held => grown.keeps.isBlock (block id held)
        apart := fun missing => by rw [direct] at missing; cases missing } }

/-- A run has added readings to the tree, and what is around stays. -/
def Flattened (around : Surroundings) (source : Except NestingError (List Reading)) (before after : State) : Prop :=
  ∃ placed, source = .ok (placed.map (·.2)) ∧ before.tree.Grown after.tree placed ∧ Stands around after

theorem Flattened.append {first last : Except NestingError (List Reading)} {between : State}
    (earlier : Flattened around first before between) (later : Flattened around last between after) :
    Flattened around (do return (← first) ++ (← last)) before after := by
  obtain ⟨placed, rfl, grown, -⟩ := earlier
  obtain ⟨placed', rfl, grown', stands⟩ := later
  exact ⟨placed ++ placed', by rw [List.map_append]; rfl, grown.trans grown', stands⟩

/-- What was around a block is around again when the block has run at a place of its own. -/
theorem Flattened.leave {inside : Surroundings} {source : Except NestingError (List Reading)} {entered : State}
    (ran : Flattened inside source entered after) (stands : Stands around before)
    (grown : before.tree.Grown entered.tree []) (properties : inside.properties = around.properties) :
    Flattened around source before { after with place := before.place } := by
  obtain ⟨placed, rfl, grown', stands'⟩ := ran
  have grown := grown.trans grown'
  refine ⟨placed, rfl, grown, stands.grown grown rfl stands'.source stands'.outside ?_⟩
  have same : propertyName inside = propertyName around := by rw [propertyName, propertyName, properties]
  exact stands'.property.trans (same.trans stands.property.symm)

/-- An evaluator finds the values that are written out. -/
def Settles (self : Evaluator) : Prop :=
  ∀ {expr value result environment before after}, expr.constant? = some value →
    Yields (self.eval expr) environment before result after → result = value ∧ after = before

/-- An evaluator flattens plain statements. -/
def Flattens (self : Evaluator) : Prop :=
  ∀ {statement around environment before after value}, statement.isPlain environment.places = true →
    Stands around before → Yields (self.exec statement) environment before value after →
      value = none ∧ Flattened around (statement.readings around) before after

namespace Evaluator

variable {self : Evaluator}

theorem yields_text {template : Template Expr} {text result : String} (plain : template.plain? = some text) :
    Yields (self.text template) environment before result after ↔ result = text ∧ after = before := by
  unfold Template.plain? at plain
  split at plain
  · cases plain
    exact yields_pure
  · cases plain
    simp only [Evaluator.text, yields_bind, yields_pure, and_assoc, exists_and_left, exists_eq_left,
      String.append_empty]
  · cases plain

mutual

theorem yields_cssValue (settles : Settles self) {environment : Environment} {before after : State} :
    (expr : Expr) → {value result : Value} → expr.constant? = some value →
      Yields (self.cssValue expr) environment before result after → result = value ∧ after = before
  | .list items separator bracketed, value, result, written, ran => by
    simp only [Expr.constant?, Option.map_eq_some_iff] at written
    obtain ⟨values, written, rfl⟩ := written
    simp only [cssValue, yields_bind, yields_pure] at ran
    obtain ⟨values', _, ran, rfl, rfl⟩ := ran
    obtain ⟨rfl, rfl⟩ := yields_cssValues settles items written ran
    exact ⟨rfl, rfl⟩
  | .literal _, _, _, written, ran | .string _ _, _, _, written, ran => settles written ran

theorem yields_cssValues (settles : Settles self) {environment : Environment} {before after : State} :
    (items : List Expr) → {values result : List Value} → Expr.constants? items = some values →
      Yields (self.cssValues items) environment before result after → result = values ∧ after = before
  | [], _, _, written, ran => by
    cases written
    exact yields_pure.1 ran
  | item :: rest, values, result, written, ran => by
    simp only [Expr.constants?] at written
    split at written
    · next value others first last =>
      cases written
      simp only [cssValues, yields_bind, yields_pure] at ran
      obtain ⟨_, _, ran, _, _, ran', rfl, rfl⟩ := ran
      obtain ⟨rfl, rfl⟩ := yields_cssValue settles item first ran
      obtain ⟨rfl, rfl⟩ := yields_cssValues settles rest last ran'
      exact ⟨rfl, rfl⟩
    · cases written

end

/-- A declaration finds a node that takes it, which may be made for it. -/
theorem declarationTarget_flattened {pos : Position} {id : Nat} (stands : Stands around before)
    (ran : Yields (declarationTarget pos) environment before id after) :
    Takes around after.tree id ∧ before.tree.Grown after.tree [] ∧ Stands around after := by
  cases targetFound ran with
  | rule known => exact ⟨stands.rule _ known, .refl stands.ordered, stands⟩
  | @made selectors missing known =>
    have grown := grown_pushed stands.ordered before.place.container (.rule selectors) pos
    have takes := stands.takes_pushed selectors pos
    rw [← known, stands.selectors] at takes
    have stays := stands.pushed before.place.container (.rule selectors) pos
    exact ⟨takes, grown, { stays with
      rule := fun id same => by
        cases same
        exact takes
      media := ⟨stays.media.earlier, stays.media.direct, stays.media.apart⟩ }⟩
  | block missing unknown held =>
    obtain ⟨entry, _, _, found, content⟩ := Tree.isBlock_iff.1 (stands.container _ held)
    have path := stands.path
    rw [held] at path
    refine ⟨⟨entry, found, ?_, ?_, path⟩, .refl stands.ordered, stands⟩
    · simp only [Css.Entry.takesItems, content]
    · rw [← stands.selectors, unknown, Css.Entry.selectors?, content]

theorem declared_flattened {property : String} {value : Value} {important : Bool} {pos : Position} {none : Unit}
    (stands : Stands around before)
    (shown : ∀ text, value.css environment.places false = .ok text → text.isEmpty = false)
    (ran : Yields (declared property value important pos) environment before none after) :
    Flattened around (.ok [⟨⟨property, value, important, ⟨0, pos⟩⟩, around.selectors, around.path⟩]) before after := by
  simp only [declared, yields_bind, yields_read, yields_ofOperation, and_assoc, exists_and_left, exists_eq_left] at ran
  obtain ⟨text, written, ran⟩ := ran
  rw [if_pos (by simp [shown text written])] at ran
  simp only [yields_bind, yields_span, yields_pushItem, and_assoc, exists_and_left, exists_eq_left] at ran
  obtain ⟨target, between, found, rfl⟩ := ran
  obtain ⟨⟨entry, present, takes, selectors, path⟩, grown, stands'⟩ := declarationTarget_flattened stands found
  have grown' := Tree.Grown.pushItem stands'.ordered present takes ⟨property, value, important, ⟨between.source, pos⟩⟩
  rw [selectors, path] at grown'
  refine ⟨_, ?_, grown.trans grown', stands'.grown grown' rfl stands'.source stands'.outside rfl⟩
  simp only [stands'.source, List.nil_append, List.map_cons, List.map_nil]

theorem block_flattened (flattens : Flattens self) {statements : List Statement} {value : Option Value}
    (plain : Statement.arePlain environment.places statements = true) (stands : Stands around before)
    (ran : Yields (self.block statements) environment before value after) :
    value = none ∧ Flattened around (Statement.readingsOf around statements) before after := by
  induction statements generalizing before with
  | nil =>
    obtain ⟨rfl, rfl⟩ := yields_pure.1 ran
    exact ⟨rfl, [], by rw [Statement.readingsOf]; rfl, .refl stands.ordered, stands⟩
  | cons statement rest tail =>
    rw [Statement.arePlain, Bool.and_eq_true] at plain
    obtain ⟨first, between, head, ran⟩ := yields_block_cons.1 ran
    obtain ⟨rfl, flattened⟩ := flattens plain.1 stands head
    obtain ⟨-, -, -, stands'⟩ := id flattened
    obtain ⟨rfl, flattened'⟩ := tail plain.2 stands' ran
    rw [Statement.readingsOf]
    exact ⟨rfl, flattened.append flattened'⟩

theorem resolved_spec {text : String} {pos : Position} {selectors : Selectors} (stands : Stands around before)
    (ran : Yields (resolved text pos) environment before selectors after) :
    (Selectors.parse (Text.trimmed text)).resolve around.selectors = .ok selectors ∧ after = before := by
  simp only [resolved, yields_bind, yields_get, and_assoc, exists_and_left, exists_eq_left, stands.still,
    stands.selectors] at ran
  rw [if_neg Bool.false_ne_true] at ran
  split at ran
  · next known =>
    obtain ⟨rfl, rfl⟩ := yields_pure.1 ran
    exact ⟨known, rfl⟩
  · exact absurd ran yields_fail

theorem rule_flattened (flattens : Flattens self) {selector : Template Expr} {text : String}
    {body : List Statement} {pos : Position} {none : Unit} (stands : Stands around before)
    (plain : selector.plain? = some text) (plainBody : Statement.arePlain environment.places body = true)
    (ran : Yields (self.rule selector body pos) environment before none after) :
    Flattened around ((.rule pos selector body : Statement).readings around) before after := by
  simp only [rule, yields_bind, yields_text plain, yields_get, yields_push, yields_newScope, atPlace, yields_during,
    yields_run,
    and_assoc, exists_and_left, exists_eq_left] at ran
  obtain ⟨selectors, ready, nested, inner, ⟨_, ran⟩, rfl⟩ := ran
  obtain ⟨resolved, same⟩ := resolved_spec stands nested
  subst same
  obtain ⟨-, flattened⟩ := block_flattened flattens plainBody (stands.inRule selectors pos _ _ _) ran
  rw [Statement.readings, Template.plainText, plain, Option.getD_some, resolved]
  exact flattened.leave stands (grown_pushed stands.ordered _ _ _) rfl

theorem directive_flattened (flattens : Flattens self) {name : String} {parameters : Template Expr} {text : String}
    {body : List Statement} {pos : Position} {none : Unit} (stands : Stands around before)
    (block : Text.sameWord name "charset" = false) (still : isKeyframes name = false)
    (plain : parameters.plain? = some text) (plainBody : Statement.arePlain environment.places body = true)
    (ran : Yields (self.directive name parameters (some body) pos) environment before none after) :
    Flattened around ((.directive pos name parameters (some body) : Statement).readings around) before after := by
  simp only [directive, block, still, Bool.false_or, Bool.false_eq_true, if_false, yields_bind, yields_text plain,
    yields_get, yields_push, yields_newScope, atPlace, yields_during, yields_run, and_assoc, exists_and_left,
    exists_eq_left] at ran
  obtain ⟨inner, ⟨_, ran⟩, rfl⟩ := ran
  obtain ⟨-, flattened⟩ := block_flattened flattens plainBody (stands.inDirective name _ pos _ _ _) ran
  rw [Statement.readings, Template.plainText, plain, Option.getD_some]
  exact flattened.leave stands (grown_pushed stands.ordered _ _ _) rfl

theorem media_flattened (flattens : Flattens self) {query : Template Expr} {text : String}
    {body : List Statement} {pos : Position} {none : Unit} (stands : Stands around before)
    (plain : query.plain? = some text) (plainBody : Statement.arePlain environment.places body = true)
    (ran : Yields (self.media query body pos) environment before none after) :
    Flattened around ((.media pos query body : Statement).readings around) before after := by
  simp only [media, yields_bind, yields_text plain, yields_get, yields_report, yields_push, yields_newScope, atPlace,
    yields_during, yields_run, and_assoc, exists_and_left, exists_eq_left, exists_const] at ran
  obtain ⟨inner, ⟨_, ran⟩, rfl⟩ := ran
  obtain ⟨-, flattened⟩ := block_flattened flattens plainBody (stands.inMedia _ rfl pos _ _ _ _) ran
  rw [Statement.readings, Template.plainText, plain, Option.getD_some]
  exact flattened.leave stands (grown_pushed stands.ordered _ _ _) (Surroundings.inMedia_properties _ _)

theorem nested_flattened (flattens : Flattens self) {nested : List Statement} {name : String} {none : Unit}
    (stands : Stands around before) (plain : Statement.arePlain environment.places nested = true)
    (ran : Yields
      (if !nested.isEmpty then inProperty ("-".intercalate (around.properties ++ [name])) (self.run nested)
        else pure ())
      environment before none after) :
    Flattened around (Statement.readingsOf { around with properties := around.properties ++ [name] } nested)
      before after := by
  cases nested with
  | nil =>
    obtain ⟨-, rfl⟩ := yields_pure.1 ran
    exact ⟨[], by rw [Statement.readingsOf]; rfl, .refl stands.ordered, stands⟩
  | cons first rest =>
    rw [if_pos (by rfl)] at ran
    simp only [inProperty, yields_during, yields_run] at ran
    obtain ⟨inner, ⟨_, ran⟩, rfl⟩ := ran
    obtain ⟨-, placed, source, grown, stands'⟩ := block_flattened flattens plain (stands.inProperty name) ran
    rw [stands.property]
    exact ⟨placed, source, grown, stands'.outProperty⟩

theorem declaration_flattened (settles : Settles self) (flattens : Flattens self) {property : Template Expr}
    {name : String} {value : Option Expr} {important : Bool} {nested : List Statement} {pos : Position} {none : Unit}
    (stands : Stands around before) (plain : property.plain? = some name)
    (shown : value.all (Statement.isWritten environment.places) = true)
    (plainNested : Statement.arePlain environment.places nested = true)
    (ran : Yields (self.declaration property value important nested pos) environment before none after) :
    Flattened around ((.declaration pos property value important nested : Statement).readings around)
      before after := by
  simp only [declaration, yields_bind, yields_text plain, yields_get, and_assoc, exists_and_left, exists_eq_left,
    stands.property, fullName_propertyName] at ran
  rw [Statement.readings, Template.plainText, plain, Option.getD_some]
  obtain ⟨between, flattened, rest⟩ : ∃ between,
      Flattened around (.ok (Surroundings.own { around with properties := around.properties ++ [Text.trimmed name] }
        pos value important)) before between ∧
      Yields (if !nested.isEmpty then
          inProperty ("-".intercalate (around.properties ++ [Text.trimmed name])) (self.run nested) else pure ())
        environment between none after := by
    cases value with
    | some expr =>
      simp only [yields_bind] at ran
      obtain ⟨found, ready, settled, _, between, ran, rest⟩ := ran
      obtain ⟨written, constant, shown⟩ := (Option.any_eq_true _ _).1 shown
      obtain ⟨rfl, same⟩ := yields_cssValue settles expr constant settled
      subst same
      have shown : ∀ text, found.css environment.places false = .ok text → text.isEmpty = false := fun text css => by
        rw [css] at shown
        simpa using shown
      refine ⟨between, ?_, rest⟩
      rw [Surroundings.own, Option.toList_some, List.map_singleton, constant]
      exact declared_flattened stands shown ran
    | none =>
      cases nested with
      | nil =>
        obtain ⟨_, between, found, rest⟩ := yields_bind.1 ran
        obtain ⟨-, grown, stands'⟩ := declarationTarget_flattened stands found
        exact ⟨between, ⟨[], rfl, grown, stands'⟩, rest⟩
      | cons first rest => exact ⟨before, ⟨[], rfl, .refl stands.ordered, stands⟩, ran⟩
  obtain ⟨-, -, -, stands'⟩ := id flattened
  exact flattened.append (nested_flattened flattens stands' plainNested rest)

theorem runStatement_flattened (settles : Settles self) (flattens : Flattens self) {statement : Statement}
    {value : Option Value} (plain : statement.isPlain environment.places = true) (stands : Stands around before)
    (ran : Yields (self.runStatement statement) environment before value after) :
    value = none ∧ Flattened around (statement.readings around) before after := by
  cases statement with
  | rule pos selector body =>
    simp only [Statement.isPlain, Bool.and_eq_true, Option.isSome_iff_exists] at plain
    obtain ⟨⟨text, plain⟩, plainBody⟩ := plain
    simp only [runStatement, yields_written] at ran
    obtain ⟨-, ran, rfl⟩ := ran
    exact ⟨rfl, rule_flattened flattens stands plain plainBody ran⟩
  | declaration pos property value important nested =>
    simp only [Statement.isPlain, Bool.and_eq_true, Option.isSome_iff_exists] at plain
    obtain ⟨⟨⟨name, plain⟩, shown⟩, plainNested⟩ := plain
    simp only [runStatement, yields_written] at ran
    obtain ⟨-, ran, rfl⟩ := ran
    exact ⟨rfl, declaration_flattened settles flattens stands plain shown plainNested ran⟩
  | media pos query body =>
    simp only [Statement.isPlain, Bool.and_eq_true, Option.isSome_iff_exists] at plain
    obtain ⟨⟨text, plain⟩, plainBody⟩ := plain
    simp only [runStatement, yields_written] at ran
    obtain ⟨-, ran, rfl⟩ := ran
    exact ⟨rfl, media_flattened flattens stands plain plainBody ran⟩
  | directive pos name parameters body =>
    cases body with
    | none => simp [Statement.isPlain] at plain
    | some body =>
      simp only [Statement.isPlain, Bool.and_eq_true, Bool.not_eq_true', Option.isSome_iff_exists] at plain
      obtain ⟨⟨⟨block, still⟩, text, plain⟩, plainBody⟩ := plain
      simp only [runStatement, yields_written] at ran
      obtain ⟨-, ran, rfl⟩ := ran
      exact ⟨rfl, directive_flattened flattens stands block still plain plainBody ran⟩
  | _ => simp [Statement.isPlain] at plain

theorem yields_mapM_constants (settles : Settles self) {items : List Expr} {values result : List Value}
    (constant : Expr.constants? items = some values)
    (ran : Yields (items.mapM self.eval) environment before result after) : result = values ∧ after = before := by
  induction items generalizing values result before with
  | nil =>
    cases constant
    exact yields_pure.1 ran
  | cons item rest tail =>
    simp only [Expr.constants?] at constant
    split at constant
    · next value others first last =>
      cases constant
      simp only [List.mapM_cons, yields_bind, yields_pure] at ran
      obtain ⟨_, _, ran, _, _, ran', rfl, rfl⟩ := ran
      obtain ⟨rfl, rfl⟩ := settles first ran
      obtain ⟨rfl, rfl⟩ := tail last ran'
      exact ⟨rfl, rfl⟩
    · cases constant

end Evaluator

theorem settles_evaluator (depth : Nat) : Settles (evaluator depth) := by
  induction depth with
  | zero => exact fun _ ran => absurd ran yields_throw
  | succ depth shallower =>
    intro expr value result environment before after constant ran
    change Yields ((evaluator depth).evalStep expr) environment before result after at ran
    cases expr with
    | literal value =>
      cases constant
      exact yields_pure.1 ran
    | string text quoted =>
      simp only [Expr.constant?, Option.map_eq_some_iff] at constant
      obtain ⟨text', plain, rfl⟩ := constant
      simpa only [Evaluator.evalStep, yields_bind, Evaluator.yields_text plain, yields_pure, and_assoc,
        exists_and_left, exists_eq_left] using ran
    | list items separator bracketed =>
      simp only [Expr.constant?, Option.map_eq_some_iff] at constant
      obtain ⟨values, constant, rfl⟩ := constant
      simp only [Evaluator.evalStep, yields_bind, yields_pure] at ran
      obtain ⟨values', _, ran, rfl, rfl⟩ := ran
      obtain ⟨rfl, rfl⟩ := Evaluator.yields_mapM_constants shallower constant ran
      exact ⟨rfl, rfl⟩
    | _ => cases constant

theorem flattens_evaluator (depth : Nat) : Flattens (evaluator depth) := by
  induction depth with
  | zero => exact fun _ _ ran => absurd ran yields_throw
  | succ depth shallower =>
    intro statement around environment before after value plain stands ran
    change Yields ((evaluator depth).execStep statement) environment before value after at ran
    simp only [Evaluator.execStep, yields_during] at ran
    obtain ⟨inner, ran, rfl⟩ := ran
    have entered : Stands around { before with statementPos := statement.pos } :=
      stands.grown (.refl stands.ordered) rfl stands.source stands.outside rfl
    obtain ⟨rfl, placed, source, grown, stands'⟩ :=
      Evaluator.runStatement_flattened (settles_evaluator depth) shallower plain entered ran
    exact ⟨rfl, placed, source, grown,
      stands'.grown (.refl stands'.ordered) rfl stands'.source stands'.outside rfl⟩

theorem stands_start (sheet : Sheet) : Stands .top (State.start sheet) where
  ordered := Tree.ordered_empty.addSource _ _
  source := rfl
  outside := rfl
  still := rfl
  property := rfl
  selectors := rfl
  container _ held := by cases held
  path := rfl
  rule _ known := by cases known
  media :=
    { earlier := fun _ known => by cases known
      direct := fun _ inner => by cases inner
      apart := fun _ _ known => by cases known }

/-- Evaluation puts every declaration into the flat tree as the source has it: once, with the selectors and the
directives around it and with its whole name. Declarations that come to the same node keep their order. -/
theorem evaluate_readings {environment : Environment} {sheet : Sheet} {state : State}
    (plain : Statement.arePlain environment.places sheet.statements = true)
    (evaluated : evaluate environment sheet = (.ok (), state)) :
    ∃ source, Statement.readingsOf .top sheet.statements = .ok source ∧ state.tree.groups.flatten.Perm source ∧
      ∀ group ∈ state.tree.groups, group.Sublist source := by
  have ran : Yields ((evaluator depthLimit).run sheet.statements) environment (State.start sheet) () state := evaluated
  obtain ⟨_, ran⟩ := Evaluator.yields_run.1 ran
  obtain ⟨-, placed, source, grown, -⟩ :=
    Evaluator.block_flattened (flattens_evaluator depthLimit) plain (stands_start sheet) ran
  exact ⟨_, source, grown.groups rfl⟩

private theorem evaluate_eq_of_ok {environment : Environment} {sheet : Sheet}
    (succeeds : (evaluate environment sheet).1 = .ok ()) :
    evaluate environment sheet = (.ok (), (evaluate environment sheet).2) := by
  rw [← succeeds]

/-- A rule with a property in parts, a media block inside another one, a rule in both, and another directive. -/
def nestedSheet : Sheet :=
  let declaration (property value : String) (nested : List Statement) : Statement :=
    .declaration .start [.text property] (some (.string [.text value] false)) false nested
  { path := "stdin", source := "", directory := none, chain := ["stdin"]
    statements :=
      [.rule .start [.text "a"]
        [.media .start [.text "screen"]
          [declaration "x" "1" [],
            .media .start [.text "print"] [.rule .start [.text "b"] [declaration "y" "2" []], declaration "z" "3" []]],
          declaration "font" "serif" [declaration "size" "4" []],
          .directive .start "foo" [.text "bar"] (some [declaration "w" "5" []])]] }

def emptySearch : ImportSearch := ⟨none, [], ⟨true, []⟩, .start []⟩

theorem evaluate_readings_nested :
    Statement.arePlain 5 nestedSheet.statements = true ∧
      ∃ state, evaluate ⟨5, emptySearch⟩ nestedSheet = (.ok (), state) ∧
        ∃ source, Statement.readingsOf .top nestedSheet.statements = .ok source ∧
          source.map (fun reading => (reading.declaration.property, reading.path)) =
            [("x", [("media", "screen")]), ("y", [("media", "screen and print")]),
              ("z", [("media", "screen and print")]), ("font", []), ("font-size", []), ("w", [("foo", "bar")])] ∧
          state.tree.groups.flatten.Perm source ∧ ∀ group ∈ state.tree.groups, group.Sublist source := by
  have plain : Statement.arePlain 5 nestedSheet.statements = true := by decide +kernel
  have succeeds : (evaluate ⟨5, emptySearch⟩ nestedSheet).1 = .ok () := by decide +kernel
  have names : (Statement.readingsOf .top nestedSheet.statements).map
      (·.map fun reading => (reading.declaration.property, reading.path)) =
        .ok [("x", [("media", "screen")]), ("y", [("media", "screen and print")]),
          ("z", [("media", "screen and print")]), ("font", []), ("font-size", []), ("w", [("foo", "bar")])] := by
    decide +kernel
  have evaluated := evaluate_eq_of_ok succeeds
  obtain ⟨source, read, groups⟩ := evaluate_readings plain evaluated
  rw [read] at names
  exact ⟨plain, _, evaluated, source, read, Except.ok.inj names, groups⟩

end Stylesheet.Evaluation
