import Mathlib.Data.List.Basic
import Stylesheet.Evaluation
import Stylesheet.Proofs.Forest

/-! Two readings of a stylesheet made of rules, declarations, media blocks and other directives with a block: where its
declarations stand in the source, and where they stand in the flat tree. -/

namespace Stylesheet

/-- A declaration with the selectors of its rule, if it stands in one, and the blocks of directives around it, the
outermost first. -/
structure Reading where
  declaration : Css.Declaration
  selectors : Option Selectors
  path : List (String × String)

namespace Css

def Entry.declarations (entry : Entry) : List Declaration :=
  entry.items.filterMap fun
    | .declaration declaration => some declaration
    | .comment _ => none

def Entry.selectors? (entry : Entry) : Option Selectors :=
  match entry.content with
  | .rule selectors => some selectors
  | _ => none

/-- The path inside an entry with a given path around it. -/
def Entry.inner (outer : List (String × String)) (entry : Entry) : List (String × String) :=
  match entry.content with
  | .block name parameters => outer ++ [(name, parameters)]
  | _ => outer

theorem Entry.inner_congr {first second : Entry} (same : first.content = second.content)
    (outer : List (String × String)) : first.inner outer = second.inner outer := by
  simp only [Entry.inner, same]

def Entry.readings (outer : List (String × String)) (entry : Entry) : List Reading :=
  entry.declarations.map (⟨·, entry.selectors?, entry.inner outer⟩)

mutual

/-- The declarations of a node and of those in it, one list for each of them. -/
def Node.groups (outer : List (String × String)) : Node → List (List Reading)
  | .node entry children => entry.readings outer :: Node.groupsOf (entry.inner outer) children

def Node.groupsOf (outer : List (String × String)) : List Node → List (List Reading)
  | [] => []
  | first :: rest => first.groups outer ++ Node.groupsOf outer rest

end

theorem Node.groupsOf_eq_flatMap (outer : List (String × String)) (nodes : List Node) :
    Node.groupsOf outer nodes = nodes.flatMap (Node.groups outer) := by
  induction nodes with
  | nil => rw [Node.groupsOf, List.flatMap_nil]
  | cons first rest tail => rw [Node.groupsOf, tail, List.flatMap_cons]

namespace Tree

variable {tree : Tree}

/-- The declarations that the tree shows, one list for each node. -/
def groups (tree : Tree) : List (List Reading) := Node.groupsOf [] tree.forest

/-- The path inside a node. -/
def pathIn (tree : Tree) (id : Nat) : List (String × String) :=
  match tree.entries[id]? with
  | none => []
  | some entry =>
    entry.inner <|
      match entry.holder with
      | some holder => if _smaller : holder < id then pathIn tree holder else []
      | none => []
termination_by id

/-- The path inside a block, or at the top level. -/
def pathTo (tree : Tree) : (holder : Option Nat) → List (String × String)
  | some holder => tree.pathIn holder
  | none => []

theorem pathIn_eq (ordered : tree.Ordered) {id : Nat} {entry : Entry} (found : tree.entries[id]? = some entry) :
    tree.pathIn id = entry.inner (tree.pathTo entry.holder) := by
  rw [pathIn, found]
  cases held : entry.holder with
  | none => simp [pathTo, held]
  | some holder => simp [pathTo, (ordered id entry found holder held).1, held]

def readingsAt (tree : Tree) (id : Nat) : List Reading :=
  match tree.entries[id]? with
  | some entry => entry.readings (tree.pathTo entry.holder)
  | none => []

theorem groupsOf_nodesIn (ordered : tree.Ordered) (steps : Nat) (holder : Option Nat) :
    Node.groupsOf (tree.pathTo holder) (tree.nodesIn steps holder) =
      (tree.idsIn steps holder).map tree.readingsAt := by
  induction steps generalizing holder with
  | zero => rw [nodesIn, idsIn, Node.groupsOf, List.map_nil]
  | succ steps deeper =>
    rw [Node.groupsOf_eq_flatMap, nodesIn, idsIn, List.map_flatMap, List.filterMap_eq_flatMap_toList,
      List.flatMap_assoc]
    refine List.flatMap_congr fun id member => ?_
    obtain ⟨entry, found, rfl⟩ := mem_heldBy.1 member
    have block : tree.isBlock id = entry.isBlock := by simp [isBlock, found]
    simp only [found, Option.map_some, Option.toList_some, List.flatMap_cons, List.flatMap_nil, List.append_nil, block,
      List.map_cons, readingsAt, Node.groups]
    refine congrArg _ ?_
    split
    · rw [← pathIn_eq ordered found]
      exact deeper (some id)
    · rfl

/-- The declarations that the tree shows are those of its nodes. -/
theorem groups_perm (ordered : tree.Ordered) :
    tree.groups.Perm ((List.range tree.entries.size).map tree.readingsAt) := by
  have shown := groupsOf_nodesIn ordered (tree.entries.size + 1) none
  rw [groups, forest]
  exact (List.Perm.of_eq shown).trans ((idsIn_perm_range ordered).map _)

end Tree

end Css

/-! The source -/

mutual

/-- The value of an expression that is written out. -/
def Expr.constant? : Expr → Option Value
  | .literal value => some value
  | .string text quoted => (Template.plain? text).map (.string · quoted)
  | .list items separator bracketed => (Expr.constants? items).map (.list · separator bracketed)
  | _ => none

def Expr.constants? : List Expr → Option (List Value)
  | [] => some []
  | item :: rest =>
    match Expr.constant? item, Expr.constants? rest with
    | some value, some values => some (value :: values)
    | _, _ => none

end

/-- The text of a template without expressions. -/
def Template.plainText (template : Template Expr) : String := template.plain?.getD ""

/-- What is around a statement. -/
structure Surroundings where
  /-- The selectors of the rule, as they are with the rules around it. -/
  selectors : Option Selectors
  path : List (String × String)
  /-- The query of the innermost directive, if that is a media block. -/
  query : Option String
  /-- The names of the properties, the outermost first. -/
  properties : List String

namespace Surroundings

def top : Surroundings := ⟨none, [], none, []⟩

/-- What is around the statements in a media block. Directly inside another media block it stands for both. -/
def inMedia (around : Surroundings) (query : String) : Surroundings :=
  match around.query with
  | some outer =>
    let both := outer ++ " and " ++ query
    { around with path := around.path.dropLast ++ [("media", both)], query := some both }
  | none => { around with path := around.path ++ [("media", query)], query := some query }

@[simp] theorem inMedia_selectors (around : Surroundings) (query : String) :
    (around.inMedia query).selectors = around.selectors := by
  unfold inMedia
  split <;> rfl

@[simp] theorem inMedia_properties (around : Surroundings) (query : String) :
    (around.inMedia query).properties = around.properties := by
  unfold inMedia
  split <;> rfl

def inDirective (around : Surroundings) (name parameters : String) : Surroundings :=
  { around with path := around.path ++ [(name, parameters)], query := none }

/-- The declaration of the innermost property, if it has a value. -/
def own (around : Surroundings) (pos : Position) (value : Option Expr) (important : Bool) : List Reading :=
  value.toList.map fun expr =>
    { declaration :=
        { property := "-".intercalate around.properties
          value := expr.constant?.getD .null
          important
          span := ⟨0, pos⟩ }
      selectors := around.selectors
      path := around.path }

end Surroundings

namespace Statement

/-- Whether an expression is written out and its value has a text. -/
def isWritten (places : Nat) (expr : Expr) : Bool :=
  expr.constant?.any fun value =>
    match value.css places false with
    | .ok text => !text.isEmpty
    | .error _ => true

mutual

/-- Whether a statement is a rule, a declaration, a media block or another directive with a block, without
expressions in its texts, and so are the statements in it. The values of declarations are written out and not empty;
directives give no character set and describe no animation. -/
def isPlain (places : Nat) : Statement → Bool
  | .rule _ selector body => selector.plain?.isSome && arePlain places body
  | .declaration _ property value _ nested =>
    property.plain?.isSome && value.all (isWritten places) && arePlain places nested
  | .media _ query body => query.plain?.isSome && arePlain places body
  | .directive _ name parameters (some body) =>
    !Text.sameWord name "charset" && !Evaluation.Evaluator.isKeyframes name && parameters.plain?.isSome
      && arePlain places body
  | _ => false

def arePlain (places : Nat) : List Statement → Bool
  | [] => true
  | statement :: rest => isPlain places statement && arePlain places rest

end

mutual

/-- The declarations of a statement and of those in it, where the source has them. -/
def readings (around : Surroundings) : Statement → Except NestingError (List Reading)
  | .rule _ selector body => do
    let selectors ← (Selectors.parse (Text.trimmed selector.plainText)).resolve around.selectors
    readingsOf { around with selectors := some selectors } body
  | .declaration pos property value important nested => do
    let around := { around with properties := around.properties ++ [Text.trimmed property.plainText] }
    return around.own pos value important ++ (← readingsOf around nested)
  | .media _ query body =>
    readingsOf (around.inMedia (" ".intercalate ((Text.words query.plainText.toList).map String.ofList))) body
  | .directive _ name parameters (some body) =>
    readingsOf (around.inDirective name (Text.trimmed parameters.plainText)) body
  | _ => return []

def readingsOf (around : Surroundings) : List Statement → Except NestingError (List Reading)
  | [] => return []
  | statement :: rest => return (← readings around statement) ++ (← readingsOf around rest)

end

end Statement

end Stylesheet
