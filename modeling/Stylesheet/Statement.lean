import Stylesheet.Expression
import Stylesheet.Token

/-! Statements of a stylesheet. Each knows the place where it begins. -/

namespace Stylesheet

structure Parameter where
  name : String
  default : Option Expr
  deriving Repr

/-- What a mixin and a function have in common. The parameter `rest` takes the arguments that are left over, and
`file` is the stylesheet that holds the definition. -/
structure Callable (α : Type) where
  name : String
  parameters : List Parameter
  rest : Option String
  body : List α
  file : String
  deriving Repr

inductive ImportTarget where
  /-- A reference to another stylesheet. -/
  | sheet (reference : String) (pos : Position)
  /-- An import that is left to the browser. -/
  | css (text : Template Expr)
  deriving Repr

inductive MessageKind where
  | warn
  | debug
  | error
  deriving DecidableEq, Repr

inductive Statement where
  | rule (pos : Position) (selector : Template Expr) (body : List Statement)
  /-- A property with its value, and properties whose names continue its own. -/
  | declaration (pos : Position) (property : Template Expr) (value : Option Expr) (important : Bool)
      (nested : List Statement)
  | directive (pos : Position) (name : String) (parameters : Template Expr) (body : Option (List Statement))
  | media (pos : Position) (query : Template Expr) (body : List Statement)
  | assignment (pos : Position) (name : String) (value : Expr) (isDefault isGlobal : Bool)
  | mixin (pos : Position) (callable : Callable Statement)
  | function (pos : Position) (callable : Callable Statement)
  /-- The use of a mixin; `content` is the block handed to it. -/
  | inclusion (pos : Position) (name : String) (arguments : Arguments Expr) (content : Option (List Statement))
  /-- The place for the block that was handed to the mixin. -/
  | content (pos : Position)
  | result (pos : Position) (value : Expr)
  | branch (pos : Position) (clauses : List (Expr × List Statement)) (otherwise : Option (List Statement))
  | forEach (pos : Position) (names : List String) (items : Expr) (body : List Statement)
  | forRange (pos : Position) (name : String) (first last : Expr) (inclusive : Bool) (body : List Statement)
  | whileTrue (pos : Position) (condition : Expr) (body : List Statement)
  | imports (pos : Position) (targets : List ImportTarget)
  | message (pos : Position) (kind : MessageKind) (value : Expr)
  /-- A directive that is known and has no meaning here. -/
  | unsupported (pos : Position) (name : String)
  | comment (pos : Position) (comment : Comment)
  deriving Repr, Inhabited

def Statement.pos : Statement → Position
  | rule pos .. | declaration pos .. | directive pos .. | media pos .. | assignment pos .. | mixin pos ..
  | function pos .. | inclusion pos .. | content pos | result pos .. | branch pos .. | forEach pos ..
  | forRange pos .. | whileTrue pos .. | imports pos .. | message pos .. | unsupported pos .. | comment pos .. => pos

/-- The blocks of statements that stand directly in a statement. -/
def Statement.blocks : Statement → List (List Statement)
  | rule _ _ body | media _ _ body | forEach _ _ _ body | forRange _ _ _ _ _ body | whileTrue _ _ body
  | declaration _ _ _ _ body => [body]
  | directive _ _ _ body | inclusion _ _ _ body => body.toList
  | mixin _ callable | function _ callable => [callable.body]
  | branch _ clauses otherwise => clauses.map (·.2) ++ otherwise.toList
  | assignment .. | content .. | result .. | imports .. | message .. | unsupported .. | comment .. => []

theorem Statement.sizeOf_lt_of_mem_blocks {s : Statement} {block : List Statement} (h : block ∈ s.blocks) :
    sizeOf block < sizeOf s := by
  cases s with
  | mixin pos callable => cases callable; simp_all [blocks]; omega
  | function pos callable => cases callable; simp_all [blocks]; omega
  | directive pos name parameters body => cases body <;> simp_all [blocks]; omega
  | inclusion pos name arguments content => cases content <;> simp_all [blocks]; omega
  | branch pos clauses otherwise =>
    simp only [blocks, List.mem_append, List.mem_map] at h
    rcases h with ⟨clause, hclause, rfl⟩ | h
    · have := List.sizeOf_lt_of_mem hclause
      cases clause
      simp_all
      omega
    · cases otherwise <;> simp_all
      omega
  | rule | media | forEach | forRange | whileTrue | declaration =>
    obtain rfl := List.mem_singleton.1 h
    simp only [rule.sizeOf_spec, media.sizeOf_spec, forEach.sizeOf_spec, forRange.sizeOf_spec,
      whileTrue.sizeOf_spec, declaration.sizeOf_spec]
    omega
  | _ => simp [blocks] at h

/-- The references that a statement itself imports. -/
def Statement.ownReferences : Statement → List String
  | imports _ targets => targets.filterMap fun
    | .sheet reference _ => some reference
    | .css _ => none
  | _ => []

/-- The references that statements import, however deep inside them. -/
def Statement.references (statements : List Statement) : List String :=
  statements.attach.flatMap fun ⟨s, _hs⟩ =>
    s.ownReferences ++ s.blocks.attach.flatMap fun ⟨block, _hblock⟩ => references block
termination_by sizeOf statements
decreasing_by
  have := List.sizeOf_lt_of_mem _hs
  have := sizeOf_lt_of_mem_blocks _hblock
  omega

end Stylesheet
