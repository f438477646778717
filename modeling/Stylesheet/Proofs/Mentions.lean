import Mathlib.Tactic.Common
import Stylesheet.Expression.Parser
import Stylesheet.Statement

/-! The variables that are read in a syntax tree, each with the place that is recorded for it. What the parsers do to
templates once they are read (joining, trimming, squeezing blanks) keeps the variables in them. -/

namespace Stylesheet

/-- A variable that is read somewhere. -/
structure Mention where
  name : String
  pos : Position
  deriving DecidableEq, Repr

mutual

def Expr.mentions : Expr → List Mention
  | .literal _ => []
  | .string text _ => Expr.pieceMentions text
  | .variable name pos => [⟨name, pos⟩]
  | .binary _ left right _ => left.mentions ++ right.mentions
  | .unary _ operand _ => operand.mentions
  | .list items _ _ => Expr.itemMentions items
  | .map entries _ => Expr.entryMentions entries
  | .call _ arguments _ => arguments.mentions
  | .paren inner => inner.mentions

def Expr.pieceMentions : List (Piece Expr) → List Mention
  | [] => []
  | .text _ :: rest => Expr.pieceMentions rest
  | .code e :: rest => e.mentions ++ Expr.pieceMentions rest

def Expr.itemMentions : List Expr → List Mention
  | [] => []
  | e :: rest => e.mentions ++ Expr.itemMentions rest

def Expr.entryMentions : List (Expr × Expr) → List Mention
  | [] => []
  | (key, value) :: rest => key.mentions ++ value.mentions ++ Expr.entryMentions rest

def Arguments.mentions : Arguments Expr → List Mention
  | ⟨positional, keyword, rest⟩ =>
    Expr.itemMentions positional ++ Arguments.keywordMentions keyword ++ Expr.restMentions rest

def Arguments.keywordMentions : List (String × Expr) → List Mention
  | [] => []
  | (_, value) :: rest => value.mentions ++ Arguments.keywordMentions rest

def Expr.restMentions : Option Expr → List Mention
  | none => []
  | some e => e.mentions

end

def Template.mentions (template : Template Expr) : List Mention := Expr.pieceMentions template

/-- The variables in the default of a parameter. -/
def Parameter.mentions (parameter : Parameter) : List Mention := Expr.restMentions parameter.default

def ImportTarget.mentions : ImportTarget → List Mention
  | .sheet _ _ => []
  | .css text => text.mentions

mutual

def Statement.mentions : Statement → List Mention
  | .rule _ selector body => selector.mentions ++ mentionsIn body
  | .declaration _ property value _ nested => property.mentions ++ Expr.restMentions value ++ mentionsIn nested
  | .directive _ _ parameters body => parameters.mentions ++ blockMentions body
  | .media _ query body => query.mentions ++ mentionsIn body
  | .assignment _ _ value _ _ => value.mentions
  | .mixin _ callable => callableMentions callable
  | .function _ callable => callableMentions callable
  | .inclusion _ _ arguments block => arguments.mentions ++ blockMentions block
  | .content _ => []
  | .result _ value => value.mentions
  | .branch _ clauses otherwise => clauseMentions clauses ++ blockMentions otherwise
  | .forEach _ _ items body => items.mentions ++ mentionsIn body
  | .forRange _ _ first last _ body => first.mentions ++ last.mentions ++ mentionsIn body
  | .whileTrue _ condition body => condition.mentions ++ mentionsIn body
  | .imports _ targets => targets.flatMap ImportTarget.mentions
  | .message _ _ value => value.mentions
  | .unsupported _ _ => []
  | .comment _ _ => []

/-- The variables in some statements, whatever stands in their blocks included. -/
def Statement.mentionsIn : List Statement → List Mention
  | [] => []
  | s :: rest => s.mentions ++ mentionsIn rest

def Statement.blockMentions : Option (List Statement) → List Mention
  | none => []
  | some body => mentionsIn body

def Statement.clauseMentions : List (Expr × List Statement) → List Mention
  | [] => []
  | (condition, body) :: rest => condition.mentions ++ mentionsIn body ++ clauseMentions rest

def Statement.callableMentions : Callable Statement → List Mention
  | ⟨_, parameters, _, body, _⟩ => parameters.flatMap Parameter.mentions ++ mentionsIn body

end

namespace Template

variable {template first second : Template Expr} {piece : Piece Expr} {s : String} {e : Expr}

@[simp] theorem mentions_nil : mentions [] = [] := rfl

@[simp] theorem mentions_code : mentions (.code e :: template) = e.mentions ++ template.mentions := rfl

@[simp] theorem mentions_consText (s : String) (template : Template Expr) :
    (consText s template).mentions = template.mentions := by
  unfold consText
  split
  · rfl
  · split <;> rfl

@[simp] theorem mentions_ofText (s : String) : (ofText s : Template Expr).mentions = [] := mentions_consText s []

theorem mentions_consPiece (piece : Piece Expr) (template : Template Expr) :
    (consPiece piece template).mentions = mentions [piece] ++ template.mentions := by
  cases piece with
  | text s => exact mentions_consText s template
  | code e =>
    change e.mentions ++ template.mentions = (e.mentions ++ []) ++ template.mentions
    rw [List.append_nil]

@[simp] theorem mentions_append (first second : Template Expr) :
    (append first second).mentions = first.mentions ++ second.mentions := by
  induction first with
  | nil => rfl
  | cons piece rest later =>
    have step : (append (piece :: rest) second).mentions = mentions [piece] ++ (append rest second).mentions :=
      mentions_consPiece piece (append rest second)
    rw [step, later, ← List.append_assoc]
    cases piece with
    | text s => rfl
    | code e => rw [mentions_code, mentions_nil, List.append_nil, mentions_code]

@[simp] theorem mentions_trimEnd (template : Template Expr) : template.trimEnd.mentions = template.mentions := by
  fun_induction trimEnd template with
  | case1 => rfl
  | case2 s => exact mentions_consText _ []
  | case3 piece rest _ later =>
    cases piece with
    | text s => exact later
    | code e => rw [mentions_code, later, mentions_code]

@[simp] theorem mentions_squeeze (template : Template Expr) : template.squeeze.mentions = template.mentions := by
  induction template with
  | nil => rfl
  | cons piece rest later =>
    cases piece with
    | text s => exact (mentions_consText _ (squeeze rest)).trans later
    | code e => exact congrArg (e.mentions ++ ·) later

end Template

namespace Expr

theorem mentions_wordExpr (name : String) : (Grammar.wordExpr name).mentions = [] := by
  unfold Grammar.wordExpr
  split
  · rfl
  · rfl
  · rfl
  · split
    · rfl
    · exact Template.mentions_ofText name

theorem mentions_hashExpr (name : String) : (Grammar.hashExpr name).mentions = [] := by
  unfold Grammar.hashExpr
  split
  · rfl
  · exact Template.mentions_ofText ("#" ++ name)

theorem mentions_bracketedExpr (inner : Option Expr) :
    (Grammar.bracketedExpr inner).mentions = restMentions inner := by
  unfold Grammar.bracketedExpr
  split
  · rfl
  · rfl
  · next item _ => exact List.append_nil item.mentions

theorem mentions_listExpr (separator : Separator) (first : Expr) (rest : List Expr) :
    (Grammar.listExpr separator first rest).mentions = first.mentions ++ itemMentions rest := by
  unfold Grammar.listExpr
  split
  · exact (List.append_nil first.mentions).symm
  · rfl

end Expr

end Stylesheet
