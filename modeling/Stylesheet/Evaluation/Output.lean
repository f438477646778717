import Stylesheet.Evaluation.Expression
import Stylesheet.Selector.Parser

/-! Statements that write. A rule goes to the current container with its selectors resolved, before anything inside it,
so a nested rule comes after the rule around it. The block of a directive becomes the container for what is inside; a
media block directly inside another one joins its query and stands beside it. -/

namespace Stylesheet.Evaluation.Evaluator

variable (self : Evaluator)

def refuseInFunction (pos : Position) : Eval Unit := do
  if (← get).functionDepth > 0 then fail pos .outputInFunction

/-- Runs statements for what they write. -/
def run (statements : List Statement) : Eval Unit := do
  let _ ← self.block statements

def resolved (text : String) (pos : Position) : Eval Selectors := do
  let place := (← get).place
  let parsed := Selectors.parse (Text.trimmed text)
  if place.inKeyframes then return parsed
  else
    match parsed.resolve place.selectors with
    | .ok selectors => return selectors
    | .error error => fail pos (.nesting error)

def rule (selector : Template Expr) (body : List Statement) (pos : Position) : Eval Unit := do
  let selectors ← resolved (← self.text selector) pos
  let place := (← get).place
  let id ← push place.container (.rule selectors) pos
  let scope ← newScope place.scope false
  atPlace { place with rule := some id, selectors := some selectors, depth := place.depth + 1, scope } (self.run body)

/-- What takes a declaration here: the current rule, a new one with the current selectors, or the block of a
directive. -/
def declarationTarget (pos : Position) : Eval Nat := do
  let place := (← get).place
  match place.rule, place.selectors, place.container with
  | some rule, _, _ => return rule
  | none, some selectors, container =>
    let id ← push container (.rule selectors) pos
    modify fun state => { state with place.rule := some id }
    return id
  | none, none, some container => return container
  | none, none, none => fail pos .propertyOutsideRule

/-- Runs statements whose properties continue a name. -/
def inProperty {α : Type} (name : String) (action : Eval α) : Eval α :=
  during ({ · with propertyName := some name })
    (fun before after => { after with propertyName := before.propertyName }) action

def fullName (outer : Option String) (name : String) : String :=
  match outer with
  | some outer => outer ++ "-" ++ name
  | none => name

/-- Writes a declaration, unless its value has no text. -/
def declared (property : String) (value : Value) (important : Bool) (pos : Position) : Eval Unit := do
  let css ← ofOperation pos (value.css (← read).places false)
  if !css.isEmpty || important then
    let target ← declarationTarget pos
    pushItem target (.declaration { property, value, important, span := ← span pos })

def declaration (property : Template Expr) (value : Option Expr) (important : Bool) (nested : List Statement)
    (pos : Position) : Eval Unit := do
  let name := Text.trimmed (← self.text property)
  let name := fullName (← get).propertyName name
  match value with
  | some expr => declared name (← self.cssValue expr) important pos
  | none => if nested.isEmpty then let _ ← declarationTarget pos
  if !nested.isEmpty then inProperty name (self.run nested)

/-- Whether a directive describes the steps of an animation, which are no selectors. -/
def isKeyframes (name : String) : Bool := name.toLower.endsWith "keyframes"

def directive (name : String) (parameters : Template Expr) (body : Option (List Statement)) (pos : Position) :
    Eval Unit := do
  if Text.sameWord name "charset" then return ()
  let parameters := Text.trimmed (← self.text parameters)
  let place := (← get).place
  match body with
  | none => let _ ← push place.container (.directive name parameters) pos
  | some body =>
    let id ← push place.container (.block name parameters) pos
    let scope ← newScope place.scope false
    let animated := isKeyframes name
    atPlace { place with
        container := some id
        rule := none
        selectors := if animated then none else place.selectors
        inKeyframes := animated || place.inKeyframes
        depth := place.depth + 1
        scope } (self.run body)

/-- The query of a media block and the place for it. Directly inside another media block both queries must hold, and
the new block stands beside the other one. -/
def joinedMedia (place : Place) (query : String) : String × Option Nat :=
  match place.media with
  | some outer =>
    if place.container = some outer.block then (outer.query ++ " and " ++ query, outer.holder)
    else (query, place.container)
  | none => (query, place.container)

def media (query : Template Expr) (body : List Statement) (pos : Position) : Eval Unit := do
  let words := (Text.words (← self.text query).toList).map String.ofList
  let place := (← get).place
  let (query, holder) := joinedMedia place (" ".intercalate words)
  report (.media query)
  let id ← push holder (.block "media" query) pos
  let scope ← newScope place.scope false
  atPlace { place with
      media := some ⟨query, holder, id⟩
      container := some id
      rule := none
      depth := place.depth + 1
      scope } (self.run body)

/-- Keeps a comment, in the current rule or between the rules. Functions drop theirs. -/
def comment (comment : Comment) (pos : Position) : Eval Unit := do
  let state ← get
  if state.functionDepth = 0 then
    match state.place.rule with
    | some rule => pushItem rule (.comment comment)
    | none => let _ ← push state.place.container (.comment comment) pos

end Stylesheet.Evaluation.Evaluator
