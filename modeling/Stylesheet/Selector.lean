/-! Selectors: their parts, their CSS text, and the nesting of one rule's selectors in another's. A list of
selectors nested in a list of `n` others means `n` copies of itself, one for each selector around it. -/

namespace Stylesheet

namespace Selector

inductive Simple where
  | element (name : String)
  | universal
  | className (name : String)
  | idName (name : String)
  /-- A placeholder, written with a percent sign. It stands for no element, so its rule is never shown. -/
  | placeholder (name : String)
  /-- A pseudo-class or pseudo-element with its colons and its argument. -/
  | pseudo (text : String)
  /-- What stands between the brackets of an attribute selector. -/
  | bracketed (text : String)
  /-- The selector of the rule around, with a text that continues its last name. -/
  | parent (continuation : Option String)
  /-- A step of an animation. -/
  | percentage (text : String)
  /-- A text that follows no rule of this grammar and is kept as it is. -/
  | raw (text : String)
  deriving DecidableEq, Repr

/-- What stands between a compound selector and the next one. The last compound has `none`. -/
inductive Combinator where
  | none
  | descendant
  | child
  | adjacent
  | sibling
  deriving DecidableEq, Repr

abbrev Compound := List Simple

/-- A compound selector and the combinator behind it. The compound is empty before a leading combinator. -/
structure Link where
  compound : Compound
  combinator : Combinator
  deriving DecidableEq, Repr

namespace Simple

def css : Simple → String
  | element name | percentage name | raw name | pseudo name => name
  | universal => "*"
  | className name => "." ++ name
  | idName name => "#" ++ name
  | placeholder name => "%" ++ name
  | bracketed text => "[" ++ text ++ "]"
  | parent continuation => "&" ++ continuation.getD ""

/-- A longer name, for those simple selectors whose text ends in a name. -/
def continued (more : String) : Simple → Option Simple
  | element name => some (element (name ++ more))
  | className name => some (.className (name ++ more))
  | idName name => some (idName (name ++ more))
  | placeholder name => some (placeholder (name ++ more))
  | pseudo text => some (pseudo (text ++ more))
  | raw text => some (raw (text ++ more))
  | universal | bracketed _ | parent _ | percentage _ => Option.none

def isParent : Simple → Bool
  | parent _ => true
  | _ => false

def isPlaceholder : Simple → Bool
  | placeholder _ => true
  | _ => false

end Simple

def Combinator.symbol? : Combinator → Option String
  | child => some ">"
  | adjacent => some "+"
  | sibling => some "~"
  | none | descendant => Option.none

def Compound.css (compound : Compound) : String := String.join (compound.map Simple.css)

def Link.css (compressed : Bool) (link : Link) : String :=
  link.compound.css ++
    match link.combinator.symbol? with
    | some symbol =>
      if compressed then symbol
      else if link.compound.isEmpty then symbol ++ " "
      else " " ++ symbol ++ " "
    | Option.none => if link.combinator = .descendant then " " else ""

end Selector

/-- A selector: compound selectors with combinators between them. -/
structure Selector where
  links : List Selector.Link
  deriving DecidableEq, Repr

abbrev Selectors := List Selector

/-- Why a nested selector has no meaning. -/
inductive NestingError where
  /-- A reference to the rule around where there is none. -/
  | noParent
  /-- A continuation behind a selector that does not end in a name. -/
  | continuation (more : String) (parent : Selector)
  deriving DecidableEq, Repr

namespace Selector

def css (compressed : Bool) (selector : Selector) : String :=
  String.join (selector.links.map (Link.css compressed))

def refersToParent (selector : Selector) : Bool :=
  selector.links.any fun link => link.compound.any Simple.isParent

def hasPlaceholder (selector : Selector) : Bool :=
  selector.links.any fun link => link.compound.any Simple.isPlaceholder

/-- Puts a compound selector that refers to the rule around behind `base`, the last compound of that rule's
selector. Only the first reference may continue a name, and the others add nothing. The error is the
continuation that had no name to continue. -/
def graft (base : Compound) : (isFirst : Bool) → Compound → Except String Compound
  | _, [] => .ok base
  | true, .parent (some more) :: rest =>
    match base.getLast?.bind (Simple.continued more) with
    | some last => graft (base.dropLast ++ [last]) false rest
    | none => .error more
  | _, .parent _ :: rest => graft base false rest
  | isFirst, simple :: rest => graft (base ++ [simple]) isFirst rest

/-- One link of a nested selector, with the parent's links in place of a reference to them. -/
def Link.within (parent : Selector) (link : Link) : Except NestingError (List Link) :=
  if link.compound.any Simple.isParent then
    match parent.links.getLast? with
    | none => .ok [link]
    | some last =>
      match graft last.compound true link.compound with
      | .ok compound => .ok (parent.links.dropLast ++ [⟨compound, link.combinator⟩])
      | .error more => .error (.continuation more parent)
  else .ok [link]

/-- The links with `combinator` in place of the combinator behind the last one. -/
def withLast (links : List Link) (combinator : Combinator) : List Link :=
  match links.getLast? with
  | some last => links.dropLast ++ [{ last with combinator }]
  | none => []

def within (parent child : Selector) : Except NestingError Selector :=
  if child.refersToParent then
    (child.links.mapM (Link.within parent)).map fun links => ⟨links.flatten⟩
  else
    match child.links with
    | ⟨[], combinator⟩ :: rest => .ok ⟨withLast parent.links combinator ++ rest⟩
    | links =>
      let last := parent.links.getLast?.map Link.combinator
      let joined := if last = some .none then withLast parent.links .descendant else parent.links
      .ok ⟨joined ++ links⟩

end Selector

def NestingError.message : NestingError → String
  | .noParent => "Base-level rules cannot contain the parent-selector-referencing character '&'."
  | .continuation more parent => "Invalid parent selector for \"&" ++ more ++ "\": \"" ++ parent.css false ++ "\""

namespace Selectors

/-- Separated by commas; a compressed list has no blanks behind them. -/
def css (compressed : Bool) (selectors : Selectors) : String :=
  (if compressed then "," else ", ").intercalate (selectors.map (Selector.css compressed))

/-- The selectors nested in those of the rule around, or on their own at the top level. -/
def resolve (selectors : Selectors) : (parent : Option Selectors) → Except NestingError Selectors
  | none => if selectors.any Selector.refersToParent then .error .noParent else .ok selectors
  | some parents =>
    (parents.mapM fun parent => selectors.mapM (Selector.within parent)).map List.flatten

def withoutPlaceholders (selectors : Selectors) : Selectors := selectors.filter (!·.hasPlaceholder)

end Selectors

end Stylesheet
