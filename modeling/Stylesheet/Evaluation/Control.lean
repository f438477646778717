import Stylesheet.Evaluation.Expression

/-! Statements that choose or repeat. Every run of a body has a scope of its own. A value that a body gives is the
result of a function and ends all loops around it. -/

namespace Stylesheet.Evaluation.Evaluator

variable (self : Evaluator)

/-- Runs a body in a new scope that begins with the given variables. -/
def innerBlock (bound : List (String × Value)) (body : List Statement) : Eval (Option Value) := do
  let scope ← newScope (← get).place.scope true
  for (name, value) in bound do declare scope name value
  inScope scope (self.block body)

/-- Runs the body of the first condition that holds. -/
def branch (otherwise : Option (List Statement)) : List (Expr × List Statement) → Eval (Option Value)
  | [] =>
    match otherwise with
    | some body => self.innerBlock [] body
    | none => return none
  | (condition, body) :: rest => do
    if (← self.eval condition).isTruthy then self.innerBlock [] body else branch otherwise rest

/-- The variables of a loop for one item: a single one holds the item, and several share its parts. -/
def bindItem (names : List String) (item : Value) : List (String × Value) :=
  match names with
  | [name] => [(name, item)]
  | names => names.zipIdx.map fun (name, i) => (name, item.items[i]?.getD .null)

def forEach (names : List String) (body : List Statement) : List Value → Eval (Option Value)
  | [] => return none
  | item :: rest => do
    match ← self.innerBlock (bindItem names item) body with
    | some value => return some value
    | none => forEach names body rest

/-- The integers that a loop visits: the first, the difference between neighbours, and how many there are. -/
structure Range where
  first : Int
  step : Int
  count : Nat
  deriving DecidableEq, Repr

/-- The range between two bounds, in either direction, with or without the last one. -/
def Range.between (first last : Int) (inclusive : Bool) : Range :=
  { first
    step := if first ≤ last then 1 else -1
    count := (last - first).natAbs + (if inclusive then 1 else 0) }

def countFrom (name : String) (unit : Units) (body : List Statement) (step : Int) :
    (count : Nat) → (next : Int) → Eval (Option Value)
  | 0, _ => return none
  | count + 1, next => do
    match ← self.innerBlock [(name, .number ⟨Float.ofInt next, unit⟩)] body with
    | some value => return some value
    | none => countFrom name unit body step count (next + step)

/-- The integer that a bound is cut to. -/
def bound (n : Number) : Int := Decimal.toInt (-(Nat.pow 2 127)) (Nat.pow 2 127 - 1) n.value

/-- Runs a body for each integer between two bounds. The counter is an integer of any size here. One of 128 bits
overflows where a loop steps over the last integer that a bound can be cut to, which takes a bound at or beyond
`2 ^ 127` from zero: what such a loop does is not modelled. -/
def forRange (name : String) (first last : Expr) (inclusive : Bool) (body : List Statement) :
    Eval (Option Value) := do
  let first ← self.integer first
  let last ← self.integer last
  let range := Range.between (bound first) (bound last) inclusive
  self.countFrom name first.unit body range.step range.count range.first

def whileTrue (condition : Expr) (body : List Statement) : (rounds : Nat) → Eval (Option Value)
  | 0 => throw .endless
  | rounds + 1 => do
    if (← self.eval condition).isTruthy then
      match ← self.innerBlock [] body with
      | some value => return some value
      | none => whileTrue condition body rounds
    else return none

end Stylesheet.Evaluation.Evaluator
