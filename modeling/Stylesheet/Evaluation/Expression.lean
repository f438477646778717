import Stylesheet.Evaluation.Call

/-! The value of an expression, once the evaluator can give the values of its parts. -/

namespace Stylesheet.Evaluation.Evaluator

variable (self : Evaluator)

/-- The text of a template with the values of its expressions in it. -/
def text : Template Expr → Eval String
  | [] => return ""
  | .text s :: rest => return s ++ (← text rest)
  | .code expr :: rest => do
    let value ← self.eval expr
    return value.interpolated (← read).places ++ (← text rest)

/-- The entries of a map, of which equal keys keep the last value. -/
def entries : List (Expr × Expr) → List (Value × Value) → Eval (List (Value × Value))
  | [], map => return map
  | (key, value) :: rest, map => do
    let key ← self.eval key
    let value ← self.eval value
    entries rest (Value.insert key value map)

/-- Whether an operand on the left settles a conjunction or a disjunction, whatever stands on the right. -/
def isSettledBy (op : BinaryOp) (left : Value) : Bool :=
  match op with
  | .and => !left.isTruthy
  | .or => left.isTruthy
  | _ => false

def binary (op : BinaryOp) (left right : Expr) (pos : Position) : Eval Value := do
  let leftValue ← self.eval left
  if isSettledBy op leftValue then return leftValue
  else
    let rightValue ← self.eval right
    ofOperation pos (Value.binary (← read).places op leftValue rightValue)

def evalStep : Expr → Eval Value
  | .literal value => return value
  | .string text quoted => return .string (← self.text text) quoted
  | .variable name pos => do
    let state ← get
    match state.scopes.valueOf? state.place.scope name with
    | some value => return value
    | none => fail pos (.undefinedVariable name)
  | .binary op left right pos => self.binary op left right pos
  | .unary op operand _ => do
    let value ← self.eval operand
    return Value.unary (← read).places op value
  | .list items separator bracketed => return .list (← items.mapM self.eval) separator bracketed
  | .map entries _ => return .map (← self.entries entries [])
  | .call name arguments pos => self.call name arguments pos
  | .paren inner => self.eval inner

mutual

/-- The value of a declaration, where a slash between two numbers that are written out does not divide. -/
def cssValue : Expr → Eval Value
  | .binary .div (.literal (.number a)) (.literal (.number b)) _ => do
    let places := (← read).places
    return .unquoted (a.text places false ++ "/" ++ b.text places false)
  | .list items separator bracketed => return .list (← cssValues items) separator bracketed
  | expr => self.eval expr

def cssValues : List Expr → Eval (List Value)
  | [] => return []
  | item :: rest => return (← cssValue item) :: (← cssValues rest)

end

mutual

def place? : Expr → Option Position
  | .variable _ pos | .binary _ _ _ pos | .unary _ _ pos | .map _ pos | .call _ _ pos => some pos
  | .paren inner => place? inner
  | .list items _ _ => firstPlace? items
  | .literal _ | .string _ _ => none

def firstPlace? : List Expr → Option Position
  | [] => none
  | item :: _ => place? item

end

/-- A bound of a loop, which must be a whole number. -/
def integer (expr : Expr) : Eval Number := do
  let value ← self.eval expr
  let refuse : Eval Number := do
    fail ((place? expr).getD (← get).statementPos) (.notInteger (value.inspect (← read).places))
  match value with
  | .number n => if n.isInt then return n else refuse
  | _ => refuse

end Stylesheet.Evaluation.Evaluator
