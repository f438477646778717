import Stylesheet.Value.Text

/-! Operators on values. Numbers and colors have arithmetic and lists work item by item. Where there is no
arithmetic, `+` writes the operands one behind the other, and `-` and `/` write themselves between them. -/

namespace Stylesheet

inductive BinaryOp where
  | add
  | sub
  | mul
  | div
  | rem
  | eq
  | ne
  | lt
  | le
  | gt
  | ge
  | and
  | or
  deriving DecidableEq, Repr

inductive UnaryOp where
  | neg
  | plus
  | not
  deriving DecidableEq, Repr

def BinaryOp.symbol : BinaryOp → String
  | .add => "+"
  | .sub => "-"
  | .mul => "*"
  | .div => "/"
  | .rem => "%"
  | .eq => "=="
  | .ne => "!="
  | .lt => "<"
  | .le => "<="
  | .gt => ">"
  | .ge => ">="
  | .and => "and"
  | .or => "or"

namespace Value

variable (places : Nat)

def undefinedOperation (op : BinaryOp) (left right : Value) : OperationError :=
  .undefined (left.inspect places) op.symbol (right.inspect places)

def ofNumber (result : Except UnitMismatch Number) : Except OperationError Value :=
  match result with
  | .ok n => .ok (number n)
  | .error mismatch => .error (.units mismatch)

/-- A color computed channel by channel; its alpha is that of the color given. -/
def ofChannels (op : Float → Float → Float) (c : Color) (red green blue : Float) : Value :=
  color (Color.ofRgba (op c.red red) (op c.green green) (op c.blue blue) c.alpha)

def isString : Value → Bool
  | string _ _ => true
  | _ => false

/-- Whether a concatenation is a quoted string: as the first operand that is a string says. -/
def concatenationQuoted : Value → Value → Bool
  | string _ quoted, _ => quoted
  | _, string _ quoted => quoted
  | _, _ => false

/-- Operators on operands that have no arithmetic. -/
def textual (op : BinaryOp) (left right : Value) : Except OperationError Value :=
  match op with
  | .add =>
    if (left.isNull && !right.isString) || (right.isNull && !left.isString) then
      .error (.nullOperand (left.inspect places) (right.inspect places))
    else .ok (string (left.interpolated places ++ right.interpolated places) (concatenationQuoted left right))
  | .sub | .div =>
    if left.isNull || right.isNull then .error (undefinedOperation places op left right)
    else .ok (unquoted (left.cssOrInspect places ++ op.symbol ++ right.cssOrInspect places))
  | _ => .error (undefinedOperation places op left right)

/-- The order of two numbers; nothing else has one. -/
def relation (op : BinaryOp) (holds : Ordering → Bool) (left right : Value) : Except OperationError Value :=
  match left, right with
  | number a, number b =>
    match a.compare b with
    | .ok ordering => .ok (bool (holds ordering))
    | .error mismatch => .error (.units mismatch)
  | _, _ => .error (undefinedOperation places op left right)

/-- Whether a list works item by item with another one. -/
def pairsWith (items others : List Value) (separator separator' : Separator) : Bool :=
  items.length == others.length && separator == separator' && items.length > 1

mutual

def arithmetic (op : BinaryOp) (compute : Float → Float → Float) : Value → Value → Except OperationError Value
  | error message, _ => .error (.raised message)
  | number a, right =>
    match right with
    | error message => .error (.raised message)
    | number b =>
      match op with
      | .mul => .ok (number (a.mul b))
      | .div => .ok (number (a.div b))
      | _ => ofNumber (Number.combine compute a b)
    | color c =>
      if a.isUnitless && (op = .add || op = .mul) then .ok (ofChannels compute c a.value a.value a.value)
      else textual places op (number a) right
    | _ => textual places op (number a) right
  | color a, right =>
    match right with
    | error message => .error (.raised message)
    | color b =>
      if (a.alpha - b.alpha).abs > 1e-10 then
        .error (.alphas ((color a).inspect places) op.symbol (right.inspect places))
      else .ok (ofChannels compute a b.red b.green b.blue)
    | number n =>
      if n.isUnitless then .ok (ofChannels compute a n.value n.value n.value) else textual places op (color a) right
    | _ => textual places op (color a) right
  | list items separator bracketed, right =>
    match right with
    | error message => .error (.raised message)
    | list others separator' bracketed' =>
      if pairsWith items others separator separator' then
        (arithmeticItems op compute items others).map fun results => list results separator bracketed
      else textual places op (list items separator bracketed) (list others separator' bracketed')
    | _ => textual places op (list items separator bracketed) right
  | left, right =>
    match right with
    | error message => .error (.raised message)
    | _ => textual places op left right

def arithmeticItems (op : BinaryOp) (compute : Float → Float → Float) :
    List Value → List Value → Except OperationError (List Value)
  | a :: as, b :: bs =>
    match arithmetic op compute a b with
    | .ok result => (arithmeticItems op compute as bs).map (result :: ·)
    | .error failure => .error failure
  | _, _ => .ok []

end

def binary (op : BinaryOp) (left right : Value) : Except OperationError Value :=
  match op with
  | .eq => .ok (bool (left == right))
  | .ne => .ok (bool (!(left == right)))
  | .lt => relation places op (· == .lt) left right
  | .le => relation places op (· != .gt) left right
  | .gt => relation places op (· == .gt) left right
  | .ge => relation places op (· != .lt) left right
  | .and => .ok (if left.isTruthy then right else left)
  | .or => .ok (if left.isTruthy then left else right)
  | .add => arithmetic places op (· + ·) left right
  | .sub => arithmetic places op (· - ·) left right
  | .mul => arithmetic places op (· * ·) left right
  | .div => arithmetic places op (· / ·) left right
  | .rem => arithmetic places op Decimal.remainder left right

def unary (op : UnaryOp) (operand : Value) : Value :=
  match op, operand with
  | .not, value => bool (!value.isTruthy)
  | .neg, number n => number n.neg
  | .plus, number n => number n
  | .neg, value => unquoted ("-" ++ value.cssOrInspect places)
  | .plus, value => unquoted ("+" ++ value.cssOrInspect places)

end Value

end Stylesheet
