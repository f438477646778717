import Stylesheet.Decimal
import Stylesheet.Units

/-! Numbers with units. Sums and comparisons convert the right operand to the unit of the left one; products and
quotients cancel convertible units against each other. -/

namespace Stylesheet

structure Number where
  value : Float
  unit : Units
  deriving DecidableEq, Repr

/-- Two units that cannot be converted into each other, as an operation met them. -/
structure UnitMismatch where
  left : Units
  right : Units
  deriving DecidableEq, Repr

def UnitMismatch.message (mismatch : UnitMismatch) : String :=
  "Incompatible units: '" ++ mismatch.right.text ++ "' and '" ++ mismatch.left.text ++ "'."

namespace Number

/-- Values that differ by less count as equal. -/
def tolerance : Float := 1e-10

def unitless (value : Float) : Number := ⟨value, Units.none⟩

def ofNat (n : Nat) : Number := unitless (Float.ofNat n)

def isUnitless (n : Number) : Bool := n.unit.isNone

def isInt (n : Number) : Bool := (n.value - Decimal.round n.value).abs < tolerance

/-- The value in another unit. A number without a unit takes any unit as it is. -/
def valueIn? (n : Number) (target : Units) : Option Float :=
  if n.unit.isNone || target.isNone then some n.value
  else (n.unit.factorTo? target).map (n.value * ·)

/-- An operation on values of one unit: the unit of the left operand, or of the right one if the left has none. -/
def combine (op : Float → Float → Float) (a b : Number) : Except UnitMismatch Number :=
  let unit := if a.unit.isNone then b.unit else a.unit
  match b.valueIn? unit with
  | some value => .ok ⟨op a.value value, unit⟩
  | none => .error ⟨a.unit, b.unit⟩

/-- The order of two numbers. What is not a number is equal to everything here. -/
def compare (a b : Number) : Except UnitMismatch Ordering :=
  match b.valueIn? a.unit with
  | some value => .ok (if a.value < value then .lt else if value < a.value then .gt else .eq)
  | none => .error ⟨a.unit, b.unit⟩

/-- Takes the first name that `name` is convertible to out of a list, with what the conversion multiplies by. -/
def cancel? (name : String) : List String → Option (Float × List String)
  | [] => none
  | other :: rest =>
    match conversion? name other with
    | some factor => some (factor, rest)
    | none => (cancel? name rest).map fun (factor, left) => (factor, other :: left)

/-- Cancels convertible names above and below the line against each other. -/
def simplify (value : Float) (denom : List String) : List String → Number
  | [] => ⟨value, ⟨[], denom⟩⟩
  | name :: rest =>
    match cancel? name denom with
    | some (factor, left) => simplify (value * factor) left rest
    | none =>
      let simplified := simplify value denom rest
      { simplified with unit.numer := name :: simplified.unit.numer }

def mul (a b : Number) : Number :=
  simplify (a.value * b.value) (a.unit.denom ++ b.unit.denom) (a.unit.numer ++ b.unit.numer)

def div (a b : Number) : Number :=
  simplify (a.value / b.value) (a.unit.denom ++ b.unit.numer) (a.unit.numer ++ b.unit.denom)

def neg (a : Number) : Number := { a with value := -a.value }

/-- Equal within the tolerance, once both are in one unit. A unit and no unit are never equal. -/
def same (a b : Number) : Bool :=
  a.unit.isNone == b.unit.isNone &&
    match b.valueIn? a.unit with
    | some value => (a.value - value).abs < tolerance
    | none => false

def text (places : Nat) (compressed : Bool) (n : Number) : String :=
  String.ofList (Decimal.format n.value places compressed) ++ n.unit.text

end Number

end Stylesheet
