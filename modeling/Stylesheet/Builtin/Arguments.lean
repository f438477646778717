import Stylesheet.Value.Text

/-! Arguments of built-in functions, and what can be wrong with them. -/

namespace Stylesheet

inductive BuiltinError where
  | missing (parameter : String)
  /-- The value of a parameter, shown here, is of another kind than the one wanted. -/
  | wrongKind (parameter shown wanted : String)
  | percentOutOfRange (shown : String)
  | alphaOutOfRange (shown : String)
  | separatorName
  | itemNotNumber (shown : String)
  | noArguments
  | invalidIndex (shown : String)
  | units (mismatch : UnitMismatch)
  deriving DecidableEq, Repr

def BuiltinError.message : BuiltinError → String
  | missing parameter => "Missing argument $" ++ parameter ++ "."
  | wrongKind parameter shown wanted => "$" ++ parameter ++ ": " ++ shown ++ " is not a " ++ wanted ++ "."
  | percentOutOfRange shown => "Amount " ++ shown ++ " must be between 0% and 100%."
  | alphaOutOfRange shown => "Amount " ++ shown ++ " must be between 0 and 1."
  | separatorName => "Separator name must be space, comma, or auto."
  | itemNotNumber shown => shown ++ " is not a number."
  | noArguments => "At least one argument must be passed."
  | invalidIndex shown => "Invalid index " ++ shown ++ " for `nth'"
  | units mismatch => mismatch.message

namespace Builtin

/-- The values that a call gives to the parameters of a function. -/
structure Call where
  parameters : List String
  values : List (Option Value)
  /-- Digits kept behind the point where a value is shown. -/
  places : Nat

abbrev Result := Except BuiltinError Value

namespace Call

variable (call : Call)

def parameter (i : Nat) : String := call.parameters.getD i "arg"

def get? (i : Nat) : Option Value := call.values[i]?.join

def required (i : Nat) : Except BuiltinError Value :=
  match call.get? i with
  | some value => .ok value
  | none => .error (.missing (call.parameter i))

def wrongKind (i : Nat) (value : Value) (wanted : String) : BuiltinError :=
  .wrongKind (call.parameter i) (value.inspect call.places) wanted

def number (i : Nat) : Except BuiltinError Number := do
  match ← call.required i with
  | .number n => return n
  | other => throw (call.wrongKind i other "number")

def color (i : Nat) : Except BuiltinError Color := do
  match ← call.required i with
  | .color c => return c
  | other => throw (call.wrongKind i other "color")

/-- A string and whether it is quoted. -/
def string (i : Nat) : Except BuiltinError (String × Bool) := do
  match ← call.required i with
  | .string text quoted => return (text, quoted)
  | other => throw (call.wrongKind i other "string")

/-- The entries of a map. The empty list is the empty map. -/
def map (i : Nat) : Except BuiltinError (List (Value × Value)) := do
  match ← call.required i with
  | .map entries => return entries
  | .list [] _ _ => return []
  | other => throw (call.wrongKind i other "map")

/-- A channel of a color, where a percentage is one of `most`. -/
def channel (i : Nat) (most : Float) : Except BuiltinError Float := do
  let n ← call.number i
  return if n.unit.single? = some "%" then n.value * most / 100 else n.value

/-- A percentage, with or without its unit. -/
def percent (i : Nat) : Except BuiltinError Float := do
  let n ← call.number i
  if 0 ≤ n.value && n.value ≤ 100 then return n.value
  else throw (.percentOutOfRange (n.text call.places false))

def alpha (i : Nat) : Except BuiltinError Float := do
  let n ← call.number i
  if 0 ≤ n.value && n.value ≤ 1 then return n.value
  else throw (.alphaOutOfRange (n.text call.places false))

/-- A separator by its name; none if it is left to the lists. -/
def separator? (i : Nat) : Except BuiltinError (Option Separator) :=
  match call.get? i with
  | none => .ok none
  | some (.string name _) =>
    match name with
    | "auto" => .ok none
    | "space" => .ok (some .space)
    | "comma" => .ok (some .comma)
    | _ => .error .separatorName
  | some _ => .error .separatorName

end Call

end Builtin

/-- A built-in function. One that is variadic takes all arguments beyond the others as its last parameter. -/
structure Builtin where
  parameters : List String
  variadic : Bool
  run : Builtin.Call → Builtin.Result

end Stylesheet
