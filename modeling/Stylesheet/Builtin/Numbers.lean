import Stylesheet.Builtin.Arguments

/-! Built-in functions on numbers. -/

namespace Stylesheet.Builtin

def percentage (call : Call) : Result := do
  let n ← call.number 0
  if n.isUnitless then return .number ⟨n.value * 100, Units.single "%"⟩
  else throw (.wrongKind "number" (n.text call.places false) "unitless number")

/-- A number with its value changed and its unit kept. -/
def onValue (change : Float → Float) (call : Call) : Result := do
  let n ← call.number 0
  return .number { n with value := change n.value }

/-- The first of the numbers that compares as `wanted` with all others. -/
def extremeOf (places : Nat) (wanted : Ordering) (best : Number) : List Value → Result
  | [] => .ok (.number best)
  | .number n :: rest =>
    match n.compare best with
    | .ok ordering => extremeOf places wanted (if ordering = wanted then n else best) rest
    | .error mismatch => .error (.units mismatch)
  | other :: _ => .error (.itemNotNumber (other.inspect places))

def extreme (wanted : Ordering) (call : Call) : Result := do
  match (← call.required 0).items with
  | [] => throw .noArguments
  | .number n :: rest => extremeOf call.places wanted n rest
  | other :: _ => throw (.itemNotNumber (other.inspect call.places))

def unit (call : Call) : Result := return .string (← call.number 0).unit.text true

def unitless (call : Call) : Result := return .bool (← call.number 0).isUnitless

def comparable (call : Call) : Result := do
  let a ← call.number 0
  let b ← call.number 1
  return .bool (a.unit.comparable b.unit)

end Stylesheet.Builtin
