import Stylesheet.Builtin.Lists

/-! Built-in functions on strings, and those that tell about any value. Places in a string count characters from
one. -/

namespace Stylesheet.Builtin

def typeOf (call : Call) : Result := return Value.unquoted (← call.required 0).typeName

def inspect (call : Call) : Result := return Value.unquoted ((← call.required 0).inspect call.places)

def quote (call : Call) : Result := return .string (← call.string 0).1 true

def unquote (call : Call) : Result := do
  match ← call.required 0 with
  | .string text _ => return Value.unquoted text
  | other => return other

def strLength (call : Call) : Result := return .number (Number.ofNat (← call.string 0).1.length)

/-- A string with its letters changed and its quotes kept. -/
def onText (change : String → String) (call : Call) : Result := do
  let (text, quoted) ← call.string 0
  return .string (change text) quoted

/-- How many characters stand before the first occurrence of a text. -/
def offsetOf? (wanted : List Char) : List Char → Option Nat
  | [] => if wanted.isEmpty then some 0 else none
  | c :: rest => if wanted.isPrefixOf (c :: rest) then some 0 else (offsetOf? wanted rest).map (· + 1)

def strIndex (call : Call) : Result := do
  let (text, _) ← call.string 0
  let (wanted, _) ← call.string 1
  match offsetOf? wanted.toList text.toList with
  | some offset => return .number (Number.ofNat (offset + 1))
  | none => return .null

/-- The characters from one place through another. Negative places count from the end, a first place before the
beginning means the beginning, and a last place behind the end means the end. -/
def slice (cs : List Char) (first last : Int) : List Char :=
  let length : Int := cs.length
  let first := max 1 (if first < 0 then length + first + 1 else first)
  let last := if last < 0 then length + last + 1 else min last length
  (cs.drop (first - 1).toNat).take (last + 1 - first).toNat

def strSlice (call : Call) : Result := do
  let (text, quoted) ← call.string 0
  let first := indexOf (← call.number 1)
  let last ← if (call.get? 2).isSome then pure (indexOf (← call.number 2)) else pure (text.length : Int)
  return .string (String.ofList (slice text.toList first last)) quoted

end Stylesheet.Builtin
