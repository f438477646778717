import Stylesheet.Builtin.Arguments

/-! Built-in functions on lists and maps. Functions on lists take every value as the list that it can be seen as. -/

namespace Stylesheet.Builtin

/-- The range of the whole numbers that count items and characters. -/
def leastIndex : Int := -9223372036854775808

def mostIndex : Int := 9223372036854775807

/-- The whole number of an index, with its fraction cut off. -/
def indexOf (n : Number) : Int := Decimal.toInt leastIndex mostIndex n.value

def length (call : Call) : Result := return .number (Number.ofNat (← call.required 0).items.length)

/-- The item at an index that counts from one, or from the end if it is negative. -/
def itemAt? (items : List Value) (index : Int) : Option Value :=
  let place := if index < 0 then items.length + index else index - 1
  if index = 0 ∨ place < 0 then none else items[place.toNat]?

def nth (call : Call) : Result := do
  let items := (← call.required 0).items
  let n ← call.number 1
  match if n.isInt then itemAt? items (indexOf n) else none with
  | some item => return item
  | none => throw (.invalidIndex (n.text call.places false))

/-- The separator of a list that has one to show. -/
def shownSeparator? : Value → Option Separator
  | .list (_ :: _ :: _) separator _ => some separator
  | .map (_ :: _) => some .comma
  | _ => none

def join (call : Call) : Result := do
  let first ← call.required 0
  let second ← call.required 1
  let separator := ((← call.separator? 2) <|> shownSeparator? first <|> shownSeparator? second).getD .space
  return .list (first.items ++ second.items) separator false

def append (call : Call) : Result := do
  let list ← call.required 0
  let separator := ((← call.separator? 2) <|> shownSeparator? list).getD .space
  return .list (list.items ++ [← call.required 1]) separator false

def index (call : Call) : Result := do
  let wanted ← call.required 1
  match (← call.required 0).items.findIdx? (· == wanted) with
  | some i => return .number (Number.ofNat (i + 1))
  | none => return .null

def listSeparator (call : Call) : Result := return Value.unquoted (← call.required 0).separator.name

def mapGet (call : Call) : Result := do
  let entries ← call.map 0
  return (Value.lookup (← call.required 1) entries).getD .null

/-- The entries of two maps; the second decides about keys that both have. -/
def merge (first second : List (Value × Value)) : List (Value × Value) :=
  second.foldl (fun map (key, value) => Value.insert key value map) first

def mapMerge (call : Call) : Result := do
  let first ← call.map 0
  let second ← call.map 1
  return .map (merge first second)

def mapKeys (call : Call) : Result := return .list ((← call.map 0).map Prod.fst) .comma false

def mapValues (call : Call) : Result := return .list ((← call.map 0).map Prod.snd) .comma false

def mapHasKey (call : Call) : Result := do
  let entries ← call.map 0
  return .bool (Value.lookup (← call.required 1) entries).isSome

end Stylesheet.Builtin
