import Stylesheet.Color
import Stylesheet.Number

/-! Values of expressions. Every value can be seen as a list: a map as its pairs, and any value that is neither
list nor map as a list of one. Two values are the same when they have the same contents; the quotes of a string
do not matter, and neither does the order of a map. -/

namespace Stylesheet

inductive Separator where
  | space
  | comma
  deriving DecidableEq, Repr

def Separator.name : Separator → String
  | .space => "space"
  | .comma => "comma"

/-- What is written between items. -/
def Separator.text (compressed : Bool) : Separator → String
  | .space => " "
  | .comma => if compressed then "," else ", "

inductive Value where
  | null
  | bool (b : Bool)
  | number (n : Number)
  | color (c : Color)
  | string (text : String) (quoted : Bool)
  | list (items : List Value) (separator : Separator) (bracketed : Bool)
  /-- The keys and values of a map in the order in which the keys came first. -/
  | map (entries : List (Value × Value))
  /-- Returned by a function that stops the compilation. -/
  | error (message : String)
  /-- Returned by a function that gives a warning and no other result. -/
  | warning (message : String)
  deriving Repr, Inhabited

namespace Value

def unquoted (text : String) : Value := string text false

def emptyList : Value := list [] .space false

/-- A list of two items, a key and its value. -/
def pair (key value : Value) : Value := list [key, value] .space false

def isNull : Value → Bool
  | null => true
  | _ => false

/-- All values but `null` and `false` count as true in a condition. -/
def isTruthy : Value → Bool
  | null | bool false => false
  | _ => true

def typeName : Value → String
  | null => "null"
  | bool _ => "bool"
  | number _ => "number"
  | color _ => "color"
  | string _ _ => "string"
  | list _ _ _ => "list"
  | map _ => "map"
  | error _ => "error"
  | warning _ => "warning"

/-- The value seen as a list. -/
def items : Value → List Value
  | list items _ _ => items
  | map entries => entries.map fun (key, value) => pair key value
  | other => [other]

def separator : Value → Separator
  | list _ separator _ => separator
  | map _ => .comma
  | _ => .space

mutual

/-- Equality as stylesheets see it. -/
def same : Value → Value → Bool
  | null, null => true
  | bool a, bool b => a == b
  | number a, number b => a.same b
  | color a, color b => a.same b
  | string a _, string b _ => a == b
  | list as separator bracketed, list bs separator' bracketed' =>
    as.length == bs.length && bracketed == bracketed' && (as.length ≤ 1 || separator == separator')
      && sameItems as bs
  | map as, map bs => as.length == bs.length && heldBy bs as
  | map entries, list items _ _ | list items _ _, map entries => entries.isEmpty && items.isEmpty
  | error a, error b => a == b
  | warning a, warning b => a == b
  | _, _ => false
termination_by a b => sizeOf a + sizeOf b

def sameItems : List Value → List Value → Bool
  | a :: as, b :: bs => same a b && sameItems as bs
  | _, _ => true
termination_by as bs => sizeOf as + sizeOf bs

def heldBy (map : List (Value × Value)) : List (Value × Value) → Bool
  | (key, value) :: rest => holds key value map && heldBy map rest
  | [] => true
termination_by entries => sizeOf map + sizeOf entries

/-- Whether a map has a key, and the first such key has the given value. -/
def holds (key value : Value) : List (Value × Value) → Bool
  | (key', value') :: rest => if same key' key then same value' value else holds key value rest
  | [] => false
termination_by map => sizeOf key + sizeOf value + sizeOf map

end

instance : BEq Value := ⟨same⟩

def lookup (key : Value) : List (Value × Value) → Option Value
  | [] => none
  | (key', value) :: rest => if key' == key then some value else lookup key rest

/-- Gives a key a value: in the place of an equal key if there is one, else at the end. -/
def insert (key value : Value) : List (Value × Value) → List (Value × Value)
  | [] => [(key, value)]
  | (key', value') :: rest =>
    if key' == key then (key', value) :: rest else (key', value') :: insert key value rest

/-- The entries of a map that is given entry by entry; of equal keys the last value counts. -/
def ofEntries (entries : List (Value × Value)) : List (Value × Value) :=
  entries.foldl (fun map (key, value) => insert key value map) []

end Value

end Stylesheet
