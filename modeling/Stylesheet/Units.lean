/-! Units of measurement. A unit is a product of unit names over a product of others. Two names are convertible
when they are the same or measure the same kind of quantity. -/

namespace Stylesheet

inductive Quantity where
  | length
  | angle
  | time
  | frequency
  | resolution
  deriving DecidableEq, Repr

/-- What a unit name measures, and how many of the quantity's first unit it makes. -/
def Quantity.ofUnit? (name : String) : Option (Quantity × Float) :=
  match name.toLower with
  | "px" => some (.length, 1)
  | "in" => some (.length, 96)
  | "cm" => some (.length, 96 / 2.54)
  | "mm" => some (.length, 96 / 25.4)
  | "q" => some (.length, 96 / 101.6)
  | "pt" => some (.length, 4 / 3)
  | "pc" => some (.length, 16)
  | "deg" => some (.angle, 1)
  | "grad" => some (.angle, 0.9)
  | "rad" => some (.angle, 180 / 3.141592653589793)
  | "turn" => some (.angle, 360)
  | "s" => some (.time, 1)
  | "ms" => some (.time, 0.001)
  | "hz" => some (.frequency, 1)
  | "khz" => some (.frequency, 1000)
  | "dppx" => some (.resolution, 1)
  | "dpi" => some (.resolution, 1 / 96)
  | "dpcm" => some (.resolution, 2.54 / 96)
  | _ => none

/-- What a value in the unit `source` is multiplied with to give the value in `target`. -/
def conversion? (source target : String) : Option Float :=
  if source = target then some 1
  else
    match Quantity.ofUnit? source, Quantity.ofUnit? target with
    | some (quantity, factor), some (quantity', factor') =>
      if quantity = quantity' then some (factor / factor') else none
    | _, _ => none

structure Units where
  numer : List String
  denom : List String
  deriving DecidableEq, Repr

namespace Units

def none : Units := ⟨[], []⟩

/-- The unit of one name; the empty name is no unit. -/
def single (name : String) : Units := if name.isEmpty then none else ⟨[name], []⟩

def isNone (unit : Units) : Bool := unit.numer.isEmpty && unit.denom.isEmpty

def single? : Units → Option String
  | ⟨[name], []⟩ => some name
  | _ => Option.none

/-- Multiplies `factor` by the conversions between names at the same place. -/
def factorAlong (combine : Float → Float → Float) (factor : Float) : List String → List String → Option Float
  | a :: as, b :: bs => (conversion? a b).bind fun step => factorAlong combine (combine factor step) as bs
  | _, _ => some factor

/-- What a value in `unit` is multiplied with to give the value in `target`. -/
def factorTo? (unit target : Units) : Option Float :=
  if unit = target then some 1
  else if unit.numer.length != target.numer.length || unit.denom.length != target.denom.length then Option.none
  else
    (factorAlong (· * ·) 1 unit.numer target.numer).bind fun factor =>
      factorAlong (· / ·) factor unit.denom target.denom

/-- Whether values in the two units can be added and compared. A number without a unit goes with every unit. -/
def comparable (unit other : Units) : Bool := unit.isNone || other.isNone || (unit.factorTo? other).isSome

def text (unit : Units) : String :=
  "*".intercalate unit.numer ++ if unit.denom.isEmpty then "" else "/" ++ "*".intercalate unit.denom

end Units

end Stylesheet
