/-! Decimal notation of binary floating-point numbers. A written decimal means the double nearest to it.
In the other direction a finite double is a whole number times a power of two, so its value to a fixed number
of places is a question about whole numbers: divide, round to nearest, and send a tie to the even neighbour. -/

namespace Stylesheet.Decimal

def natOfDigits (digits : List Char) : Nat :=
  digits.foldl (fun value c => 10 * value + (c.toNat - '0'.toNat)) 0

/-- The double nearest to `whole.fraction`. -/
def ofDigits (whole fraction : List Char) : Float :=
  Float.ofScientific (natOfDigits (whole ++ fraction)) true fraction.length

/-- The whole number nearest to a quotient; a tie goes to the even neighbour. -/
def roundDiv (num den : Nat) : Nat :=
  let quotient := num / den
  let rest := 2 * (num % den)
  if rest < den then quotient
  else if rest > den then quotient + 1
  else if quotient % 2 = 0 then quotient else quotient + 1

/-- A finite double is `(-1)^negative * mantissa * 2^exponent`. -/
structure Binary where
  negative : Bool
  mantissa : Nat
  exponent : Int
  deriving DecidableEq, Repr

/-- Reads the three fields of a double; the value must be finite. -/
def Binary.ofFloat (x : Float) : Binary :=
  let bits := x.toBits.toNat
  let field := bits / Nat.pow 2 52 % Nat.pow 2 11
  let fraction := bits % Nat.pow 2 52
  { negative := bits / Nat.pow 2 63 = 1
    mantissa := if field = 0 then fraction else fraction + Nat.pow 2 52
    exponent := ((if field = 0 then 1 else field : Nat) : Int) - 1075 }

/-- The magnitude in units of the last of `places` places, rounded to the nearest unit. -/
def Binary.scaled (b : Binary) (places : Nat) : Nat :=
  match b.exponent with
  | .ofNat e => b.mantissa * Nat.pow 2 e * Nat.pow 10 places
  | .negSucc e => roundDiv (b.mantissa * Nat.pow 10 places) (Nat.pow 2 (e + 1))

def paddedDigits (width value : Nat) : List Char :=
  let digits := Nat.toDigits 10 value
  List.replicate (width - digits.length) '0' ++ digits

/-- A finite double with exactly `places` digits behind the point; without places there is no point. -/
def fixed (x : Float) (places : Nat) : List Char :=
  let b := Binary.ofFloat x
  let digits := paddedDigits (places + 1) (b.scaled places)
  let whole := digits.take (digits.length - places)
  let fraction := digits.drop (digits.length - places)
  (if b.negative then ['-'] else []) ++ whole ++ (if places = 0 then [] else '.' :: fraction)

/-- At most `places` digits behind the point, without zeros at the end, and with no sign before a zero. A compressed
text has no zero before the point. -/
def format (x : Float) (places : Nat) (compressed : Bool) : List Char :=
  if x.isNaN then "NaN".toList
  else if x.isInf then (if x > 0 then "Infinity" else "-Infinity").toList
  else
    let digits := fixed x places
    let trimmed :=
      if digits.contains '.' then
        let kept := (digits.reverse.dropWhile (· == '0')).reverse
        if kept.getLast? = some '.' then kept.dropLast else kept
      else digits
    let unsigned := if trimmed = ['-', '0'] then ['0'] else trimmed
    if compressed then
      match unsigned with
      | '0' :: '.' :: rest => '.' :: rest
      | '-' :: '0' :: '.' :: rest => '-' :: '.' :: rest
      | other => other
    else unsigned

/-- The double of a value that some double has exactly. -/
def Binary.toFloat (b : Binary) : Float :=
  let magnitude := match b.exponent with
    | .ofNat e => Float.ofScientific (b.mantissa * Nat.pow 2 e) false 0
    | .negSucc e => Float.ofScientific (b.mantissa * Nat.pow 5 (e + 1)) true (e + 1)
  if b.negative then -magnitude else magnitude

/-- A whole number of either sign; the sign of a zero is kept. -/
def ofWhole (negative : Bool) (magnitude : Nat) : Float :=
  let value := Float.ofScientific magnitude false 0
  if negative then -value else value

/-- A whole-number quotient: the magnitude divided by the power of two below the point, with the remainder. -/
def Binary.divide (b : Binary) : Nat × Nat × Nat :=
  match b.exponent with
  | .ofNat e => (b.mantissa * Nat.pow 2 e, 0, 1)
  | .negSucc e => (b.mantissa / Nat.pow 2 (e + 1), b.mantissa % Nat.pow 2 (e + 1), Nat.pow 2 (e + 1))

/-- The nearest whole number to the magnitude; a half goes up. -/
def Binary.nearest (b : Binary) : Nat :=
  let (whole, rest, unit) := b.divide
  if 2 * rest < unit then whole else whole + 1

def isFinite (x : Float) : Bool := !(x.isNaN || x.isInf)

/-- The nearest whole number; a half goes away from zero. -/
def round (x : Float) : Float :=
  if isFinite x then let b := Binary.ofFloat x; ofWhole b.negative b.nearest else x

def floor (x : Float) : Float :=
  if isFinite x then
    let b := Binary.ofFloat x
    let (whole, rest, _) := b.divide
    ofWhole b.negative (if b.negative && rest != 0 then whole + 1 else whole)
  else x

def ceil (x : Float) : Float :=
  if isFinite x then
    let b := Binary.ofFloat x
    let (whole, rest, _) := b.divide
    ofWhole b.negative (if !b.negative && rest != 0 then whole + 1 else whole)
  else x

/-- The whole number toward zero, held between two bounds; what is not a number counts as zero. -/
def toInt (low high : Int) (x : Float) : Int :=
  if x.isNaN then 0
  else if x.isInf then if x > 0 then high else low
  else
    let b := Binary.ofFloat x
    let whole : Int := b.divide.1
    max low (min high (if b.negative then -whole else whole))

/-- The remainder of a division whose quotient is cut to a whole number. It is exact and has the sign of `x`. -/
def remainder (x y : Float) : Float :=
  if x.isNaN || y.isNaN || x.isInf || y == 0 then 0 / 0
  else if y.isInf then x
  else
    let a := Binary.ofFloat x
    let b := Binary.ofFloat y
    let exponent := min a.exponent b.exponent
    let scale (c : Binary) : Nat := c.mantissa * Nat.pow 2 (c.exponent - exponent).toNat
    Binary.toFloat { negative := a.negative, mantissa := scale a % scale b, exponent }

/-- A decimal as it is written: a sign, digits with a point, and an exponent. -/
structure Literal where
  negative : Bool
  whole : List Char
  fraction : List Char
  exponent : Int

/-- The double nearest to a written decimal. An exponent that leaves no doubt about the result is cut short. -/
def Literal.toFloat (literal : Literal) : Float :=
  let digits := literal.whole ++ literal.fraction
  let exponent := literal.exponent - literal.fraction.length
  let limit : Int := digits.length + 400
  let exponent := max (-limit) (min 400 exponent)
  let magnitude := Float.ofScientific (natOfDigits digits) (decide (exponent < 0)) exponent.natAbs
  if literal.negative then -magnitude else magnitude

/-- Reads a decimal from beginning to end. Digits may be missing on one side of the point. -/
def Literal.read? (cs : List Char) : Option Literal :=
  let (negative, cs) := match cs with
    | '-' :: rest => (true, rest)
    | '+' :: rest => (false, rest)
    | _ => (false, cs)
  let whole := cs.takeWhile Char.isDigit
  let (fraction, cs) := match cs.dropWhile Char.isDigit with
    | '.' :: rest => (rest.takeWhile Char.isDigit, rest.dropWhile Char.isDigit)
    | rest => ([], rest)
  if whole.isEmpty && fraction.isEmpty then none
  else
    match cs with
    | [] => some { negative, whole, fraction, exponent := 0 }
    | e :: rest =>
      if e == 'e' || e == 'E' then
        let (below, digits) := match rest with
          | '-' :: digits => (true, digits)
          | '+' :: digits => (false, digits)
          | _ => (false, rest)
        if digits.isEmpty || !digits.all Char.isDigit then none
        else
          let magnitude : Int := natOfDigits digits
          some { negative, whole, fraction, exponent := if below then -magnitude else magnitude }
      else none

/-- Reads a decimal, an infinity or what is not a number. -/
def read? (s : String) : Option Float :=
  let infinity : Float := 1 / 0
  match s.toLower with
  | "nan" | "+nan" | "-nan" => some (0 / 0)
  | "inf" | "+inf" | "infinity" | "+infinity" => some infinity
  | "-inf" | "-infinity" => some (-infinity)
  | _ => (Literal.read? s.toList).map Literal.toFloat

end Stylesheet.Decimal
