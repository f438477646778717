import Stylesheet.Color.Named
import Stylesheet.Decimal

/-! Colors. Channels are kept as they are computed and rounded only when they are written. A color that stands in
the source remembers its spelling. -/

namespace Stylesheet

structure Color where
  /-- Red, green and blue lie between 0 and 255, alpha between 0 and 1. -/
  red : Float
  green : Float
  blue : Float
  alpha : Float
  spelling : Option String
  deriving DecidableEq, Repr

namespace Color

/-- The nearest value between two bounds; what is not a number stays as it is. -/
def clamp (low high x : Float) : Float := if x < low then low else if high < x then high else x

def ofRgba (red green blue alpha : Float) : Color :=
  ⟨clamp 0 255 red, clamp 0 255 green, clamp 0 255 blue, clamp 0 1 alpha, none⟩

def withAlpha (color : Color) (alpha : Float) : Color := ofRgba color.red color.green color.blue alpha

def roundChannel (channel : Float) : Nat := (Decimal.toInt 0 255 (Decimal.round channel)).toNat

def channels (color : Color) : Nat × Nat × Nat :=
  (roundChannel color.red, roundChannel color.green, roundChannel color.blue)

/-- Colors are equal when their rounded channels are, and their alphas within a tolerance. -/
def same (a b : Color) : Bool := a.channels == b.channels && (a.alpha - b.alpha).abs < 1e-10

def digitValue? (c : Char) : Option Nat :=
  if c.isDigit then some (c.toNat - '0'.toNat)
  else if 'a' ≤ c ∧ c ≤ 'f' then some (c.toNat - 'a'.toNat + 10)
  else if 'A' ≤ c ∧ c ≤ 'F' then some (c.toNat - 'A'.toNat + 10)
  else none

/-- The color of three, four, six or eight hexadecimal digits. -/
def ofHex? (digits : String) : Option Color :=
  match digits.toList.mapM digitValue? with
  | none => none
  | some values =>
    let color (red green blue alpha : Nat) : Option Color :=
      some { ofRgba (Float.ofNat red) (Float.ofNat green) (Float.ofNat blue) (Float.ofNat alpha / 255) with
        spelling := some ("#" ++ digits) }
    match values with
    | [r, g, b] => color (17 * r) (17 * g) (17 * b) 255
    | [r, g, b, a] => color (17 * r) (17 * g) (17 * b) (17 * a)
    | [r, r', g, g', b, b'] => color (16 * r + r') (16 * g + g') (16 * b + b') 255
    | [r, r', g, g', b, b', a, a'] => color (16 * r + r') (16 * g + g') (16 * b + b') (16 * a + a')
    | _ => none

/-- The color with a name; letters of either case will do. -/
def ofName? (name : String) : Option Color :=
  let lower := name.toLower
  if lower = "transparent" then some { ofRgba 0 0 0 0 with spelling := some name }
  else
    (channelsOfName? lower).map fun (red, green, blue) =>
      { ofRgba (Float.ofNat red) (Float.ofNat green) (Float.ofNat blue) 1 with spelling := some name }

/-- The greater of two values, where what is not a number loses to everything else. -/
def greater (x y : Float) : Float := if x.isNaN then y else if y.isNaN then x else if x < y then y else x

/-- The smaller of two values, where what is not a number loses to everything else. -/
def smaller (x y : Float) : Float := if x.isNaN then y else if y.isNaN then x else if y < x then y else x

/-- Hue in degrees, saturation and lightness in percent. -/
def toHsl (color : Color) : Float × Float × Float :=
  let r := color.red / 255
  let g := color.green / 255
  let b := color.blue / 255
  let most := greater (greater r g) b
  let least := smaller (smaller r g) b
  let lightness := (most + least) / 2
  let spread := most - least
  if spread.abs < 2.220446049250313e-16 then (0, 0, lightness * 100)
  else
    let saturation := if lightness > 0.5 then spread / (2 - most - least) else spread / (most + least)
    let sixth :=
      if most == r then (g - b) / spread + (if g < b then 6 else 0)
      else if most == g then (b - r) / spread + 2
      else (r - g) / spread + 4
    (sixth / 6 * 360, saturation * 100, lightness * 100)

/-- One channel, between 0 and 1, of a hue that is `turn` turns away from it. -/
def hueChannel (low high turn : Float) : Float :=
  let turn := if turn < 0 then turn + 1 else turn
  let turn := if turn > 1 then turn - 1 else turn
  if turn < 1 / 6 then low + (high - low) * 6 * turn
  else if turn < 1 / 2 then high
  else if turn < 2 / 3 then low + (high - low) * (2 / 3 - turn) * 6
  else low

/-- The color of a hue in degrees, a saturation and a lightness in percent, and an alpha. -/
def ofHsla (hue saturation lightness alpha : Float) : Color :=
  let rest := Decimal.remainder hue 360
  let turn := (if rest < 0 then rest + 360 else rest) / 360
  let s := clamp 0 1 (saturation / 100)
  let l := clamp 0 1 (lightness / 100)
  if s == 0 then ofRgba (l * 255) (l * 255) (l * 255) alpha
  else
    let high := if l < 0.5 then l * (1 + s) else l + s - l * s
    let low := 2 * l - high
    ofRgba (hueChannel low high (turn + 1 / 3) * 255) (hueChannel low high turn * 255)
      (hueChannel low high (turn - 1 / 3) * 255) alpha

/-- Six digits of which each pair is the same digit twice become three; other spellings stay. -/
def shortenHex (hex : String) : String :=
  match hex.toList.drop 1 with
  | [r, r', g, g', b, b'] => if r = r' ∧ g = g' ∧ b = b' then String.ofList ['#', r, g, b] else hex
  | _ => hex

def hexText (compressed : Bool) (color : Color) : String :=
  let (red, green, blue) := color.channels
  let pair (n : Nat) : List Char := [Nat.digitChar (n / 16), Nat.digitChar (n % 16)]
  let hex := String.ofList ('#' :: pair red ++ pair green ++ pair blue)
  if compressed then shortenHex hex else hex

/-- A color that was spelled in the source. It is shortened only in a compressed text. -/
def spelledText (compressed : Bool) (color : Color) (spelling : String) : String :=
  if !compressed then spelling
  else if spelling.startsWith "#" then shortenHex spelling
  else
    let hex := color.hexText true
    if color.alpha ≥ 1 && hex.utf8ByteSize < spelling.utf8ByteSize then hex else spelling

/-- A color that was computed: its name if it has one, else its digits, or a call if it is translucent. -/
def computedText (places : Nat) (compressed : Bool) (color : Color) : String :=
  let (red, green, blue) := color.channels
  if color.alpha < 1 then
    if color.alpha == 0 && color.channels == (0, 0, 0) then "transparent"
    else
      let alpha := String.ofList (Decimal.format color.alpha places compressed)
      let parts := [toString red, toString green, toString blue, alpha]
      "rgba(" ++ (if compressed then "," else ", ").intercalate parts ++ ")"
  else
    let hex := color.hexText compressed
    match nameOfChannels? color.channels with
    | some name => if !compressed || name.utf8ByteSize < hex.utf8ByteSize then name else hex
    | none => hex

def text (places : Nat) (compressed : Bool) (color : Color) : String :=
  match color.spelling with
  | some spelling => color.spelledText compressed spelling
  | none => color.computedText places compressed

end Color

end Stylesheet
