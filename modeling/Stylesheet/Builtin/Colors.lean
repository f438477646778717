import Stylesheet.Builtin.Arguments

/-! Built-in functions on colors. -/

namespace Stylesheet.Builtin

def rgb (call : Call) : Result := do
  let red ← call.channel 0 255
  let green ← call.channel 1 255
  let blue ← call.channel 2 255
  return .color (Color.ofRgba red green blue 1)

/-- A color of four channels, or a color given as one argument with another alpha. -/
def rgba (call : Call) : Result := do
  match call.get? 0, call.get? 2 with
  | some (.color color), none => return .color (color.withAlpha (← call.number 1).value)
  | _, _ =>
    let red ← call.channel 0 255
    let green ← call.channel 1 255
    let blue ← call.channel 2 255
    let alpha ← call.channel 3 1
    return .color (Color.ofRgba red green blue alpha)

def hsl (call : Call) : Result := do
  let hue ← call.number 0
  let saturation ← call.number 1
  let lightness ← call.number 2
  return .color (Color.ofHsla hue.value saturation.value lightness.value 1)

def hsla (call : Call) : Result := do
  let hue ← call.number 0
  let saturation ← call.number 1
  let lightness ← call.number 2
  let alpha ← call.channel 3 1
  return .color (Color.ofHsla hue.value saturation.value lightness.value alpha)

def red (call : Call) : Result := return .number (Number.ofNat (← call.color 0).channels.1)

def green (call : Call) : Result := return .number (Number.ofNat (← call.color 0).channels.2.1)

def blue (call : Call) : Result := return .number (Number.ofNat (← call.color 0).channels.2.2)

/-- The alpha of a color; a string is the argument of a filter and stays one. -/
def alpha (call : Call) : Result := do
  match ← call.required 0 with
  | .string text _ => return Value.unquoted ("alpha(" ++ text ++ ")")
  | _ => return .number (Number.unitless (← call.color 0).alpha)

/-- Two colors mixed by a weight in percent, which differences of alpha shift. -/
def mixColors (first second : Color) (weight : Float) : Color :=
  let share := weight / 100
  let tilt := share * 2 - 1
  let difference := first.alpha - second.alpha
  let shifted :=
    if (tilt * difference + 1).abs < 2.220446049250313e-16 then tilt
    else (tilt + difference) / (1 + tilt * difference)
  let w := (shifted + 1) / 2
  let v := 1 - w
  Color.ofRgba (first.red * w + second.red * v) (first.green * w + second.green * v)
    (first.blue * w + second.blue * v) (first.alpha * share + second.alpha * (1 - share))

/-- A percentage that may be left out. -/
def percentOr (call : Call) (i : Nat) (default : Float) : Except BuiltinError Float :=
  if (call.get? i).isSome then call.percent i else .ok default

def mix (call : Call) : Result := do
  let weight ← percentOr call 2 50
  let first ← call.color 0
  let second ← call.color 1
  return .color (mixColors first second weight)

/-- A color with its hue, saturation and lightness moved. -/
def adjust (color : Color) (hue saturation lightness : Float) : Value :=
  let (h, s, l) := color.toHsl
  .color (Color.ofHsla (h + hue) (Color.clamp 0 100 (s + saturation)) (Color.clamp 0 100 (l + lightness)) color.alpha)

def lighten (call : Call) : Result := do
  let color ← call.color 0
  return adjust color 0 0 (← call.percent 1)

def darken (call : Call) : Result := do
  let color ← call.color 0
  return adjust color 0 0 (-(← call.percent 1))

def saturate (call : Call) : Result := do
  let color ← call.color 0
  return adjust color 0 (← call.percent 1) 0

def desaturate (call : Call) : Result := do
  let color ← call.color 0
  return adjust color 0 (-(← call.percent 1)) 0

def adjustHue (call : Call) : Result := do
  let color ← call.color 0
  return adjust color (← call.number 1).value 0 0

/-- A color without saturation; a number is the argument of a filter and stays one. -/
def grayscale (call : Call) : Result := do
  match ← call.required 0 with
  | .number n => return Value.unquoted ("grayscale(" ++ n.text call.places false ++ ")")
  | _ => return adjust (← call.color 0) 0 (-100) 0

def complement (call : Call) : Result := return adjust (← call.color 0) 180 0 0

def invert (call : Call) : Result := do
  let color ← call.color 0
  let inverted := Color.ofRgba (255 - color.red) (255 - color.green) (255 - color.blue) color.alpha
  return .color (mixColors inverted color (← percentOr call 1 100))

def transparentize (call : Call) : Result := do
  let color ← call.color 0
  return .color (color.withAlpha (color.alpha - (← call.alpha 1)))

def opacify (call : Call) : Result := do
  let color ← call.color 0
  return .color (color.withAlpha (color.alpha + (← call.alpha 1)))

end Stylesheet.Builtin
