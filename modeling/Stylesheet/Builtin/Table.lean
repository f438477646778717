import Stylesheet.Builtin.Colors
import Stylesheet.Builtin.Numbers
import Stylesheet.Builtin.Strings

/-! The built-in functions by their names. -/

namespace Stylesheet.Builtin

def fixed (parameters : List String) (run : Call → Result) : Builtin := ⟨parameters, false, run⟩

def table : List (String × Builtin) :=
  [
    ("rgb", fixed ["red", "green", "blue"] rgb),
    ("rgba", fixed ["red", "green", "blue", "alpha"] rgba),
    ("hsl", fixed ["hue", "saturation", "lightness"] hsl),
    ("hsla", fixed ["hue", "saturation", "lightness", "alpha"] hsla),
    ("red", fixed ["color"] red),
    ("green", fixed ["color"] green),
    ("blue", fixed ["color"] blue),
    ("alpha", fixed ["color"] alpha),
    ("opacity", fixed ["color"] alpha),
    ("mix", fixed ["color1", "color2", "weight"] mix),
    ("lighten", fixed ["color", "amount"] lighten),
    ("darken", fixed ["color", "amount"] darken),
    ("saturate", fixed ["color", "amount"] saturate),
    ("desaturate", fixed ["color", "amount"] desaturate),
    ("adjust-hue", fixed ["color", "degrees"] adjustHue),
    ("grayscale", fixed ["color"] grayscale),
    ("complement", fixed ["color"] complement),
    ("invert", fixed ["color", "weight"] invert),
    ("transparentize", fixed ["color", "amount"] transparentize),
    ("fade-out", fixed ["color", "amount"] transparentize),
    ("opacify", fixed ["color", "amount"] opacify),
    ("fade-in", fixed ["color", "amount"] opacify),
    ("percentage", fixed ["number"] percentage),
    ("round", fixed ["number"] (onValue Decimal.round)),
    ("ceil", fixed ["number"] (onValue Decimal.ceil)),
    ("floor", fixed ["number"] (onValue Decimal.floor)),
    ("abs", fixed ["number"] (onValue Float.abs)),
    ("min", ⟨["numbers"], true, extreme .lt⟩),
    ("max", ⟨["numbers"], true, extreme .gt⟩),
    ("unit", fixed ["number"] unit),
    ("unitless", fixed ["number"] unitless),
    ("comparable", fixed ["number1", "number2"] comparable),
    ("length", fixed ["list"] length),
    ("nth", fixed ["list", "n"] nth),
    ("join", fixed ["list1", "list2", "separator"] join),
    ("append", fixed ["list", "val", "separator"] append),
    ("index", fixed ["list", "value"] index),
    ("list-separator", fixed ["list"] listSeparator),
    ("map-get", fixed ["map", "key"] mapGet),
    ("map-merge", fixed ["map1", "map2"] mapMerge),
    ("map-keys", fixed ["map"] mapKeys),
    ("map-values", fixed ["map"] mapValues),
    ("map-has-key", fixed ["map", "key"] mapHasKey),
    ("type-of", fixed ["value"] typeOf),
    ("inspect", fixed ["value"] inspect),
    ("quote", fixed ["string"] quote),
    ("unquote", fixed ["string"] unquote),
    ("str-length", fixed ["string"] strLength),
    ("to-upper-case", fixed ["string"] (onText String.toUpper)),
    ("to-lower-case", fixed ["string"] (onText String.toLower)),
    ("str-index", fixed ["string", "substring"] strIndex),
    ("str-slice", fixed ["string", "start-at", "end-at"] strSlice)
  ]

/-- The function with a name whose underscores have become hyphens. -/
def named? (name : String) : Option Builtin := table.lookup name

end Stylesheet.Builtin
