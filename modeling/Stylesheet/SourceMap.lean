/-! Source maps: for places in a generated text, the places in the sources that they come from. The mappings are
written as differences from one to the next, in a base 64 notation of variable length. -/

namespace Stylesheet

/-- A generated place and the place that it comes from; all numbers count from zero. -/
structure Mapping where
  line : Nat
  column : Nat
  source : Nat
  sourceLine : Nat
  sourceColumn : Nat
  deriving DecidableEq, Repr

namespace SourceMap

def digits : List Char :=
  "ABCDEFGHIJKLMNOPQRSTUVWXYZabcdefghijklmnopqrstuvwxyz0123456789+/".toList

def digit (n : Nat) : Char := digits.getD n 'A'

/-- Digits of five bits, the lowest first; all but the last have the sixth bit set. -/
def encodeNat (n : Nat) : List Char :=
  if n < 32 then [digit n] else digit (n % 32 + 32) :: encodeNat (n / 32)
termination_by n

/-- A signed number; the lowest bit holds the sign. -/
def encodeInt : Int → List Char
  | .ofNat n => encodeNat (2 * n)
  | .negSucc n => encodeNat (2 * (n + 1) + 1)

/-- What the next mapping is written against: the line that the text has reached, whether a mapping stands there
already, and the fields of the last mapping, with the column back at zero on a new line. -/
structure Reached where
  previous : Mapping
  first : Bool

def Reached.start : Reached := ⟨⟨0, 0, 0, 0, 0⟩, true⟩

/-- One mapping behind those that reach `reached`. -/
def encodeNext (reached : Reached) (mapping : Mapping) : List Char :=
  let lines := mapping.line - reached.previous.line
  let column : Int := if lines = 0 then reached.previous.column else 0
  let lead := if lines = 0 then if reached.first then [] else [','] else List.replicate lines ';'
  lead ++ encodeInt (mapping.column - column)
    ++ encodeInt (mapping.source - reached.previous.source)
    ++ encodeInt (mapping.sourceLine - reached.previous.sourceLine)
    ++ encodeInt (mapping.sourceColumn - reached.previous.sourceColumn)

def encodeFrom (reached : Reached) : List Mapping → List Char
  | [] => []
  | mapping :: rest =>
    let line := max reached.previous.line mapping.line
    encodeNext reached mapping ++ encodeFrom ⟨{ mapping with line }, false⟩ rest

/-- Mappings in the order of their generated lines: a semicolon ends each line, and commas stand between the
mappings of one line. -/
def encode (mappings : List Mapping) : String := String.ofList (encodeFrom Reached.start mappings)

end SourceMap

structure SourceMap where
  file : String
  sourceRoot : String
  sources : List String
  contents : Option (List String)
  mappings : List Mapping
  deriving Repr

namespace SourceMap

def hexDigit (n : Nat) : Char := Nat.digitChar n

/-- A character in a string of JSON. -/
def escape (c : Char) : List Char :=
  match c with
  | '"' => ['\\', '"']
  | '\\' => ['\\', '\\']
  | '\n' => ['\\', 'n']
  | '\r' => ['\\', 'r']
  | '\t' => ['\\', 't']
  | c =>
    if c.toNat = 8 then ['\\', 'b']
    else if c.toNat = 12 then ['\\', 'f']
    else if c.toNat < 32 then ['\\', 'u', '0', '0', hexDigit (c.toNat / 16), hexDigit (c.toNat % 16)]
    else [c]

def jsonString (s : String) : String := String.ofList ('"' :: s.toList.flatMap escape ++ ['"'])

def jsonList : List String → String
  | [] => "[]"
  | items => "[\n" ++ ",\n".intercalate (items.map fun s => "    " ++ jsonString s) ++ "\n  ]"

/-- The map as JSON, with one field on a line. -/
def json (map : SourceMap) : String :=
  let fields := [("version", "3"), ("file", jsonString map.file), ("sourceRoot", jsonString map.sourceRoot),
      ("sources", jsonList map.sources)]
    ++ (map.contents.toList.map fun contents => ("sourcesContent", jsonList contents))
    ++ [("names", jsonList []), ("mappings", jsonString (encode map.mappings))]
  let lines := fields.map fun (name, value) => "  " ++ jsonString name ++ ": " ++ value
  "\x7b\n" ++ ",\n".intercalate lines ++ "\n\x7d"

/-- Bytes in base 64, with equals signs up to a multiple of four digits. -/
def base64 : List UInt8 → List Char
  | a :: b :: c :: rest =>
    let n := a.toNat * 65536 + b.toNat * 256 + c.toNat
    digit (n / 262144) :: digit (n / 4096 % 64) :: digit (n / 64 % 64) :: digit (n % 64) :: base64 rest
  | [a, b] =>
    let n := a.toNat * 65536 + b.toNat * 256
    [digit (n / 262144), digit (n / 4096 % 64), digit (n / 64 % 64), '=']
  | [a] => [digit (a.toNat / 4), digit (a.toNat * 16 % 64), '=', '=']
  | [] => []

/-- An address that holds a text of JSON itself. -/
def dataUrl (json : String) : String :=
  "data:application/json;base64," ++ String.ofList (base64 json.toUTF8.toList)

end SourceMap

end Stylesheet
