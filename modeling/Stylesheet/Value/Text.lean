import Stylesheet.Value

/-! The texts of a value: as CSS, as it is inspected, and as an interpolation writes it. -/

namespace Stylesheet

/-- Why an operation on values has no result. -/
inductive OperationError where
  /-- The value, shown here, cannot be written in CSS. -/
  | notCss (shown : String)
  | units (mismatch : UnitMismatch)
  | undefined (left symbol right : String)
  | alphas (left symbol right : String)
  | nullOperand (left right : String)
  /-- An operand is a failure itself. -/
  | raised (message : String)
  deriving DecidableEq, Repr

def OperationError.message : OperationError → String
  | .notCss shown => shown ++ " isn't a valid CSS value."
  | .units mismatch => mismatch.message
  | .undefined left symbol right => "Undefined operation: \"" ++ left ++ " " ++ symbol ++ " " ++ right ++ "\"."
  | .alphas left symbol right => "Alpha channels must be equal: " ++ left ++ " " ++ symbol ++ " " ++ right
  | .nullOperand left right => "Invalid null operation: \"" ++ left ++ " plus " ++ right ++ "\"."
  | .raised message => message

namespace Value

/-- A text between quotes: escapes stay as they are, and the quote itself is escaped. -/
def escapeQuote (quote : Char) : List Char → List Char
  | '\\' :: c :: rest => '\\' :: c :: escapeQuote quote rest
  | c :: rest => if c = quote then '\\' :: c :: escapeQuote quote rest else c :: escapeQuote quote rest
  | [] => []

/-- A double quote, unless the text holds such quotes and no single ones. -/
def quoteFor (text : List Char) : Char := if text.contains '"' && !text.contains '\'' then '\'' else '"'

def quotedText (text : String) : String :=
  let quote := quoteFor text.toList
  String.ofList (quote :: escapeQuote quote text.toList ++ [quote])

def stringText (text : String) (quoted : Bool) : String := if quoted then quotedText text else text

def bracket (bracketed : Bool) (text : String) : String := if bracketed then "[" ++ text ++ "]" else text

/-- Whether a list needs parentheses inside another one. -/
def needsParens : Value → Bool
  | list (_ :: _ :: _) .comma false => true
  | _ => false

/-- A number whose unit is more than one name has no place in CSS. -/
def numberCss (places : Nat) (compressed : Bool) (n : Number) : Except OperationError String :=
  let text := n.text places compressed
  if n.unit.single?.isNone && !n.isUnitless then .error (.notCss text) else .ok text

mutual

/-- The value in CSS, with numbers rounded to `places`. -/
def css (places : Nat) (compressed : Bool) : Value → Except OperationError String
  | null => .ok ""
  | bool b => .ok (if b then "true" else "false")
  | number n => numberCss places compressed n
  | color c => .ok (c.text places compressed)
  | string text quoted => .ok (stringText text quoted)
  | list items separator bracketed =>
    if items.isEmpty && !bracketed then .error (.notCss "()")
    else
      (cssItems places compressed items).map fun parts =>
        bracket bracketed ((separator.text compressed).intercalate parts)
  | map entries => .error (.notCss ("(" ++ ", ".intercalate (inspectEntries places entries) ++ ")"))
  | error message | warning message => .ok message

/-- The texts of the items that have one: what is null or empty is left out. -/
def cssItems (places : Nat) (compressed : Bool) : List Value → Except OperationError (List String)
  | [] => .ok []
  | item :: rest =>
    match css places compressed item with
    | .error failure => .error failure
    | .ok text => (cssItems places compressed rest).map fun parts => if text.isEmpty then parts else text :: parts

/-- The value as messages show it. -/
def inspect (places : Nat) : Value → String
  | null => "null"
  | bool b => if b then "true" else "false"
  | number n => n.text places false
  | color c => c.text places false
  | string text quoted => stringText text quoted
  | list [] _ bracketed => if bracketed then "[]" else "()"
  | list (item :: rest) separator bracketed =>
    bracket bracketed ((separator.text false).intercalate (inspectItems places (item :: rest)))
  | map entries => "(" ++ ", ".intercalate (inspectEntries places entries) ++ ")"
  | error message | warning message => message

def inspectItems (places : Nat) : List Value → List String
  | [] => []
  | item :: rest =>
    let text := inspect places item
    (if item.needsParens then "(" ++ text ++ ")" else text) :: inspectItems places rest

def inspectEntries (places : Nat) : List (Value × Value) → List String
  | [] => []
  | (key, value) :: rest => (inspect places key ++ ": " ++ inspect places value) :: inspectEntries places rest

end

/-- The value in CSS, or as messages show it if CSS has no place for it. -/
def cssOrInspect (places : Nat) (value : Value) : String :=
  match css places false value with
  | .ok text => text
  | .error _ => inspect places value

mutual

/-- The text that an interpolation of the value writes: strings without quotes, and nothing for null. -/
def interpolated (places : Nat) : Value → String
  | null => ""
  | string text _ => text
  | list (item :: rest) separator _ =>
    (separator.text false).intercalate (interpolatedItems places (item :: rest))
  | other => cssOrInspect places other

def interpolatedItems (places : Nat) : List Value → List String
  | [] => []
  | item :: rest =>
    if item.isNull then interpolatedItems places rest
    else interpolated places item :: interpolatedItems places rest

end

end Value

end Stylesheet
