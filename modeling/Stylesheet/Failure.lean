import Stylesheet.Builtin.Arguments
import Stylesheet.Import
import Stylesheet.Selector

/-! Why a compilation fails. Failures of a stylesheet carry the place that they were found at and the name of the
file; those of reading the first file have no place. -/

namespace Stylesheet

inductive EvalError where
  | nesting (error : NestingError)
  | operation (error : OperationError)
  | builtin (error : BuiltinError)
  | undefinedVariable (name : String)
  | undefinedMixin (name : String)
  | resultOutsideFunction
  | unsupported (directive : String)
  /-- A function holds a statement that would write CSS. -/
  | outputInFunction
  | propertyOutsideRule
  | notInteger (shown : String)
  /-- The stylesheet raised an error itself. -/
  | raised (message : String)
  | nameRequired (function : String)
  | tooManyArguments (allowed passed : Nat)
  | unknownArgument (name : String)
  | missingArgument (name : String)
  | conditionArguments
  | noResult (function : String)
  deriving DecidableEq, Repr

def EvalError.message : EvalError → String
  | nesting error => error.message
  | operation error => error.message
  | builtin error => error.message
  | undefinedVariable name => "Undefined variable: \"$" ++ name ++ "\"."
  | undefinedMixin name => "no mixin named " ++ name
  | resultOutsideFunction => "@return may only be used within a function."
  | unsupported directive => "@" ++ directive ++ " is not supported"
  | outputInFunction => "Functions can only contain variable declarations and control directives."
  | propertyOutsideRule =>
    "Properties are only allowed within rules, directives, mixin includes, or other properties."
  | notInteger shown => shown ++ " is not an integer."
  | raised message => message
  | nameRequired function => function ++ "() requires a name string."
  | tooManyArguments allowed passed =>
    "Only " ++ toString allowed ++ " arguments allowed, but " ++ toString passed ++ " were passed."
  | unknownArgument name => "No argument named $" ++ name ++ "."
  | missingArgument name => "Missing argument $" ++ name ++ "."
  | conditionArguments => "if() requires $condition, $if-true and $if-false."
  | noResult function => "Function " ++ function ++ " finished without @return"

inductive Failure where
  | malformed (error : ParseError) (file : String)
  | badImport (error : ImportError) (pos : Position) (file : String)
  | evaluation (error : EvalError) (pos : Position) (file : String)
  | fileNotFound (path : String)
  | unreadable (fault : FileFault)
  /-- The evaluation was cut short because it would not end. -/
  | endless
  deriving DecidableEq, Repr

namespace Failure

/-- What went wrong, in a few words. -/
def text : Failure → String
  | malformed error _ => error.message
  | badImport error _ _ => error.message
  | evaluation error _ _ => error.message
  | fileNotFound path => "File to read not found or unreadable: " ++ path
  | unreadable _ => "I/O error reading stylesheet"
  | endless => "The stylesheet does not come to an end"

def place? : Failure → Option (Position × String)
  | malformed error file => some (error.pos, file)
  | badImport _ pos file => some (pos, file)
  | evaluation _ pos file => some (pos, file)
  | fileNotFound _ | unreadable _ | endless => none

def message (failure : Failure) : String :=
  match failure.place? with
  | some (pos, file) =>
    "Error: " ++ failure.text ++ "\n        on line " ++ toString pos.line ++ ":" ++ toString pos.column
      ++ " of " ++ file
  | none => failure.text

end Failure

end Stylesheet
