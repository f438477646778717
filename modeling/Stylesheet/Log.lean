import Stylesheet.Text.Quoted

/-! What a compilation reports while it runs. -/

namespace Stylesheet

inductive LogLevel where
  | warn
  | debug
  | trace
  deriving DecidableEq, Repr

/-- How much is reported at a level: everything up to it. -/
def LogLevel.rank : LogLevel → Nat
  | .warn => 1
  | .debug => 2
  | .trace => 3

def LogLevel.name : LogLevel → String
  | .warn => "WARN"
  | .debug => "DEBUG"
  | .trace => "TRACE"

inductive Stage where
  | created
  | parsing
  | evaluating
  | emitting
  | succeeded
  | failed
  deriving DecidableEq, Repr

def Stage.name : Stage → String
  | .created => "Created"
  | .parsing => "Parsing"
  | .evaluating => "Evaluating"
  | .emitting => "Emitting"
  | .succeeded => "Succeeded"
  | .failed => "Failed"

inductive LogEvent where
  | stage (before after : Stage)
  | failure (message : String)
  | parsing (path : String) (bytes : Nat) (indented : Bool)
  | media (query : String)
  | inclusion (mixin : String)
  | call (function : String)
  | hookDeclined (reference : String)
  | hookAccepted (reference path : String)
  | resolved (reference path : String)
  | importing (path : String)
  /-- A warning of the stylesheet itself. -/
  | warning (text : String) (line : Nat) (file : String)
  /-- A note that the stylesheet wants to be shown. -/
  | note (text : String) (line : Nat) (file : String)
  | compiling (path : String)
  | included (path : String)
  /-- There is a source map, and no file to put it in. -/
  | sourceMapDropped
  deriving DecidableEq, Repr

namespace LogEvent

def level : LogEvent → LogLevel
  | warning _ _ _ | sourceMapDropped => .warn
  | stage _ _ | failure _ | hookAccepted _ _ | resolved _ _ | importing _ | note _ _ _ | compiling _ | included _ =>
    .debug
  | parsing _ _ _ | media _ | inclusion _ | call _ | hookDeclined _ => .trace

def message : LogEvent → String
  | stage before after => "compilation stage " ++ before.name ++ " -> " ++ after.name
  | failure message => "compilation failed: " ++ message
  | parsing path bytes indented =>
    "parsing " ++ path ++ " (" ++ toString bytes ++ " bytes, indented: " ++ toString indented ++ ")"
  | media query => "@media " ++ query
  | inclusion mixin => "@include " ++ mixin
  | call function => "calling function " ++ function
  | hookDeclined reference => "import hook declined " ++ Text.quoted reference
  | hookAccepted reference path => "import hook accepted " ++ Text.quoted reference ++ " as " ++ path
  | resolved reference path => "resolved import " ++ Text.quoted reference ++ " to " ++ path
  | importing path => "importing " ++ path
  | warning text line file => text ++ "\n         on line " ++ toString line ++ " of " ++ file
  | note text line file => file ++ ":" ++ toString line ++ " DEBUG: " ++ text
  | compiling path => "compiling " ++ path
  | included path => "included " ++ path
  | sourceMapDropped => "source map not written: no output file given"

end LogEvent

end Stylesheet
