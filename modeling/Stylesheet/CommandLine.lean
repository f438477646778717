import Stylesheet.Decimal
import Stylesheet.Log
import Stylesheet.Options

/-! The arguments of the command. An argument that begins with a hyphen names options: a word behind two hyphens, or
letters behind one. What is left over is the input, and so is everything behind two hyphens alone. -/

namespace Stylesheet

namespace CommandLine

/-- Options that have no value. -/
inductive Switch where
  | sourceComments
  | sourceMap
  | embedSourceMap
  | sourceMapContents
  | omitMapComment
  | indented
  | stdin
  | verbose
  | quiet
  | version
  | help
  deriving DecidableEq, Repr

/-- Options that have a value. -/
inductive Setting where
  | output
  | style
  | precision
  | sourceMapRoot
  | indent
  | linefeed
  | includePath
  deriving DecidableEq, Repr

/-- An argument that has been understood. -/
inductive Given where
  | switch (switch : Switch)
  | setting (setting : Setting) (value : String)
  | input (path : String)
  deriving DecidableEq, Repr

/-- Why arguments are refused. -/
inductive UsageError where
  | unknown (option : String)
  | missingValue (setting : Setting)
  | unexpectedValue (switch : Switch)
  | repeated
  | conflict
  | invalidValue (value : String)
  deriving DecidableEq, Repr

abbrev Choice := Switch ⊕ Setting

/-- The option with a name behind two hyphens. -/
def named? (name : String) : Option Choice :=
  match name with
  | "source-comments" => some (.inl .sourceComments)
  | "source-map" => some (.inl .sourceMap)
  | "embed-source-map" => some (.inl .embedSourceMap)
  | "source-map-contents" => some (.inl .sourceMapContents)
  | "omit-map-comment" => some (.inl .omitMapComment)
  | "sass" => some (.inl .indented)
  | "stdin" => some (.inl .stdin)
  | "verbose" => some (.inl .verbose)
  | "quiet" => some (.inl .quiet)
  | "version" => some (.inl .version)
  | "help" => some (.inl .help)
  | "output" => some (.inr .output)
  | "style" => some (.inr .style)
  | "precision" => some (.inr .precision)
  | "source-map-root" => some (.inr .sourceMapRoot)
  | "indent" => some (.inr .indent)
  | "linefeed" => some (.inr .linefeed)
  | "include-path" => some (.inr .includePath)
  | _ => none

/-- The option with a letter behind one hyphen. -/
def lettered? (letter : Char) : Option Choice :=
  match letter with
  | 'l' => some (.inl .sourceComments)
  | 'm' => some (.inl .sourceMap)
  | 'a' => some (.inl .indented)
  | 's' => some (.inl .stdin)
  | 'v' => some (.inl .verbose)
  | 'q' => some (.inl .quiet)
  | 'V' => some (.inl .version)
  | 'h' => some (.inl .help)
  | 'o' => some (.inr .output)
  | 't' => some (.inr .style)
  | 'I' => some (.inr .includePath)
  | _ => none

/-- The letters behind one hyphen. A letter that wants a value takes the rest of the argument for it, with or without
an equals sign before it; if there is no rest, the value is the next argument. -/
def bundle : List Char → Except UsageError (List Given × Option Setting)
  | [] => .ok ([], none)
  | letter :: rest =>
    match lettered? letter with
    | none => .error (.unknown (String.singleton letter))
    | some (.inl switch) => (bundle rest).map fun (given, awaited) => (.switch switch :: given, awaited)
    | some (.inr setting) =>
      match rest with
      | [] => .ok ([], some setting)
      | '=' :: value => .ok ([.setting setting (String.ofList value)], none)
      | value => .ok ([.setting setting (String.ofList value)], none)

/-- A word behind two hyphens, with or without a value behind an equals sign. -/
def word (cs : List Char) : Except UsageError (List Given × Option Setting) :=
  let name := String.ofList (cs.takeWhile (· != '='))
  match named? name, cs.dropWhile (· != '=') with
  | none, _ => .error (.unknown name)
  | some (.inl switch), [] => .ok ([.switch switch], none)
  | some (.inl switch), _ :: _ => .error (.unexpectedValue switch)
  | some (.inr setting), [] => .ok ([], some setting)
  | some (.inr setting), _ :: value => .ok ([.setting setting (String.ofList value)], none)

/-- What an argument that is no value gives, and the setting whose value it leaves to the next one. -/
def argument (text : String) : Except UsageError (List Given × Option Setting) :=
  match text.toList with
  | '-' :: '-' :: name => word name
  | '-' :: letter :: letters => bundle (letter :: letters)
  | _ => .ok ([.input text], none)

/-- Whether an argument names options, and so is no value. -/
def namesOptions (text : String) : Bool :=
  match text.toList with
  | '-' :: _ :: _ => true
  | _ => false

/-- Reads arguments; `awaited` is the setting that the first one is the value of. -/
def read : (awaited : Option Setting) → List String → Except UsageError (List Given)
  | none, [] => .ok []
  | some setting, [] => .error (.missingValue setting)
  | some setting, value :: rest =>
    if namesOptions value then .error (.missingValue setting)
    else (read none rest).map (.setting setting value :: ·)
  | none, text :: rest =>
    if text = "--" then .ok (rest.map .input)
    else
      match argument text with
      | .error error => .error error
      | .ok (given, awaited) => (read awaited rest).map (given ++ ·)

def values (setting : Setting) (given : List Given) : List String :=
  given.filterMap fun
    | .setting other value => if other = setting then some value else none
    | _ => none

def inputs (given : List Given) : List String :=
  given.filterMap fun
    | .input path => some path
    | _ => none

/-- What may be given once. -/
def atMostOne : List String → Except UsageError (Option String)
  | [] => .ok none
  | [value] => .ok (some value)
  | _ => .error .repeated

/-- A path, which must not be empty. -/
def pathValue (value : String) : Except UsageError String :=
  if value.isEmpty then .error (.invalidValue value) else .ok value

/-- A whole number of sixty-four bits. A plus sign may stand before it. -/
def countValue (value : String) : Except UsageError Nat :=
  let digits := match value.toList with
    | '+' :: rest => rest
    | cs => cs
  let n := Decimal.natOfDigits digits
  if digits.isEmpty || !digits.all Char.isDigit || n ≥ Nat.pow 2 64 then .error (.invalidValue value) else .ok n

def styleValue (value : String) : Except UsageError OutputStyle :=
  match OutputStyle.ofName? value with
  | some style => .ok style
  | none => .error (.invalidValue value)

/-- A text in which a backslash and a letter may stand for a line feed, a carriage return or a tab. -/
def unescape : List Char → List Char
  | '\\' :: 'n' :: rest => '\n' :: unescape rest
  | '\\' :: 'r' :: rest => '\r' :: unescape rest
  | '\\' :: 't' :: rest => '\t' :: unescape rest
  | '\\' :: c :: rest => '\\' :: c :: unescape rest
  | c :: rest => c :: unescape rest
  | [] => []

end CommandLine

structure CommandLine where
  input : Option String
  output : Option String
  style : OutputStyle
  precision : Nat
  sourceMapRoot : Option String
  indent : String
  linefeed : String
  includePaths : List String
  switches : List CommandLine.Switch
  deriving Repr

namespace CommandLine

/-- Puts what was given together. Only include paths may be given more than once. -/
def ofGiven (given : List Given) : Except UsageError CommandLine := do
  let switches := given.filterMap fun
    | .switch switch => some switch
    | _ => none
  if !switches.Nodup then throw .repeated
  if switches.contains .verbose && switches.contains .quiet then throw .conflict
  let once (setting : Setting) := atMostOne (values setting given)
  return {
    input := ← (← atMostOne (inputs given)).mapM pathValue
    output := ← (← once .output).mapM pathValue
    style := ← styleValue ((← once .style).getD OutputStyle.nested.name)
    precision := ← countValue ((← once .precision).getD "5")
    sourceMapRoot := ← once .sourceMapRoot
    indent := (← once .indent).getD "  "
    linefeed := (← once .linefeed).getD "\\n"
    includePaths := ← (values .includePath given).mapM pathValue
    switches }

def parse (arguments : List String) : Except UsageError CommandLine := do
  ofGiven (← read none arguments)

variable (line : CommandLine)

def has (switch : Switch) : Bool := line.switches.contains switch

def options : Options :=
  { style := line.style
    precision := line.precision
    sourceComments := line.has .sourceComments
    sourceMap := line.has .sourceMap || line.has .embedSourceMap
    embedSourceMap := line.has .embedSourceMap
    sourceMapContents := line.has .sourceMapContents
    omitSourceMapUrl := line.has .omitMapComment
    indented := line.has .indented
    indent := String.ofList (unescape line.indent.toList)
    linefeed := String.ofList (unescape line.linefeed.toList)
    outputFile := line.output
    includePaths := line.includePaths
    sourceMapRoot := line.sourceMapRoot }

/-- The file that is compiled; none if the stylesheet comes from standard input. -/
def inputFile : Option String := if line.has .stdin then none else line.input

/-- Whether an event is shown: warnings are, unless the command is quiet, and more only if it is verbose. -/
def shows (level : LogLevel) : Bool :=
  if line.has .verbose then level.rank ≤ LogLevel.debug.rank
  else !line.has .quiet && level.rank ≤ LogLevel.warn.rank

end CommandLine

end Stylesheet
