import Stylesheet.Builtin.Table
import Stylesheet.Evaluation.State

/-! Calls. A name stands for a function of the stylesheet first, then for one that is built in, and if it is neither,
the call is CSS and is written as it stands. -/

namespace Stylesheet.Evaluation.Evaluator

variable (self : Evaluator)

def positional (arguments : Arguments Expr) : Eval (List Value) := do
  let values ← arguments.positional.mapM self.eval
  match arguments.rest with
  | some rest => return values ++ (← self.eval rest).items
  | none => return values

def keywords (arguments : List (String × Expr)) : Eval (List (String × Value)) :=
  arguments.mapM fun (name, expr) => return (normalizeName name, ← self.eval expr)

/-- The entries of a map as arguments that go by name. -/
def keywordsOfMap (places : Nat) (entries : List (Value × Value)) : List (String × Value) :=
  entries.map fun (key, value) =>
    let name := match key with
      | .string text _ => text
      | other => other.inspect places
    (normalizeName name, value)

def allArguments (arguments : Arguments Expr) : Eval (List Value × List (String × Value)) := do
  let values ← arguments.positional.mapM self.eval
  let named ← self.keywords arguments.keyword
  match arguments.rest with
  | none => return (values, named)
  | some rest =>
    match ← self.eval rest with
    | .map entries => return (values, named ++ keywordsOfMap (← read).places entries)
    | other => return (values ++ other.items, named)

/-- Binds parameters in a scope: by position, by name, or to the default, which sees the parameters before it. Gives
the arguments that are left over. -/
def bindParameters (scope : Nat) (pos : Position) :
    List Parameter → List Value → List (String × Value) → Eval (List Value × List (String × Value))
  | [], values, named => return (values, named)
  | parameter :: rest, value :: values, named => do
    declare scope parameter.name value
    bindParameters scope pos rest values named
  | parameter :: rest, [], named => do
    let name := normalizeName parameter.name
    match named.lookup name, parameter.default with
    | some value, _ =>
      declare scope parameter.name value
      bindParameters scope pos rest [] (named.eraseP (·.1 == name))
    | none, some default =>
      let value ← inScope scope (self.eval default)
      declare scope parameter.name value
      bindParameters scope pos rest [] named
    | none, none => fail pos (.missingArgument parameter.name)

/-- Binds the arguments that are left over, if anything takes them. -/
def bindRest (rest : Option String) (scope : Nat) (pos : Position) (values : List Value)
    (named : List (String × Value)) : Eval Unit :=
  match rest, named with
  | some rest, _ => declare scope rest (.list values .comma false)
  | none, (name, _) :: _ => fail pos (.unknownArgument name)
  | none, [] => return ()

def parameterScope (closure : Closure) (pos : Position) (values : List Value) (named : List (String × Value)) :
    Eval Nat := do
  let scope ← newScope closure.scope false
  let (values, named) ← self.bindParameters scope pos closure.callable.parameters values named
  bindRest closure.callable.rest scope pos values named
  return scope

/-- Makes the scope in which the body of a mixin or a function runs. -/
def bindArguments (closure : Closure) (arguments : Arguments Expr) (pos : Position) : Eval Nat := do
  let callable := closure.callable
  let (values, named) ← self.allArguments arguments
  if callable.rest.isNone && values.length > callable.parameters.length then
    fail pos (.tooManyArguments callable.parameters.length values.length)
  self.parameterScope closure pos values named

/-- The result of a function: a failure is raised, and a warning is given and leaves nothing. -/
def checkResult (value : Value) (pos : Position) : Eval Value := do
  match value with
  | .error message => fail pos (.raised message)
  | .warning message =>
    report (.warning message pos.line (← get).file)
    return .null
  | other => return other

def inFunction {α : Type} (action : Eval α) : Eval α :=
  during (fun state => { state with functionDepth := state.functionDepth + 1 })
    (fun before after => { after with functionDepth := before.functionDepth }) action

def callFunction (function : Closure) (arguments : Arguments Expr) (pos : Position) : Eval Value := do
  let callable := function.callable
  report (.call callable.name)
  let scope ← self.bindArguments function arguments pos
  match ← inScope scope (inFile callable.file (inFunction (self.block callable.body))) with
  | some value => checkResult value pos
  | none => fail pos (.noResult callable.name)

/-- The three parts of a condition, which are no values yet: only one of the last two is evaluated. -/
structure Condition where
  condition : Option Expr
  ifTrue : Option Expr
  ifFalse : Option Expr

def Condition.set? (parts : Condition) (name : String) (expr : Expr) : Option Condition :=
  match name with
  | "condition" => some { parts with condition := some expr }
  | "if-true" => some { parts with ifTrue := some expr }
  | "if-false" => some { parts with ifFalse := some expr }
  | _ => none

def Condition.ofPositional (exprs : List Expr) : Condition := ⟨exprs[0]?, exprs[1]?, exprs[2]?⟩

/-- Chooses between two expressions. -/
def callIf (arguments : Arguments Expr) (pos : Position) : Eval Value := do
  let parts ← arguments.keyword.foldlM (fun (parts : Condition) (name, expr) =>
    match parts.set? (normalizeName name) expr with
    | some parts => pure parts
    | none => fail pos (.unknownArgument (normalizeName name))) (Condition.ofPositional arguments.positional)
  match parts with
  | ⟨some condition, some ifTrue, some ifFalse⟩ =>
    if (← self.eval condition).isTruthy then self.eval ifTrue else self.eval ifFalse
  | _ => fail pos .conditionArguments

/-- Whether something has a name, for each of the functions that ask for it. -/
def nameQuery? (function : String) : Option (State → String → Bool) :=
  match function with
  | "variable-exists" => some fun state name => (state.scopes.valueOf? state.place.scope name).isSome
  | "global-variable-exists" => some fun state name => state.scopes.binds Scopes.globalId name
  | "function-exists" => some fun state name =>
    (state.scopes.function? state.place.scope name).isSome || (Builtin.named? (normalizeName name)).isSome
  | "mixin-exists" => some fun state name => (state.scopes.mixin? state.place.scope name).isSome
  | _ => none

def callNameQuery (function : String) (query : State → String → Bool) (arguments : Arguments Expr)
    (pos : Position) : Eval Value := do
  match ← self.positional arguments with
  | .string name _ :: _ => return .bool (query (← get) name)
  | _ => fail pos (.nameRequired function)

/-- The value of a variadic parameter: one argument stays what it is, so that a list may be given in its place. -/
def collect : List Value → Value
  | [value] => value
  | values => .list values .comma false

/-- The values of the parameters of a built-in function, as far as they go by position. -/
def slots (builtin : Builtin) (values : List Value) : List (Option Value) :=
  let fixed := builtin.parameters.length - (if builtin.variadic then 1 else 0)
  (List.range fixed).map (values[·]?) ++ (if builtin.variadic then [some (collect (values.drop fixed))] else [])

def fillByName (builtin : Builtin) (pos : Position) :
    List (String × Expr) → List (Option Value) → Eval (List (Option Value))
  | [], slots => return slots
  | (name, expr) :: rest, slots => do
    match builtin.parameters.idxOf? (normalizeName name) with
    | some i =>
      let value ← self.eval expr
      fillByName builtin pos rest (slots.set i (some value))
    | none => fail pos (.unknownArgument (normalizeName name))

def runBuiltin (builtin : Builtin) (pos : Position) (values : List (Option Value)) : Eval Value := do
  match builtin.run { parameters := builtin.parameters, values, places := (← read).places } with
  | .ok value => checkResult value pos
  | .error error => fail pos (.builtin error)

def callBuiltin (builtin : Builtin) (arguments : Arguments Expr) (pos : Position) : Eval Value := do
  let values ← self.positional arguments
  let count := builtin.parameters.length
  if !builtin.variadic && values.length > count then fail pos (.tooManyArguments count values.length)
  let values ← self.fillByName builtin pos arguments.keyword (slots builtin values)
  runBuiltin builtin pos values

/-- A call that CSS knows, or nobody: it stays a call. -/
def callPlain (name : String) (arguments : Arguments Expr) : Eval Value := do
  let places := (← read).places
  let values ← self.positional arguments
  let named ← arguments.keyword.mapM fun (name, expr) => return (name, ← self.eval expr)
  let parts := values.map (Value.cssOrInspect places)
    ++ named.map fun (name, value) => "$" ++ name ++ ": " ++ value.cssOrInspect places
  return .unquoted (name ++ "(" ++ ", ".intercalate parts ++ ")")

def call (name : String) (arguments : Arguments Expr) (pos : Position) : Eval Value := do
  let state ← get
  match state.scopes.function? state.place.scope name with
  | some function => self.callFunction function arguments pos
  | none =>
    let key := normalizeName name
    if key = "if" then self.callIf arguments pos
    else
      match nameQuery? key, Builtin.named? key with
      | some query, _ => self.callNameQuery key query arguments pos
      | none, some builtin => self.callBuiltin builtin arguments pos
      | none, none => self.callPlain name arguments

end Stylesheet.Evaluation.Evaluator
