import Stylesheet.Statement

/-! Scopes of variables, mixins and functions. Scopes are numbered in the order in which they are made; the scope
around one has a smaller number, and the global scope has the number zero. Names are the same whether they are
written with hyphens or with underscores. -/

namespace Stylesheet

/-- The form in which names are compared. -/
def normalizeName (name : String) : String := name.map fun c => if c = '_' then '-' else c

/-- Names and what they stand for; each name occurs once. -/
abbrev Bindings (α : Type) := List (String × α)

/-- Lets a name stand for something, in the place of what it stood for before. -/
def Bindings.set {α : Type} (name : String) (value : α) : Bindings α → Bindings α
  | [] => [(name, value)]
  | (name', value') :: rest =>
    if name' = name then (name, value) :: rest else (name', value') :: Bindings.set name value rest

/-- A mixin or a function together with the scope in which it was defined. -/
structure Closure where
  callable : Callable Statement
  scope : Nat
  deriving Repr

structure Scope where
  values : Bindings Value
  mixins : Bindings Closure
  functions : Bindings Closure
  parent : Option Nat
  /-- The scope of a block that control directives run. At the top level an assignment in it reaches the global
  scope. -/
  semiGlobal : Bool
  deriving Repr, Inhabited

def Scope.empty (parent : Option Nat) (semiGlobal : Bool) : Scope := ⟨[], [], [], parent, semiGlobal⟩

abbrev Scopes := Array Scope

namespace Scopes

def start : Scopes := #[Scope.empty none false]

def globalId : Nat := 0

/-- Makes a scope inside another one, and gives its number. -/
def child (scopes : Scopes) (parent : Nat) (semiGlobal : Bool) : Nat × Scopes :=
  (scopes.size, scopes.push (Scope.empty (some parent) semiGlobal))

/-- The numbers of a scope and of those around it, the innermost first. Numbers fall on the way out, so as many
steps as the first number, and one more, are enough. -/
def chainFrom (scopes : Scopes) : (steps : Nat) → Nat → List Nat
  | 0, _ => []
  | steps + 1, id =>
    match scopes[id]? with
    | some scope => id :: (scope.parent.map (chainFrom scopes steps)).getD []
    | none => []

def chain (scopes : Scopes) (id : Nat) : List Nat := chainFrom scopes (id + 1) id

def find? {α : Type} (scopes : Scopes) (id : Nat) (look : Scope → Option α) : Option α :=
  (scopes.chain id).findSome? fun id => scopes[id]?.bind look

def valueOf? (scopes : Scopes) (id : Nat) (name : String) : Option Value :=
  scopes.find? id fun scope => scope.values.lookup (normalizeName name)

def mixin? (scopes : Scopes) (id : Nat) (name : String) : Option Closure :=
  scopes.find? id fun scope => scope.mixins.lookup (normalizeName name)

def function? (scopes : Scopes) (id : Nat) (name : String) : Option Closure :=
  scopes.find? id fun scope => scope.functions.lookup (normalizeName name)

def binds (scopes : Scopes) (id : Nat) (name : String) : Bool :=
  scopes[id]?.any fun scope => (scope.values.lookup (normalizeName name)).isSome

/-- Binds a variable in exactly this scope. -/
def declare (scopes : Scopes) (id : Nat) (name : String) (value : Value) : Scopes :=
  scopes.modify id fun scope => { scope with values := scope.values.set (normalizeName name) value }

/-- The scope whose variable an assignment changes: the nearest that has it. The global scope counts only if every
scope on the way to it belongs to a control directive. -/
def holder? (scopes : Scopes) (name : String) : (semiGlobal : Bool) → List Nat → Option Nat
  | _, [] => none
  | semiGlobal, id :: rest =>
    match scopes[id]? with
    | none => none
    | some scope =>
      if scope.parent.isNone then if semiGlobal && scopes.binds id name then some id else none
      else if scopes.binds id name then some id
      else holder? scopes name (semiGlobal && scope.semiGlobal) rest

/-- Whether a default is not wanted, because there is a value already. -/
def isSettled : Option Value → Bool
  | some value => !value.isNull
  | none => false

/-- An assignment. A variable that no scope has is bound in the scope of the assignment. -/
def assign (scopes : Scopes) (id : Nat) (name : String) (value : Value) (isDefault isGlobal : Bool) : Scopes :=
  if isGlobal then
    let present := scopes[globalId]?.bind fun scope => scope.values.lookup (normalizeName name)
    if isDefault && isSettled present then scopes else scopes.declare globalId name value
  else if isDefault && isSettled (scopes.valueOf? id name) then scopes
  else scopes.declare ((scopes.holder? name true (scopes.chain id)).getD id) name value

def defineMixin (scopes : Scopes) (id : Nat) (closure : Closure) : Scopes :=
  scopes.modify id fun scope =>
    { scope with mixins := scope.mixins.set (normalizeName closure.callable.name) closure }

def defineFunction (scopes : Scopes) (id : Nat) (closure : Closure) : Scopes :=
  scopes.modify id fun scope =>
    { scope with functions := scope.functions.set (normalizeName closure.callable.name) closure }

end Scopes

end Stylesheet
