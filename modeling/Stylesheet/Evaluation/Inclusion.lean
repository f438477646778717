import Stylesheet.Evaluation.Import
import Stylesheet.Evaluation.Output

/-! Statements that run what is written elsewhere: mixins, the blocks handed to them, and other stylesheets. -/

namespace Stylesheet.Evaluation.Evaluator

variable (self : Evaluator)

/-- Runs an action as a part of a mixin to which a block was handed, or none. -/
def withContent {α : Type} (block : Option ContentBlock) (action : Eval α) : Eval α := do
  modify fun state => { state with content := block :: state.content }
  andThen action fun state => { state with content := state.content.tail }

def inclusion (name : String) (arguments : Arguments Expr) (content : Option (List Statement)) (pos : Position) :
    Eval Unit := do
  let state ← get
  match state.scopes.mixin? state.place.scope name with
  | none => fail pos (.undefinedMixin name)
  | some mixin =>
    report (.inclusion name)
    let scope ← self.bindArguments mixin arguments pos
    let block := content.map fun body => { body, scope := state.place.scope, file := state.file }
    withContent block (inScope scope (inFile mixin.callable.file (self.run mixin.callable.body)))

/-- Runs the block handed to the mixin. While it runs, the mixin around it is the current one again. -/
def content : Eval Unit := do
  match (← get).content with
  | some block :: outer =>
    modify fun state => { state with content := outer }
    let scope ← newScope block.scope false
    andThen (inScope scope (inFile block.file (self.run block.body)))
      fun state => { state with content := some block :: state.content }
  | _ => return ()

def runSheet (sheet : Sheet) : Eval Unit := do
  report (.importing sheet.path)
  let source ← modifyGet fun state =>
    let (source, tree) := state.tree.addSource sheet.path sheet.source
    (source, { state with tree, imported := sheet.path :: state.imported })
  inSheet sheet source (self.run sheet.statements)

def writeImport (parameters : String) (pos : Position) : Eval Unit := do
  let _ ← push (← get).place.container (.directive "import" parameters) pos

def importTarget (pos : Position) : ImportTarget → Eval Unit
  | .css text => do writeImport (← self.text text) pos
  | .sheet reference place => do
    match ← findImport reference place with
    | some sheet => self.runSheet sheet
    | none => writeImport ("\"" ++ reference ++ "\"") pos

def imports (pos : Position) : List ImportTarget → Eval Unit
  | [] => return ()
  | target :: rest => do
    self.importTarget pos target
    imports pos rest

end Stylesheet.Evaluation.Evaluator
