import Stylesheet.Evaluation.State

/-! Finding the stylesheet that a reference means. A reference that is left to the browser means none. The
stylesheet that imports is the one that an error names. -/

namespace Stylesheet.Evaluation

def failImport {α : Type} (pos : Position) (error : ImportError) : Eval α := do
  throw (.badImport error pos (← get).sheet.path)

/-- Reads the text of a stylesheet that was found. A name that is on the way to the importer already makes a loop. -/
def load (path source : String) (pos : Position) : Eval Sheet := do
  let importer := (← get).sheet
  match Import.loop? importer path with
  | some names => failImport pos (.loop names)
  | none =>
    let indented := Import.isIndented path
    report (.parsing path source.utf8ByteSize indented)
    match Statement.parse source path indented with
    | .ok statements =>
      return { path, source, directory := Import.directoryOf? path, chain := path :: importer.chain, statements }
    | .error error => throw (.malformed error path)

/-- The stylesheet that a reference means among the files; none if the reference is left to the browser. -/
def findSheet (reference : String) (pos : Position) : Eval (Option Sheet) := do
  if Import.isCssReference reference then return none
  else
    let search := (← read).search
    match Import.locate? search (← get).sheet reference with
    | none => failImport pos (.notFound reference)
    | some path =>
      report (.resolved reference path)
      match search.files.read path with
      | .ok source => return some (← load path source pos)
      | .error fault => failImport pos (.unreadable path fault)

/-- The stylesheet that a reference means: as the hook says, or else as the files say. -/
def askHook (reference : String) (pos : Position) : Eval (Option Sheet) := do
  match (← read).search.hook with
  | none => findSheet reference pos
  | some hook =>
    match hook reference (← get).sheet.path with
    | .accepted path source _ =>
      report (.hookAccepted reference path)
      return some (← load path source pos)
    | .failed line column message =>
      failImport (if line = 0 then pos else ⟨line, column⟩) (.hookFailed message)
    | .declined =>
      report (.hookDeclined reference)
      findSheet reference pos

def findImport (reference : String) (pos : Position) : Eval (Option Sheet) := do
  modify fun state =>
    { state with lookups := ⟨reference, pos, state.file, state.sheet, state.functionDepth⟩ :: state.lookups }
  askHook reference pos

def inSheet {α : Type} (sheet : Sheet) (source : Nat) (action : Eval α) : Eval α :=
  during (fun state => { state with sheet, file := sheet.path, source })
    (fun before after => { after with sheet := before.sheet, file := before.file, source := before.source }) action

end Stylesheet.Evaluation
