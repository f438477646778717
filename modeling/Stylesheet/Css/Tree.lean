import Stylesheet.Selector
import Stylesheet.Token
import Stylesheet.Value

/-! The flat style sheet that evaluation builds. Rules hold no rules any more; only the blocks of directives hold
other nodes. Nodes are numbered in the order in which they are made, and each names the block that holds it, so
a node's holder always has a smaller number than the node. -/

namespace Stylesheet.Css

/-- The place in a source that an output comes from; `source` is a number into the sources of the tree. -/
structure Span where
  source : Nat
  pos : Position
  deriving DecidableEq, Repr

structure Declaration where
  property : String
  value : Value
  important : Bool
  span : Span
  deriving Repr

inductive Item where
  | declaration (declaration : Declaration)
  | comment (comment : Comment)
  deriving Repr

inductive Content where
  | rule (selectors : Selectors)
  /-- A directive with a block, such as `@media`. -/
  | block (name parameters : String)
  /-- A directive without a block, such as `@import`. -/
  | directive (name parameters : String)
  | comment (comment : Comment)
  deriving Repr

/-- A node of the tree. `depth` is the depth of nesting in the source. -/
structure Entry where
  content : Content
  items : List Item
  depth : Nat
  span : Span
  /-- The block that holds the node, if it is not at the top level. -/
  holder : Option Nat
  deriving Repr

def Entry.isBlock (entry : Entry) : Bool :=
  match entry.content with
  | .block _ _ => true
  | _ => false

def Entry.takesItems (entry : Entry) : Bool :=
  match entry.content with
  | .rule _ | .block _ _ => true
  | _ => false

structure Source where
  path : String
  text : String
  deriving DecidableEq, Repr

structure Tree where
  entries : Array Entry
  sources : List Source
  deriving Repr, Inhabited

namespace Tree

def empty : Tree := ⟨#[], []⟩

def sourceIndex? (tree : Tree) (path : String) : Option Nat := tree.sources.findIdx? (·.path == path)

/-- Adds a source, unless there is one of that name, and gives its number. -/
def addSource (tree : Tree) (path text : String) : Nat × Tree :=
  match tree.sourceIndex? path with
  | some index => (index, tree)
  | none => (tree.sources.length, { tree with sources := tree.sources ++ [⟨path, text⟩] })

def isBlock (tree : Tree) (id : Nat) : Bool := tree.entries[id]?.any Entry.isBlock

/-- Adds a node to a block, or to the top level, and gives its number. The block is looked up among the nodes that are
there before: under the number that it is about to get, a node goes to the top level and does not become its own child.
A number is not known before it is given, so nothing is pushed like that. -/
def push (tree : Tree) (holder : Option Nat) (content : Content) (depth : Nat) (span : Span) : Nat × Tree :=
  let entry : Entry := { content, items := [], depth, span, holder := holder.filter tree.isBlock }
  (tree.entries.size, { tree with entries := tree.entries.push entry })

def pushItem (tree : Tree) (id : Nat) (item : Item) : Tree :=
  { tree with entries := tree.entries.modify id fun entry =>
      if entry.takesItems then { entry with items := entry.items ++ [item] } else entry }

/-- The nodes that a block, or the top level, holds, in the order in which they were made. -/
def heldBy (tree : Tree) (holder : Option Nat) : List Nat :=
  (List.range tree.entries.size).filter fun id => tree.entries[id]?.any (·.holder == holder)

end Tree

/-- A node with all that it holds. -/
inductive Node where
  | node (entry : Entry) (children : List Node)
  deriving Repr

def Node.entry : Node → Entry
  | .node entry _ => entry

namespace Tree

/-- The nodes held by `holder` with all that they hold. A held node has a greater number than its holder, so
`steps` need not exceed the number of nodes. -/
def nodesIn (tree : Tree) : (steps : Nat) → (holder : Option Nat) → List Node
  | 0, _ => []
  | steps + 1, holder =>
    (tree.heldBy holder).filterMap fun id =>
      tree.entries[id]?.map fun entry => .node entry (if entry.isBlock then nodesIn tree steps (some id) else [])

/-- The nodes at the top level with all that they hold. -/
def forest (tree : Tree) : List Node := tree.nodesIn (tree.entries.size + 1) none

end Tree

end Stylesheet.Css
