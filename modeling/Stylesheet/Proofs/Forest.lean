import Mathlib.Data.List.Nodup
import Stylesheet.Css.Tree

/-! The forest of a flat tree. A node is held by a block that was made before it, so the forest shows every node, and
none of them twice. -/

namespace Stylesheet.Css.Tree

variable {tree : Tree}

/-- A node that does not stand at the top level is held by a block with a smaller number. -/
def Ordered (tree : Tree) : Prop :=
  ∀ id entry, tree.entries[id]? = some entry → ∀ holder, entry.holder = some holder →
    holder < id ∧ tree.isBlock holder = true

theorem ordered_empty : empty.Ordered := by
  intro id entry found
  simp [empty] at found

theorem isBlock_push {holder : Option Nat} {content depth span} {id : Nat} (present : id < tree.entries.size) :
    (tree.push holder content depth span).2.isBlock id = tree.isBlock id := by
  simp only [push, isBlock, Array.getElem?_push_lt present, Array.getElem?_eq_getElem present]

theorem isBlock_iff {id : Nat} : tree.isBlock id = true ↔
    ∃ entry name parameters, tree.entries[id]? = some entry ∧ entry.content = .block name parameters := by
  cases found : tree.entries[id]? with
  | none => simp [isBlock, found]
  | some entry =>
    simp only [isBlock, found, Option.any_some, Entry.isBlock, Option.some.injEq, exists_and_left, exists_eq_left']
    split
    · next content => simp [content]
    · next other => simpa using other

theorem lt_size_of_isBlock {id : Nat} (block : tree.isBlock id = true) : id < tree.entries.size := by
  obtain ⟨entry, _, _, found, -⟩ := isBlock_iff.1 block
  exact (Array.getElem?_eq_some_iff.1 found).1

theorem Ordered.push (ordered : tree.Ordered) (holder : Option Nat) (content : Content) (depth : Nat) (span : Span) :
    (tree.push holder content depth span).2.Ordered := by
  intro id entry found outer held
  have blocks : tree.isBlock outer = true → (tree.push holder content depth span).2.isBlock outer = true :=
    fun block => by rwa [isBlock_push (lt_size_of_isBlock block)]
  rcases Nat.lt_trichotomy id tree.entries.size with earlier | rfl | later
  · simp only [Tree.push, Array.getElem?_push_lt earlier, ← Array.getElem?_eq_getElem earlier] at found
    obtain ⟨smaller, block⟩ := ordered id entry found outer held
    exact ⟨smaller, blocks block⟩
  · simp only [Tree.push, Array.getElem?_push_size, Option.some.injEq] at found
    subst found
    obtain ⟨-, block⟩ := Option.filter_eq_some_iff.1 held
    exact ⟨lt_size_of_isBlock block, blocks block⟩
  · simp only [Tree.push] at found
    rw [Array.getElem?_eq_none (by simp; omega)] at found
    cases found

theorem entry_pushItem {id target : Nat} {item : Item} {entry : Entry} :
    (tree.pushItem target item).entries[id]? = some entry →
      ∃ old, tree.entries[id]? = some old ∧ entry.holder = old.holder ∧ entry.content = old.content := by
  simp only [pushItem, Array.getElem?_modify]
  cases found : tree.entries[id]? with
  | none => split <;> simp
  | some old =>
    intro changed
    refine ⟨old, rfl, ?_⟩
    split at changed
    · simp only [Option.map_some, Option.some.injEq] at changed
      subst changed
      split <;> exact ⟨rfl, rfl⟩
    · cases changed
      exact ⟨rfl, rfl⟩

theorem isBlock_pushItem (target : Nat) (item : Item) (id : Nat) :
    (tree.pushItem target item).isBlock id = tree.isBlock id := by
  simp only [isBlock, pushItem, Array.getElem?_modify]
  cases tree.entries[id]? with
  | none => split <;> rfl
  | some entry =>
    split
    · simp only [Option.map_some, Option.any_some]
      split <;> rfl
    · rfl

theorem Ordered.pushItem (ordered : tree.Ordered) (target : Nat) (item : Item) :
    (tree.pushItem target item).Ordered := by
  intro id entry found holder held
  obtain ⟨old, present, same, -⟩ := entry_pushItem found
  obtain ⟨smaller, block⟩ := ordered id old present holder (same ▸ held)
  exact ⟨smaller, by rwa [isBlock_pushItem]⟩

theorem Ordered.addSource (ordered : tree.Ordered) (path text : String) : (tree.addSource path text).2.Ordered := by
  unfold Tree.addSource
  split
  · exact ordered
  · exact ordered

theorem mem_heldBy {holder : Option Nat} {id : Nat} :
    id ∈ tree.heldBy holder ↔ ∃ entry, tree.entries[id]? = some entry ∧ entry.holder = holder := by
  simp only [heldBy, List.mem_filter, List.mem_range]
  constructor
  · rintro ⟨-, held⟩
    cases found : tree.entries[id]? with
    | none => simp [found] at held
    | some entry => exact ⟨entry, rfl, by simpa [found] using held⟩
  · rintro ⟨entry, found, rfl⟩
    exact ⟨(Array.getElem?_eq_some_iff.1 found).1, by simp [found]⟩

theorem nodup_heldBy (tree : Tree) (holder : Option Nat) : (tree.heldBy holder).Nodup :=
  List.nodup_range.filter _

/-- The numbers of the nodes that `nodesIn` shows, in the order in which it shows them. -/
def idsIn (tree : Tree) : (steps : Nat) → (holder : Option Nat) → List Nat
  | 0, _ => []
  | steps + 1, holder =>
    (tree.heldBy holder).flatMap fun id => id :: if tree.isBlock id then idsIn tree steps (some id) else []

theorem mem_idsIn_succ {steps : Nat} {holder : Option Nat} {id : Nat} :
    id ∈ tree.idsIn (steps + 1) holder ↔
      ∃ top ∈ tree.heldBy holder, id = top ∨ tree.isBlock top = true ∧ id ∈ tree.idsIn steps (some top) := by
  simp only [idsIn, List.mem_flatMap, List.mem_cons]
  refine exists_congr fun top => and_congr_right fun _ => or_congr_right ?_
  split <;> simp_all

/-- A node stands somewhere below another one, or is that node. -/
inductive Below (tree : Tree) (top : Nat) : Nat → Prop
  | self : Below tree top top
  | held {id holder : Nat} {entry : Entry} (outer : Below tree top holder) (found : tree.entries[id]? = some entry)
      (held : entry.holder = some holder) : Below tree top id

theorem Below.le (ordered : tree.Ordered) {top id : Nat} (below : tree.Below top id) : top ≤ id := by
  induction below with
  | self => exact Nat.le_refl _
  | held _ found held smaller => exact Nat.le_trans smaller (Nat.le_of_lt (ordered _ _ found _ held).1)

theorem Below.trans {top middle id : Nat} (first : tree.Below top middle) (second : tree.Below middle id) :
    tree.Below top id := by
  induction second with
  | self => exact first
  | held _ found held outer => exact .held outer found held

/-- The nodes above a node form a chain. -/
theorem Below.total {left right id : Nat} (first : tree.Below left id) (second : tree.Below right id) :
    tree.Below left right ∨ tree.Below right left := by
  induction first with
  | self => exact .inr second
  | held outer found held comparable =>
    cases second with
    | self => exact .inl (.held outer found held)
    | held outer' found' held' =>
      cases found.symm.trans found'
      cases held.symm.trans held'
      exact comparable outer'

theorem Below.eq_of_heldBy (ordered : tree.Ordered) {holder : Option Nat} {left right : Nat}
    (first : left ∈ tree.heldBy holder) (second : right ∈ tree.heldBy holder) (below : tree.Below left right) :
    left = right := by
  cases below with
  | self => rfl
  | held outer found held =>
    obtain ⟨entry, present, rfl⟩ := mem_heldBy.1 first
    obtain ⟨entry', present', same⟩ := mem_heldBy.1 second
    cases found.symm.trans present'
    have smaller := (ordered _ _ present _ (same ▸ held)).1
    have := outer.le ordered
    omega

theorem Below.present {top id : Nat} (below : tree.Below top id) (present : top < tree.entries.size) :
    id < tree.entries.size := by
  cases below with
  | self => exact present
  | held _ found _ => exact (Array.getElem?_eq_some_iff.1 found).1

/-- A node stands behind another one in the same block, or at the top level. -/
def Later (tree : Tree) (left right : Nat) : Prop :=
  left < right ∧ ∃ first second, tree.entries[left]? = some first ∧ tree.entries[right]? = some second ∧
    second.holder = first.holder

section Later

variable {left right top id : Nat}

theorem Later.present (later : tree.Later left right) : left < tree.entries.size := by
  obtain ⟨-, first, -, found, -⟩ := later
  exact (Array.getElem?_eq_some_iff.1 found).1

theorem Later.together (later : tree.Later left right) :
    ∃ holder, left ∈ tree.heldBy holder ∧ right ∈ tree.heldBy holder := by
  obtain ⟨-, first, second, found, found', same⟩ := later
  exact ⟨first.holder, mem_heldBy.2 ⟨first, found, rfl⟩, mem_heldBy.2 ⟨second, found', same⟩⟩

/-- Nodes of one block hold nothing together. -/
theorem Later.disjoint (ordered : tree.Ordered) (later : tree.Later left right) (first : tree.Below left id)
    (second : tree.Below right id) : False := by
  obtain ⟨holder, one, two⟩ := later.together
  have less := later.1
  rcases first.total second with below | below
  · have := below.eq_of_heldBy ordered one two
    omega
  · have := below.eq_of_heldBy ordered two one
    omega

/-- What holds one node holds the others of the block, too. -/
theorem Below.beside {holder : Option Nat} (here : left ∈ tree.heldBy holder) (there : right ∈ tree.heldBy holder)
    (below : tree.Below top left) (other : top ≠ left) : tree.Below top right := by
  obtain ⟨first, found, rfl⟩ := mem_heldBy.1 here
  obtain ⟨second, found', same⟩ := mem_heldBy.1 there
  cases below with
  | self => exact absurd rfl other
  | held outer present held =>
    cases found.symm.trans present
    exact .held outer found' (same.trans held)

end Later

theorem below_of_mem_idsIn {steps : Nat} {holder : Option Nat} {id : Nat} (shown : id ∈ tree.idsIn steps holder) :
    ∃ top ∈ tree.heldBy holder, tree.Below top id := by
  induction steps generalizing holder with
  | zero => simp [idsIn] at shown
  | succ steps deeper =>
    obtain ⟨top, member, rfl | ⟨-, inner⟩⟩ := mem_idsIn_succ.1 shown
    · exact ⟨id, member, .self⟩
    · obtain ⟨next, held, below⟩ := deeper inner
      obtain ⟨entry, found, same⟩ := mem_heldBy.1 held
      exact ⟨top, member, (Below.held .self found same).trans below⟩

/-- What is shown for one held node stands below it. -/
theorem below_of_mem_shown {steps top id : Nat}
    (shown : id ∈ top :: if tree.isBlock top then tree.idsIn steps (some top) else []) : tree.Below top id := by
  rcases List.mem_cons.1 shown with rfl | inner
  · exact .self
  · split at inner
    · obtain ⟨next, held, below⟩ := below_of_mem_idsIn inner
      obtain ⟨entry, found, same⟩ := mem_heldBy.1 held
      exact (Below.held .self found same).trans below
    · cases inner

theorem nodup_idsIn (ordered : tree.Ordered) (steps : Nat) (holder : Option Nat) :
    (tree.idsIn steps holder).Nodup := by
  induction steps generalizing holder with
  | zero => exact List.nodup_nil
  | succ steps deeper =>
    -- No node stands below two that are held together.
    refine List.nodup_flatMap.2 ⟨fun top member => List.nodup_cons.2 ⟨?_, ?_⟩, ?_⟩
    · split
      · intro shown
        obtain ⟨next, held, below⟩ := below_of_mem_idsIn shown
        obtain ⟨entry, found, same⟩ := mem_heldBy.1 held
        have := (ordered _ _ found _ same).1
        have := below.le ordered
        omega
      · exact List.not_mem_nil
    · split
      · exact deeper _
      · exact List.nodup_nil
    · refine (tree.nodup_heldBy holder).imp_of_mem ?_
      intro left right first second different id shownLeft shownRight
      rcases (below_of_mem_shown shownLeft).total (below_of_mem_shown shownRight) with above | above
      · exact different (above.eq_of_heldBy ordered first second)
      · exact different (above.eq_of_heldBy ordered second first).symm

theorem mem_idsIn_of_holder (ordered : tree.Ordered) {steps outer id : Nat} {holder : Option Nat} {entry : Entry}
    (shown : outer ∈ tree.idsIn steps holder) (found : tree.entries[id]? = some entry)
    (held : entry.holder = some outer) : id ∈ tree.idsIn (steps + 1) holder := by
  induction steps generalizing holder with
  | zero => simp [idsIn] at shown
  | succ steps deeper =>
    obtain ⟨top, member, rfl | ⟨block, inner⟩⟩ := mem_idsIn_succ.1 shown
    · have direct : id ∈ tree.idsIn (steps + 1) (some outer) :=
        mem_idsIn_succ.2 ⟨id, mem_heldBy.2 ⟨entry, found, held⟩, .inl rfl⟩
      exact mem_idsIn_succ.2 ⟨outer, member, .inr ⟨(ordered _ _ found _ held).2, direct⟩⟩
    · exact mem_idsIn_succ.2 ⟨top, member, .inr ⟨block, deeper inner⟩⟩

theorem mem_idsIn (ordered : tree.Ordered) {steps id : Nat} (present : id < tree.entries.size)
    (enough : id < steps) : id ∈ tree.idsIn steps none := by
  induction id using Nat.strongRecOn generalizing steps with
  | ind id earlier =>
    cases steps with
    | zero => cases enough
    | succ steps =>
      have found := Array.getElem?_eq_getElem present
      cases held : tree.entries[id].holder with
      | none => exact mem_idsIn_succ.2 ⟨id, mem_heldBy.2 ⟨_, found, held⟩, .inl rfl⟩
      | some outer =>
        have smaller := (ordered _ _ found _ held).1
        exact mem_idsIn_of_holder ordered (earlier outer smaller (by omega) (by omega)) found held

/-- The forest shows every node exactly once. -/
theorem idsIn_perm_range (ordered : tree.Ordered) :
    (tree.idsIn (tree.entries.size + 1) none).Perm (List.range tree.entries.size) := by
  refine (List.perm_ext_iff_of_nodup (nodup_idsIn ordered _ _) List.nodup_range).2 fun id => ?_
  rw [List.mem_range]
  constructor
  · intro shown
    obtain ⟨top, member, below⟩ := below_of_mem_idsIn shown
    cases below with
    | self =>
      obtain ⟨entry, found, -⟩ := mem_heldBy.1 member
      exact (Array.getElem?_eq_some_iff.1 found).1
    | held _ found _ => exact (Array.getElem?_eq_some_iff.1 found).1
  · exact fun present => mem_idsIn ordered present (by omega)

end Stylesheet.Css.Tree
