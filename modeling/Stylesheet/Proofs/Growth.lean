import Stylesheet.Proofs.Readings

/-! How a flat tree grows while it is built. Nodes stay what and where they are, and each new declaration goes behind
those that its node has. -/

namespace Stylesheet.Css.Tree

variable {tree before between after : Tree}

/-- The nodes of a tree are there in another one, with the same contents and holders. -/
def Keeps (before after : Tree) : Prop :=
  ∀ (id : Nat) (entry : Entry), before.entries[id]? = some entry →
    ∃ later : Entry, after.entries[id]? = some later ∧ later.content = entry.content ∧ later.holder = entry.holder

theorem Keeps.refl (tree : Tree) : tree.Keeps tree := fun _ entry found => ⟨entry, found, rfl, rfl⟩

theorem Keeps.trans (first : before.Keeps between) (second : between.Keeps after) : before.Keeps after := by
  intro id entry found
  obtain ⟨middle, present, content, holder⟩ := first id entry found
  obtain ⟨last, present, content', holder'⟩ := second id middle present
  exact ⟨last, present, content'.trans content, holder'.trans holder⟩

theorem Keeps.size_le (keeps : before.Keeps after) : before.entries.size ≤ after.entries.size := by
  cases size : before.entries.size with
  | zero => exact Nat.zero_le _
  | succ last =>
    obtain ⟨later, present, -⟩ := keeps last _ (Array.getElem?_eq_getElem (by omega))
    exact (Array.getElem?_eq_some_iff.1 present).1

theorem Keeps.isBlock (keeps : before.Keeps after) {id : Nat} (block : before.isBlock id = true) :
    after.isBlock id = true := by
  obtain ⟨entry, name, parameters, found, content⟩ := isBlock_iff.1 block
  obtain ⟨later, present, same, -⟩ := keeps id entry found
  exact isBlock_iff.2 ⟨later, name, parameters, present, same.trans content⟩

theorem Keeps.pathIn (keeps : before.Keeps after) (orderedBefore : before.Ordered) (orderedAfter : after.Ordered)
    {id : Nat} (present : id < before.entries.size) : after.pathIn id = before.pathIn id := by
  induction id using Nat.strongRecOn with
  | ind id earlier =>
    have found := Array.getElem?_eq_getElem present
    obtain ⟨later, found', content, holder⟩ := keeps id _ found
    rw [pathIn_eq orderedAfter found', pathIn_eq orderedBefore found, Entry.inner_congr content, holder]
    refine congrArg (Entry.inner · _) ?_
    cases held : before.entries[id].holder with
    | none => rfl
    | some outer =>
      have smaller := (orderedBefore _ _ found _ held).1
      exact earlier outer smaller (by omega)

theorem Keeps.pathTo (keeps : before.Keeps after) (orderedBefore : before.Ordered) (orderedAfter : after.Ordered)
    {holder : Option Nat} (block : ∀ id, holder = some id → before.isBlock id = true) :
    after.pathTo holder = before.pathTo holder := by
  cases holder with
  | none => rfl
  | some id => exact keeps.pathIn orderedBefore orderedAfter (lt_size_of_isBlock (block id rfl))

theorem keeps_push (tree : Tree) (holder : Option Nat) (content : Content) (depth : Nat) (span : Span) :
    tree.Keeps (tree.push holder content depth span).2 := by
  intro id entry found
  obtain ⟨present, rfl⟩ := Array.getElem?_eq_some_iff.1 found
  exact ⟨_, by simp only [push, Array.getElem?_push_lt present], rfl, rfl⟩

theorem keeps_pushItem (tree : Tree) (target : Nat) (item : Item) : tree.Keeps (tree.pushItem target item) := by
  intro id entry found
  simp only [pushItem, Array.getElem?_modify, found]
  split
  · refine ⟨_, rfl, ?_⟩
    dsimp only
    split <;> exact ⟨rfl, rfl⟩
  · exact ⟨entry, rfl, rfl, rfl⟩

theorem entries_addSource (tree : Tree) (path text : String) : (tree.addSource path text).2.entries = tree.entries := by
  unfold addSource
  split <;> rfl

theorem keeps_addSource (tree : Tree) (path text : String) : tree.Keeps (tree.addSource path text).2 :=
  fun _ entry found => ⟨entry, by rwa [entries_addSource], rfl, rfl⟩

/-- A node that is pushed to a block, or to the top level, is there as it was given. -/
theorem getElem?_push_size {holder : Option Nat} {content : Content} {depth : Nat} {span : Span}
    (block : ∀ id, holder = some id → tree.isBlock id = true) :
    (tree.push holder content depth span).2.entries[tree.entries.size]? =
      some { content, items := [], depth, span, holder } := by
  simp only [push, Array.getElem?_push_size, Option.some.injEq]
  cases holder with
  | none => rfl
  | some id => simp [block id rfl]

theorem pathIn_push (ordered : tree.Ordered) {holder : Option Nat} (content : Content) (depth : Nat) (span : Span)
    (block : ∀ id, holder = some id → tree.isBlock id = true) :
    (tree.push holder content depth span).2.pathIn tree.entries.size =
      Entry.inner (tree.pathTo holder) { content, items := [], depth, span, holder } := by
  rw [pathIn_eq (ordered.push _ _ _ _) (getElem?_push_size block),
    (keeps_push _ _ _ _ _).pathTo ordered (ordered.push _ _ _ _) block]

/-- The readings that were placed at a node. -/
def placedAt (id : Nat) (placed : List (Nat × Reading)) : List Reading := (placed.filter (·.1 == id)).map (·.2)

theorem placedAt_append (id : Nat) (first second : List (Nat × Reading)) :
    placedAt id (first ++ second) = placedAt id first ++ placedAt id second := by
  simp [placedAt]

theorem placedAt_sublist (id : Nat) (placed : List (Nat × Reading)) :
    (placedAt id placed).Sublist (placed.map (·.2)) :=
  List.filter_sublist.map _

theorem placedAt_eq_nil {id : Nat} {placed : List (Nat × Reading)} (other : ∀ write ∈ placed, write.1 ≠ id) :
    placedAt id placed = [] := by
  rw [placedAt, List.filter_eq_nil_iff.2 fun write member => by simpa using other write member, List.map_nil]

/-- What is placed at the nodes of a tree, taken together, is what was placed. -/
theorem flatMap_placedAt_perm {size : Nat} {placed : List (Nat × Reading)}
    (present : ∀ write ∈ placed, write.1 < size) :
    ((List.range size).flatMap fun id => placedAt id placed).Perm (placed.map (·.2)) := by
  induction size generalizing placed with
  | zero =>
    cases placed with
    | nil => exact .nil
    | cons write rest => exact absurd (present write List.mem_cons_self) (Nat.not_lt_zero _)
  | succ size smaller =>
    -- The writes to the last node are set apart from the others.
    have others : ∀ id ∈ List.range size,
        placedAt id placed = placedAt id (placed.filter (!·.1 == size)) := by
      intro id member
      have small := List.mem_range.1 member
      simp only [placedAt, List.filter_filter]
      congr 1
      refine List.filter_congr fun write _ => ?_
      by_cases here : write.1 = id
      · simp [here, Nat.ne_of_lt small]
      · simp [here]
    rw [List.range_succ, List.flatMap_append, List.flatMap_singleton, List.flatMap_congr others]
    refine ((smaller ?_).append_right _).trans ?_
    · intro write member
      obtain ⟨member, apart⟩ := List.mem_filter.1 member
      have := present write member
      have : write.1 ≠ size := by simpa using apart
      omega
    · rw [placedAt, ← List.map_append]
      exact (List.perm_append_comm.trans (List.filter_append_perm _ _)).map _

/-- A tree grows by readings that are placed at its nodes one after the other. -/
structure Grown (before after : Tree) (placed : List (Nat × Reading)) : Prop where
  keeps : before.Keeps after
  ordered : after.Ordered
  readings : ∀ id, after.readingsAt id = before.readingsAt id ++ placedAt id placed
  present : ∀ write ∈ placed, write.1 < after.entries.size

theorem Grown.refl (ordered : tree.Ordered) : tree.Grown tree [] where
  keeps := .refl tree
  ordered := ordered
  readings := by simp [placedAt]
  present := by simp

theorem Grown.trans {first second : List (Nat × Reading)} (earlier : before.Grown between first)
    (later : between.Grown after second) : before.Grown after (first ++ second) where
  keeps := earlier.keeps.trans later.keeps
  ordered := later.ordered
  readings id := by rw [later.readings, earlier.readings, placedAt_append, List.append_assoc]
  present write member := by
    rcases List.mem_append.1 member with member | member
    · exact Nat.lt_of_lt_of_le (earlier.present write member) later.keeps.size_le
    · exact later.present write member

theorem readingsAt_of_found {id : Nat} {entry : Entry} (found : tree.entries[id]? = some entry) :
    tree.readingsAt id = entry.readings (tree.pathTo entry.holder) := by
  rw [readingsAt, found]

theorem readingsAt_of_missing {id : Nat} (missing : tree.entries[id]? = none) : tree.readingsAt id = [] := by
  rw [readingsAt, missing]

theorem Ordered.block_of_held (ordered : tree.Ordered) {id : Nat} {entry : Entry}
    (found : tree.entries[id]? = some entry) : ∀ holder, entry.holder = some holder → tree.isBlock holder = true :=
  fun holder held => (ordered id entry found holder held).2

theorem Grown.push (ordered : tree.Ordered) (holder : Option Nat) (content : Content) (depth : Nat) (span : Span) :
    tree.Grown (tree.push holder content depth span).2 [] where
  keeps := keeps_push _ _ _ _ _
  ordered := ordered.push _ _ _ _
  present := by simp
  readings id := by
    rw [placedAt, List.filter_nil, List.map_nil, List.append_nil]
    rcases Nat.lt_trichotomy id tree.entries.size with earlier | rfl | later
    · have found := Array.getElem?_eq_getElem earlier
      have found' : (tree.push holder content depth span).2.entries[id]? = some tree.entries[id] := by
        simp only [Tree.push, Array.getElem?_push_lt earlier]
      rw [readingsAt_of_found found, readingsAt_of_found found',
        (keeps_push _ _ _ _ _).pathTo ordered (ordered.push _ _ _ _) (ordered.block_of_held found)]
    · rw [readingsAt_of_missing (Array.getElem?_eq_none (Nat.le_refl _)),
        readingsAt_of_found (by simp only [Tree.push]; exact Array.getElem?_push_size)]
      rfl
    · rw [readingsAt_of_missing (Array.getElem?_eq_none (Nat.le_of_lt later)),
        readingsAt_of_missing (Array.getElem?_eq_none (by simp [Tree.push]; omega))]

theorem Grown.pushItem (ordered : tree.Ordered) {id : Nat} {entry : Entry} (found : tree.entries[id]? = some entry)
    (takes : entry.takesItems = true) (declaration : Declaration) :
    tree.Grown (tree.pushItem id (.declaration declaration))
      [(id, ⟨declaration, entry.selectors?, tree.pathIn id⟩)] where
  keeps := keeps_pushItem _ _ _
  ordered := ordered.pushItem _ _
  present := by
    have := (Array.getElem?_eq_some_iff.1 found).1
    simpa [Tree.pushItem] using this
  readings other := by
    have keeps := tree.keeps_pushItem id (.declaration declaration)
    have path : ∀ holder, (∀ id, holder = some id → tree.isBlock id = true) →
        (tree.pushItem id (.declaration declaration)).pathTo holder = tree.pathTo holder :=
      fun _ block => keeps.pathTo ordered (ordered.pushItem _ _) block
    cases present : tree.entries[other]? with
    | none =>
      have missing : (tree.pushItem id (.declaration declaration)).entries[other]? = none := by
        simp [Tree.pushItem, Array.getElem?_modify, present]
      have apart : id ≠ other := by
        rintro rfl
        cases present.symm.trans found
      rw [readingsAt_of_missing present, readingsAt_of_missing missing, placedAt_eq_nil (by simpa using apart),
        List.append_nil]
    | some old =>
      rw [readingsAt_of_found present]
      by_cases here : id = other
      · subst here
        cases found.symm.trans present
        have changed : (tree.pushItem id (.declaration declaration)).entries[id]? =
            some { entry with items := entry.items ++ [.declaration declaration] } := by
          simp [Tree.pushItem, Array.getElem?_modify, present, takes]
        rw [readingsAt_of_found changed, path _ (ordered.block_of_held found), pathIn_eq ordered found]
        simp [placedAt, Entry.readings, Entry.declarations, Entry.inner, Entry.selectors?]
      · have same : (tree.pushItem id (.declaration declaration)).entries[other]? = some old := by
          simp [Tree.pushItem, Array.getElem?_modify, present, here]
        rw [readingsAt_of_found same, path _ (ordered.block_of_held present), placedAt_eq_nil (by simpa using here),
          List.append_nil]

/-- What a tree shows that has grown from an empty one. -/
theorem Grown.groups {start : Tree} {placed : List (Nat × Reading)} (grown : start.Grown tree placed)
    (empty : start.entries = #[]) :
    tree.groups.flatten.Perm (placed.map (·.2)) ∧
      ∀ group ∈ tree.groups, group.Sublist (placed.map (·.2)) := by
  have each : ∀ id, tree.readingsAt id = placedAt id placed := by
    intro id
    rw [grown.readings, readingsAt_of_missing (by simp [empty]), List.nil_append]
  have shown := groups_perm grown.ordered
  constructor
  · refine shown.flatten.trans ?_
    rw [← List.flatMap_def, List.flatMap_congr fun id _ => each id]
    exact flatMap_placedAt_perm grown.present
  · intro group member
    obtain ⟨id, -, rfl⟩ := List.mem_map.1 (shown.mem_iff.1 member)
    rw [each]
    exact placedAt_sublist id placed

end Stylesheet.Css.Tree
