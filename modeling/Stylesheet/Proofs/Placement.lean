import Stylesheet.Proofs.Context

/-! Where new nodes stand. While a block is being filled, new nodes go into it or into something new inside it; behind
it, and behind the blocks around it, nothing comes but media blocks that were inside of it in the source. So a node that
is made inside a block after another one was made behind that block tells that the two are such media blocks. -/

namespace Stylesheet

namespace Css.Tree

variable {tree before between after : Tree} {container : Option Nat} {left right top id : Nat}

/-- A media block that was inside of another one in the source stands behind it, with both queries. -/
def Beside (tree : Tree) (outer inner : Nat) : Prop :=
  outer < inner ∧ ∃ first second query more, tree.entries[outer]? = some first ∧ tree.entries[inner]? = some second ∧
    second.holder = first.holder ∧ first.content = .block "media" query ∧
    second.content = .block "media" (query ++ " and " ++ more)

/-- Behind a node in which another one was made later stand only media blocks that were inside of it. -/
def Settled (tree : Tree) : Prop :=
  ∀ left right id, tree.Later left right → tree.Below left id → right < id → tree.Beside left right

/-- Behind a block that is being filled, and behind those around it, stand only media blocks that were inside of it. -/
def Open (tree : Tree) (container : Option Nat) : Prop :=
  ∀ holder top later, container = some holder → tree.Below top holder → tree.Later top later → tree.Beside top later

/-- A node stands in a block, or in another one that is not among the first `size` nodes, or behind that block as a
media block that was inside of it. -/
def Placed (tree : Tree) (container : Option Nat) (size id : Nat) : Prop :=
  ∃ entry, tree.entries[id]? = some entry ∧
    (entry.holder = container ∨ (∃ outer, entry.holder = some outer ∧ size ≤ outer) ∨
      ∃ outer, container = some outer ∧ tree.Beside outer id)

/-- A tree grows while a block is being filled. -/
structure Extends (container : Option Nat) (before after : Tree) : Prop where
  keeps : before.Keeps after
  ordered : after.Ordered
  settled : after.Settled
  new : ∀ id, before.entries.size ≤ id → id < after.entries.size → after.Placed container before.entries.size id

theorem Beside.later (beside : tree.Beside left right) : tree.Later left right := by
  obtain ⟨less, first, second, _, _, found, found', same, -⟩ := beside
  exact ⟨less, first, second, found, found', same⟩

theorem Beside.keeps (keeps : before.Keeps after) (beside : before.Beside left right) : after.Beside left right := by
  obtain ⟨less, first, second, query, more, found, found', same, outer, inner⟩ := beside
  obtain ⟨first', here, content, holder⟩ := keeps left first found
  obtain ⟨second', there, content', holder'⟩ := keeps right second found'
  have beside : second'.holder = first'.holder := (holder'.trans same).trans holder.symm
  exact ⟨less, first', second', query, more, here, there, beside, content.trans outer, content'.trans inner⟩

theorem Beside.trans {middle : Nat} (first : tree.Beside left middle) (second : tree.Beside middle right) :
    tree.Beside left right := by
  obtain ⟨less, one, two, query, more, found, found', same, outer, inner⟩ := first
  obtain ⟨less', two', three, _, rest, again, found'', same', outer', inner'⟩ := second
  cases found'.symm.trans again
  have queries := inner.symm.trans outer'
  simp only [Content.block.injEq, true_and] at queries
  subst queries
  refine ⟨Nat.lt_trans less less', one, three, query, more ++ " and " ++ rest, found, found'', same'.trans same, outer, ?_⟩
  rw [inner']
  simp only [String.append_assoc]

/-! Nodes that are there stay where they are. -/

theorem Keeps.below_of_lt (keeps : before.Keeps after) (ordered : before.Ordered) (present : id < before.entries.size)
    (below : after.Below top id) : before.Below top id := by
  induction below with
  | self => exact .self
  | @held id holder entry _ found held outer =>
    have old := Array.getElem?_eq_getElem present
    obtain ⟨later, found', -, same⟩ := keeps _ _ old
    cases found.symm.trans found'
    have inside : before.entries[id].holder = some holder := same.symm.trans held
    have smaller := (ordered _ _ old _ inside).1
    exact .held (outer (by omega)) old inside

theorem Keeps.later_of_lt (keeps : before.Keeps after) (present : right < before.entries.size)
    (later : after.Later left right) : before.Later left right := by
  obtain ⟨less, first, second, found, found', same⟩ := later
  have old := Array.getElem?_eq_getElem present
  have old' := Array.getElem?_eq_getElem (Nat.lt_trans less present)
  obtain ⟨_, again, -, holder⟩ := keeps _ _ old
  obtain ⟨_, again', -, holder'⟩ := keeps _ _ old'
  cases found.symm.trans again'
  cases found'.symm.trans again
  exact ⟨less, _, _, old', old, holder.symm.trans (same.trans holder')⟩

theorem Placed.keeps {size : Nat} (keeps : before.Keeps after) (placed : before.Placed container size id) :
    after.Placed container size id := by
  obtain ⟨entry, found, where_⟩ := placed
  obtain ⟨later, present, -, same⟩ := keeps id entry found
  refine ⟨later, present, ?_⟩
  rw [same]
  rcases where_ with held | fresh | ⟨outer, held, beside⟩
  · exact .inl held
  · exact .inr (.inl fresh)
  · exact .inr (.inr ⟨outer, held, beside.keeps keeps⟩)

theorem Placed.mono {fewer more : Nat} (le : fewer ≤ more) (placed : tree.Placed container more id) :
    tree.Placed container fewer id := by
  obtain ⟨entry, found, held | ⟨outer, held, fresh⟩ | beside⟩ := placed
  · exact ⟨entry, found, .inl held⟩
  · exact ⟨entry, found, .inr (.inl ⟨outer, held, by omega⟩)⟩
  · exact ⟨entry, found, .inr (.inr beside)⟩

/-- What stands in a new block, or beside it, stands in the block that holds it, or beside that one. -/
theorem Placed.inside {block size : Nat} (outer : tree.Placed container size block) (new : size ≤ block)
    (placed : tree.Placed (some block) size id) : tree.Placed container size id := by
  obtain ⟨entry, found, held | fresh | ⟨_, ⟨⟩, beside⟩⟩ := placed
  · exact ⟨entry, found, .inr (.inl ⟨block, held, new⟩)⟩
  · exact ⟨entry, found, .inr (.inl fresh)⟩
  · have ⟨_, first, second, _, _, here, there, same, _⟩ := beside
    cases found.symm.trans there
    obtain ⟨_, again, around | fresh | ⟨outermost, held, outside⟩⟩ := outer
    · cases here.symm.trans again
      exact ⟨entry, found, .inl (same.trans around)⟩
    · cases here.symm.trans again
      exact ⟨entry, found, .inr (.inl (same ▸ fresh))⟩
    · exact ⟨entry, found, .inr (.inr ⟨outermost, held, outside.trans beside⟩)⟩

/-- A change that makes no nodes leaves everything in its place. -/
theorem Extends.still (keeps : before.Keeps after) (size : after.entries.size = before.entries.size)
    (ordered : before.Ordered) (ordered' : after.Ordered) (settled : before.Settled) :
    Extends container before after := by
  refine ⟨keeps, ordered', ?_, fun id new present => by omega⟩
  intro left right id later below less
  have present : id < before.entries.size := size ▸ below.present later.present
  have beside := settled left right id (keeps.later_of_lt (Nat.lt_trans less present) later)
    (keeps.below_of_lt ordered present below) less
  exact beside.keeps keeps

theorem Extends.refl (ordered : tree.Ordered) (settled : tree.Settled) : Extends container tree tree :=
  .still (.refl tree) rfl ordered ordered settled

theorem Extends.trans (first : Extends container before between) (second : Extends container between after) :
    Extends container before after := by
  refine ⟨first.keeps.trans second.keeps, second.ordered, second.settled, ?_⟩
  intro id new present
  by_cases old : id < between.entries.size
  · exact (first.new id new old).keeps second.keeps
  · exact (second.new id (by omega) present).mono first.keeps.size_le

/-- What is done inside of a new block is done inside of the block that holds it, or beside that one. -/
theorem Extends.inside {block : Nat} (made : Extends container before between) (new : before.entries.size ≤ block)
    (present : block < between.entries.size) (inner : Extends (some block) between after) :
    Extends container before after := by
  have placed := (made.new block new present).keeps inner.keeps
  refine ⟨made.keeps.trans inner.keeps, inner.ordered, inner.settled, ?_⟩
  intro id later present
  by_cases old : id < between.entries.size
  · exact (made.new id later old).keeps inner.keeps
  · exact placed.inside new ((inner.new id (by omega) present).mono made.keeps.size_le)

/-- What was open stays so. -/
theorem Open.grows (opened : before.Open container) (grown : Extends container before after)
    (ordered : before.Ordered) (present : ∀ id, container = some id → id < before.entries.size) :
    after.Open container := by
  rintro block top later rfl below behind
  have old := present block rfl
  have below := grown.keeps.below_of_lt ordered old below
  have above := below.le ordered
  by_cases new : later < before.entries.size
  · exact (opened block top later rfl below (grown.keeps.later_of_lt new behind)).keeps grown.keeps
  · have ⟨_, first, second, found, found', same⟩ := behind
    -- A node with the holder of `top` is not held by `block` or by something new.
    have outer {holder : Nat} (held : second.holder = some holder) : holder < top :=
      (grown.ordered _ _ found _ (same ▸ held)).1
    obtain ⟨entry, again, held | ⟨holder, held, fresh⟩ | ⟨_, ⟨⟩, beside⟩⟩ :=
      grown.new later (by omega) (Array.getElem?_eq_some_iff.1 found').1
    · cases found'.symm.trans again
      have := outer held
      omega
    · cases found'.symm.trans again
      have := outer held
      omega
    · cases below with
      | self => exact beside
      | @held _ holder inside below present held =>
        have ⟨_, third, _, _, _, here, there, same', _⟩ := beside
        obtain ⟨third', here', -, holds⟩ := grown.keeps _ _ present
        cases here.symm.trans here'
        cases found'.symm.trans there
        have := outer (same'.trans (holds.trans held))
        have := below.le ordered
        omega

/-! Making one node -/

section Push

variable {holder : Option Nat} {content : Content} {depth : Nat} {span : Span}
  (ordered : tree.Ordered) (block : ∀ id, holder = some id → tree.isBlock id = true)

include ordered block

theorem below_push (below : (tree.push holder content depth span).2.Below top tree.entries.size) :
    top = tree.entries.size ∨ ∃ outer, holder = some outer ∧ tree.Below top outer := by
  cases below with
  | self => exact .inl rfl
  | @held _ outer entry above found held =>
    cases found.symm.trans (getElem?_push_size block)
    have keeps := tree.keeps_push holder content depth span
    exact .inr ⟨outer, held, keeps.below_of_lt ordered (lt_size_of_isBlock (block outer held)) above⟩

/-- A new node goes to a block that is being filled. -/
theorem Extends.push (settled : tree.Settled) (opened : tree.Open holder)
    (placed : (tree.push holder content depth span).2.Placed container tree.entries.size tree.entries.size) :
    Extends container tree (tree.push holder content depth span).2 := by
  have keeps := tree.keeps_push holder content depth span
  have size : (tree.push holder content depth span).2.entries.size = tree.entries.size + 1 := by simp [Tree.push]
  refine ⟨keeps, ordered.push _ _ _ _, ?_, ?_⟩
  · intro left right id later below less
    have present := below.present later.present
    by_cases old : id < tree.entries.size
    · have later := keeps.later_of_lt (Nat.lt_trans less old) later
      exact (settled left right id later (keeps.below_of_lt ordered old below) less).keeps keeps
    · obtain rfl : id = tree.entries.size := by omega
      have later' := keeps.later_of_lt less later
      rcases below_push ordered block below with rfl | ⟨outer, held, below⟩
      · have := later.1
        omega
      · exact (opened outer left right held below later').keeps keeps
  · intro id new present
    obtain rfl : id = tree.entries.size := by omega
    exact placed

/-- Nothing stands behind a new block. -/
theorem Open.pushed (opened : tree.Open holder) :
    (tree.push holder content depth span).2.Open (some tree.entries.size) := by
  have keeps := tree.keeps_push holder content depth span
  have size : (tree.push holder content depth span).2.entries.size = tree.entries.size + 1 := by simp [Tree.push]
  rintro _ top later ⟨⟩ below behind
  have together := behind
  obtain ⟨less, first, second, found, found', same⟩ := together
  have present := (Array.getElem?_eq_some_iff.1 found').1
  rcases below_push ordered block below with rfl | ⟨outer, held, below⟩
  · omega
  · by_cases old : later < tree.entries.size
    · exact (opened outer top later held below (keeps.later_of_lt old behind)).keeps keeps
    · -- The new node is held by `outer`, but a node above `outer` is not.
      obtain rfl : later = tree.entries.size := by omega
      cases found'.symm.trans (getElem?_push_size block)
      have := (ordered.push holder content depth span _ _ found outer (same ▸ held)).1
      have := below.le ordered
      omega

end Push

end Css.Tree

namespace Evaluation
open Evaluator (joinedMedia)

variable {inner outer part : Part} {before after state entered : State} {leave : State → State}
  {tree grown : Css.Tree} {container : Option Nat} {media : Option MediaContext}

/-- The tree is laid out around a block that is being filled, inside of a media block. -/
structure Laid (tree : Css.Tree) (container : Option Nat) (media : Option MediaContext) : Prop where
  ordered : tree.Ordered
  settled : tree.Settled
  opened : tree.Open container
  block : ∀ id, container = some id → tree.isBlock id = true
  media : ∀ outer, media = some outer → ∃ entry, tree.entries[outer.block]? = some entry ∧
    entry.content = .block "media" outer.query ∧ entry.holder = outer.holder

abbrev State.Laid (state : State) : Prop := Evaluation.Laid state.tree state.place.container state.place.media

namespace Laid

theorem start (sheet : Sheet) : (State.start sheet).Laid where
  ordered := Css.Tree.ordered_empty.addSource _ _
  settled := by
    rintro left right id ⟨-, first, -, found, -⟩
    simp [State.start, Css.Tree.addSource, Css.Tree.empty, Css.Tree.sourceIndex?] at found
  opened := nofun
  block := nofun
  media := nofun

theorem grows (laid : Laid tree container media) (grows : tree.Extends container grown) :
    Laid grown container media where
  ordered := grows.ordered
  settled := grows.settled
  opened := laid.opened.grows grows laid.ordered fun id held => Css.Tree.lt_size_of_isBlock (laid.block id held)
  block id held := grows.keeps.isBlock (laid.block id held)
  media outer known := by
    obtain ⟨entry, found, content, holder⟩ := laid.media outer known
    obtain ⟨later, present, content', holder'⟩ := grows.keeps _ _ found
    exact ⟨later, present, content'.trans content, holder'.trans holder⟩

/-- A new node may go to the block that is being filled. -/
theorem push (laid : Laid tree container media) (content : Css.Content) (depth : Nat) (span : Css.Span) :
    tree.Extends container (tree.push container content depth span).2 :=
  .push laid.ordered laid.block laid.settled laid.opened
    ⟨_, Css.Tree.getElem?_push_size laid.block, .inl rfl⟩

/-- The new block of a directive is filled next. -/
theorem filled {holder : Option Nat} {name parameters : String} {depth : Nat} {span : Css.Span}
    (laid : Laid tree container media) (block : ∀ id, holder = some id → tree.isBlock id = true)
    (opened : tree.Open holder)
    (grows : tree.Extends container (tree.push holder (.block name parameters) depth span).2) :
    Laid (tree.push holder (.block name parameters) depth span).2 (some tree.entries.size) media where
  ordered := grows.ordered
  settled := grows.settled
  opened := opened.pushed laid.ordered block
  block := by
    rintro _ ⟨⟩
    simp [Css.Tree.push, Css.Tree.isBlock, Css.Entry.isBlock]
  media := (laid.grows grows).media

/-- A media block goes to the block that is being filled or, directly inside of another one, behind that one. -/
theorem joinedMedia (laid : state.Laid) (words : String) (depth : Nat) (span : Css.Span) :
    let joined := Evaluator.joinedMedia state.place words
    let made := (state.tree.push joined.2 (.block "media" joined.1) depth span).2
    (∀ id, joined.2 = some id → state.tree.isBlock id = true) ∧ state.tree.Open joined.2 ∧
      made.Placed state.place.container state.tree.entries.size state.tree.entries.size := by
  have apart (query : String) :
      (state.tree.push state.place.container (.block "media" query) depth span).2.Placed state.place.container
        state.tree.entries.size state.tree.entries.size :=
    ⟨_, Css.Tree.getElem?_push_size laid.block, .inl rfl⟩
  unfold Evaluator.joinedMedia
  cases known : state.place.media with
  | none => exact ⟨laid.block, laid.opened, apart words⟩
  | some outer =>
    dsimp only
    split
    · next direct =>
      obtain ⟨entry, found, outermost, holder⟩ := laid.media outer known
      have block : ∀ id, outer.holder = some id → state.tree.isBlock id = true :=
        fun id held => (laid.ordered _ _ found id (holder.trans held)).2
      refine ⟨block, ?_, ?_⟩
      · intro id top later held below behind
        exact laid.opened outer.block top later direct (.held below found (holder.trans held)) behind
      · let content : Css.Content := .block "media" (outer.query ++ " and " ++ words)
        have new : (state.tree.push outer.holder content depth span).2.entries[state.tree.entries.size]? =
            some { content, items := [], depth, span, holder := outer.holder } := Css.Tree.getElem?_push_size block
        obtain ⟨entry', found', same, holder'⟩ := state.tree.keeps_push outer.holder content depth span _ _ found
        have earlier : outer.block < state.tree.entries.size := (Array.getElem?_eq_some_iff.1 found).1
        refine ⟨_, new, .inr (.inr ⟨outer.block, direct, earlier, entry', _, outer.query, words, found', new, ?_⟩)⟩
        exact ⟨(holder'.trans holder).symm, same.trans outermost, rfl⟩
    · exact ⟨laid.block, laid.opened, apart words⟩

end Laid

/-- What is entered is laid out, and what is made inside of it may be made in the state around it. -/
theorem Enters.laid (enters : Enters inner outer state entered leave) (laid : state.Laid) :
    entered.Laid ∧ ∀ later, entered.tree.Extends entered.place.container later →
      state.tree.Extends state.place.container later := by
  have directly {content : Css.Content} {pos : Position} : state.tree.Extends state.place.container
      (state.pushed state.place.container content pos) := laid.push content _ _
  cases enters with
  | inRule => exact ⟨laid.grows directly, fun later inside => directly.trans inside⟩
  | inDirective name parameters pos =>
    refine ⟨laid.filled laid.block laid.opened directly, fun later inside => ?_⟩
    exact directly.inside (Nat.le_refl _) (by simp [State.pushed, Css.Tree.push]) inside
  | inMedia words pos =>
    obtain ⟨block, opened, placed⟩ := laid.joinedMedia words state.place.depth ⟨state.source, pos⟩
    have made := Css.Tree.Extends.push laid.ordered block laid.settled opened placed
    obtain ⟨ordered, settled, opened, filled, -⟩ := laid.filled block opened made
    refine ⟨⟨ordered, settled, opened, filled, ?_⟩, fun later inside => ?_⟩
    · rintro _ ⟨⟩
      exact ⟨_, Css.Tree.getElem?_push_size block, rfl, rfl⟩
    · exact made.inside (Nat.le_refl _) (by simp [Css.Tree.push]) inside
  | inSheet _ sheet =>
    have source : state.tree.Extends state.place.container (state.tree.addSource sheet.path sheet.source).2 := by
      refine .still (Css.Tree.keeps_addSource _ _ _) ?_ laid.ordered (laid.ordered.addSource _ _) laid.settled
      unfold Css.Tree.addSource
      split <;> rfl
    exact ⟨laid.grows source, fun later inside => source.trans inside⟩
  | _ => exact ⟨laid, fun later inside => inside⟩

/-- By induction on the course: whatever is evaluated, the tree grows around the block that is being filled. -/
theorem Leads.grows (leads : Leads part before after) (laid : before.Laid) :
    before.tree.Extends before.place.container after.tree := by
  induction leads with
  | trans first second one two =>
    have same := (first.returns laid.block).context
    have begun := one laid
    have between := laid.grows begun
    rw [← same.container, ← same.media] at between
    have grown := two between
    rw [same.container] at grown
    exact begun.trans grown
  | expression _ inside => exact inside laid
  | inside enters leads inside =>
    obtain ⟨entered, outside⟩ := enters.laid laid
    rw [Returns.leave_tree enters]
    exact outside _ (inside entered)
  | directive | comment | rule => exact laid.push _ _ _
  | item =>
    exact .still (Css.Tree.keeps_pushItem _ _ _) (by simp [Css.Tree.pushItem]) laid.ordered
      (laid.ordered.pushItem _ _) laid.settled
  | _ => exact .refl laid.ordered laid.settled

theorem Reachable.laid (reached : Reachable state) : state.Laid := by
  induction reached with
  | start sheet => exact Laid.start sheet
  | leads reached leads laid =>
    have same := (leads.returns reached.anchored).context
    have grown := laid.grows (leads.grows laid)
    rwa [← same.container, ← same.media] at grown
  | enters _ enters laid => exact (enters.laid laid).1

end Evaluation

end Stylesheet
