import Mathlib.Data.List.Forall2
import Stylesheet.Proofs.MapEntries

/-! When equality of values is an equivalence. Every value is equal to itself. Lists are compared item by item and maps
key by key, and both keep to an equivalence if the values inside do. What does not is the empty map: it is equal to
every empty list, and of these there are two that differ, one in brackets and one without. -/

namespace Stylesheet.Value

/-- What two equal values have in common. -/
inductive Alike : Value → Value → Prop
  | null : Alike null null
  | bool (b : Bool) : Alike (bool b) (bool b)
  | number {a b : Number} (same : a.same b = true) : Alike (number a) (number b)
  | color {a b : Color} (same : a.same b = true) : Alike (color a) (color b)
  | string (text : String) (quoted quoted' : Bool) : Alike (string text quoted) (string text quoted')
  | list {items items' : List Value} {separator separator' : Separator} (bracketed : Bool)
    (each : List.Forall₂ (fun a b => (a == b) = true) items items')
    (between : items.length ≤ 1 ∨ separator = separator') :
    Alike (list items separator bracketed) (list items' separator' bracketed)
  | map {entries entries' : List (Value × Value)} (equal : (map entries == map entries') = true) :
    Alike (map entries) (map entries')
  | emptyMap (separator : Separator) (bracketed : Bool) : Alike (map []) (list [] separator bracketed)
  | emptyList (separator : Separator) (bracketed : Bool) : Alike (list [] separator bracketed) (map [])
  | error (message : String) : Alike (error message) (error message)
  | warning (message : String) : Alike (warning message) (warning message)

theorem sameItems_iff {items items' : List Value} (lengths : items.length = items'.length) :
    sameItems items items' = true ↔ List.Forall₂ (fun a b => (a == b) = true) items items' := by
  induction items generalizing items' with
  | nil =>
    obtain rfl := List.eq_nil_of_length_eq_zero lengths.symm
    simp [sameItems]
  | cons item items later =>
    obtain ⟨item', items', rfl⟩ := List.exists_cons_of_length_eq_add_one lengths.symm
    rw [sameItems, Bool.and_eq_true, later (Nat.succ.inj lengths), List.forall₂_cons, beq_eq_same]

theorem same_list_iff {items items' : List Value} {separator separator' : Separator} {bracketed bracketed' : Bool} :
    (list items separator bracketed == list items' separator' bracketed') = true ↔
      bracketed = bracketed' ∧ List.Forall₂ (fun a b => (a == b) = true) items items' ∧
        (items.length ≤ 1 ∨ separator = separator') := by
  rw [beq_eq_same, same]
  simp only [Bool.and_eq_true, beq_iff_eq, Bool.or_eq_true, decide_eq_true_eq]
  constructor
  · rintro ⟨⟨⟨lengths, brackets⟩, between⟩, each⟩
    exact ⟨brackets, (sameItems_iff lengths).1 each, between⟩
  · rintro ⟨brackets, each, between⟩
    exact ⟨⟨⟨each.length_eq, brackets⟩, between⟩, (sameItems_iff each.length_eq).2 each⟩

theorem same_iff_alike {a b : Value} : (a == b) = true ↔ Alike a b := by
  constructor
  · intro equal
    rw [beq_eq_same, same.eq_def] at equal
    split at equal
    · exact .null
    · exact beq_iff_eq.1 equal ▸ .bool _
    · exact .number equal
    · exact .color equal
    · exact beq_iff_eq.1 equal ▸ .string _ _ _
    · rename_i items separator bracketed items' separator' bracketed'
      have lists : (list items separator bracketed == list items' separator' bracketed') = true := by
        rwa [beq_eq_same, same]
      obtain ⟨rfl, each, between⟩ := same_list_iff.1 lists
      exact .list bracketed each between
    · exact .map (by rwa [beq_eq_same, same])
    · obtain ⟨rfl, rfl⟩ := by simpa using equal
      exact .emptyMap _ _
    · obtain ⟨rfl, rfl⟩ := by simpa using equal
      exact .emptyList _ _
    · exact beq_iff_eq.1 equal ▸ .error _
    · exact beq_iff_eq.1 equal ▸ .warning _
    · cases equal
  · intro alike
    cases alike with
    | list bracketed each between => exact same_list_iff.2 ⟨rfl, each, between⟩
    | map equal => exact equal
    | number equal => rwa [beq_eq_same, same]
    | color equal => rwa [beq_eq_same, same]
    | _ => simp [beq_eq_same, same]

/-! Maps and lists of values on which equality is an equivalence -/

/-- A map whose keys and values are of a kind. -/
structure EntriesOf (kind : Value → Prop) (entries : List (Value × Value)) : Prop where
  keyed : Keyed kind entries
  values : ∀ entry ∈ entries, kind entry.2
  apart : Apart (entries.map Prod.fst)

variable {kind : Value → Prop} {key value : Value} {first second third : List (Value × Value)}

theorem EntriesOf.of_lookup (inside : EntriesOf kind first) (found : lookup key first = some value) : kind value := by
  obtain ⟨entry, member, -, rfl⟩ := exists_of_lookup found
  exact inside.values entry member

namespace EquivalenceOn

variable (equivalence : EquivalenceOn kind)
include equivalence

theorem symm_map (left : EntriesOf kind first) (right : EntriesOf kind second)
    (equal : (map first == map second) = true) : (map second == map first) = true := by
  rw [equivalence.same_map_iff_lookup left.keyed right.keyed left.apart right.apart] at equal
  rw [equivalence.same_map_iff_lookup right.keyed left.keyed right.apart left.apart]
  intro key known
  rcases beq_option_iff.1 (equal key known) with ⟨there, here⟩ | ⟨value, value', there, here, same⟩
  · rw [there, here]
    rfl
  · rw [there, here, Option.some_beq_some]
    exact equivalence.symm (right.of_lookup there) (left.of_lookup here) same

theorem trans_map (left : EntriesOf kind first) (middle : EntriesOf kind second) (right : EntriesOf kind third)
    (equal : (map first == map second) = true) (equal' : (map second == map third) = true) :
    (map first == map third) = true := by
  rw [equivalence.same_map_iff_lookup left.keyed middle.keyed left.apart middle.apart] at equal
  rw [equivalence.same_map_iff_lookup middle.keyed right.keyed middle.apart right.apart] at equal'
  rw [equivalence.same_map_iff_lookup left.keyed right.keyed left.apart right.apart]
  intro key known
  rcases beq_option_iff.1 (equal key known) with ⟨there, here⟩ | ⟨value, value', there, here, same⟩
  · have beyond := equal' key known
    rwa [there, ← here] at beyond
  · have beyond := equal' key known
    rw [there] at beyond
    rcases beq_option_iff.1 beyond with ⟨-, none⟩ | ⟨value'', between, far, some, same'⟩
    · cases none
    · cases some
      rw [far, here, Option.some_beq_some]
      exact equivalence.trans (right.of_lookup far) (middle.of_lookup there) (left.of_lookup here) same' same

theorem symm_items {items items' : List Value} (left : ∀ item ∈ items, kind item) (right : ∀ item ∈ items', kind item)
    (each : List.Forall₂ (fun a b => (a == b) = true) items items') :
    List.Forall₂ (fun a b => (a == b) = true) items' items := by
  induction each with
  | nil => exact .nil
  | cons same _ later =>
    obtain ⟨here, behind⟩ := List.forall_mem_cons.1 left
    obtain ⟨here', behind'⟩ := List.forall_mem_cons.1 right
    exact .cons (equivalence.symm here here' same) (later behind behind')

theorem trans_items {items items' items'' : List Value} (left : ∀ item ∈ items, kind item)
    (middle : ∀ item ∈ items', kind item) (right : ∀ item ∈ items'', kind item)
    (each : List.Forall₂ (fun a b => (a == b) = true) items items')
    (each' : List.Forall₂ (fun a b => (a == b) = true) items' items'') :
    List.Forall₂ (fun a b => (a == b) = true) items items'' := by
  induction each generalizing items'' with
  | nil =>
    cases each'
    exact .nil
  | cons same _ later =>
    cases each' with
    | cons same' each' =>
      obtain ⟨here, behind⟩ := List.forall_mem_cons.1 left
      obtain ⟨here', behind'⟩ := List.forall_mem_cons.1 middle
      obtain ⟨here'', behind''⟩ := List.forall_mem_cons.1 right
      exact .cons (equivalence.trans here here' here'' same same') (later behind behind' behind'' each')

end EquivalenceOn

/-! Values without numbers and colors -/

/-- A value of the given kinds and of such values. It holds no number and no color, and all maps in it were built entry
by entry. -/
inductive Plain (allowed : Value → Prop) : Value → Prop
  | null (itself : allowed null) : Plain allowed null
  | bool {b : Bool} (itself : allowed (bool b)) : Plain allowed (bool b)
  | string {text : String} {quoted : Bool} (itself : allowed (string text quoted)) : Plain allowed (string text quoted)
  | list {items : List Value} {separator : Separator} {bracketed : Bool} (inside : ∀ item ∈ items, Plain allowed item)
    (itself : allowed (list items separator bracketed)) : Plain allowed (list items separator bracketed)
  | map {inserted : List (Value × Value)} (keys : ∀ entry ∈ ofEntries inserted, Plain allowed entry.1)
    (values : ∀ entry ∈ ofEntries inserted, Plain allowed entry.2) (itself : allowed (map (ofEntries inserted))) :
    Plain allowed (map (ofEntries inserted))
  | error {message : String} (itself : allowed (error message)) : Plain allowed (error message)
  | warning {message : String} (itself : allowed (warning message)) : Plain allowed (warning message)

variable {allowed : Value → Prop}

theorem Plain.itself {value : Value} (plain : Plain allowed value) : allowed value := by
  cases plain <;> assumption

/-- Every value is equal to itself, whatever it is made of. -/
theorem Plain.refl {value : Value} (plain : Plain allowed value) : (value == value) = true := by
  induction plain with
  | list _ _ each => exact same_list_iff.2 ⟨rfl, List.forall₂_same.2 each, .inr rfl⟩
  | @map inserted _ _ _ keys values =>
    refine (same_map_iff _ _).2 ⟨rfl, fun entry member => ?_⟩
    rw [lookup_of_mem (apart_ofEntries inserted) (keys entry member) member, Option.some_beq_some]
    exact values entry member
  | _ => simp [beq_eq_same, same]

/-- The empty map is allowed, and so are empty lists in brackets and without. -/
def AllEmpties (allowed : Value → Prop) : Prop :=
  allowed (map []) ∧ (∃ separator, allowed (list [] separator true)) ∧ ∃ separator, allowed (list [] separator false)

/-- The plain values up to a size. -/
def PlainBelow (allowed : Value → Prop) (n : Nat) (value : Value) : Prop := Plain allowed value ∧ sizeOf value < n

namespace PlainBelow

variable {n : Nat}

theorem items {items : List Value} {separator : Separator} {bracketed : Bool}
    (below : PlainBelow allowed (n + 1) (list items separator bracketed)) :
    ∀ item ∈ items, PlainBelow allowed n item := by
  obtain ⟨plain, size⟩ := below
  cases plain with
  | list inside _ =>
    intro item member
    have smaller := List.sizeOf_lt_of_mem member
    simp only [list.sizeOf_spec] at size
    exact ⟨inside item member, by omega⟩

theorem entries {entries : List (Value × Value)} (below : PlainBelow allowed (n + 1) (map entries)) :
    EntriesOf (PlainBelow allowed n) entries := by
  obtain ⟨plain, size⟩ := below
  have smaller : ∀ entry ∈ entries, sizeOf entry.1 < n ∧ sizeOf entry.2 < n := by
    rintro ⟨key, value⟩ member
    have inside := List.sizeOf_lt_of_mem member
    simp only [map.sizeOf_spec, Prod.mk.sizeOf_spec] at size inside ⊢
    omega
  cases plain with
  | map keys values _ =>
    exact {
      keyed := List.forall_mem_map.2 fun entry member => ⟨keys entry member, (smaller entry member).1⟩
      values := fun entry member => ⟨values entry member, (smaller entry member).2⟩
      apart := apart_ofEntries _ }

variable {a b c : Value} (inner : EquivalenceOn (PlainBelow allowed n))
include inner

theorem symm (left : PlainBelow allowed (n + 1) a) (right : PlainBelow allowed (n + 1) b) (equal : (a == b) = true) :
    (b == a) = true := by
  cases same_iff_alike.1 equal with
  | null | bool | error | warning => exact equal
  | number | color => cases left.1
  | string text quoted quoted' => exact same_iff_alike.2 (.string text quoted' quoted)
  | list bracketed each between =>
    exact same_list_iff.2 ⟨rfl, inner.symm_items left.items right.items each,
      between.imp (fun short => each.length_eq ▸ short) Eq.symm⟩
  | map equal => exact inner.symm_map left.entries right.entries equal
  | emptyMap separator bracketed => exact same_iff_alike.2 (.emptyList separator bracketed)
  | emptyList separator bracketed => exact same_iff_alike.2 (.emptyMap separator bracketed)

/-- Between two empty lists the empty map is the only value that makes a difference. -/
theorem trans (few : ¬AllEmpties allowed) (left : PlainBelow allowed (n + 1) a) (middle : PlainBelow allowed (n + 1) b)
    (right : PlainBelow allowed (n + 1) c) (equal : (a == b) = true) (equal' : (b == c) = true) : (a == c) = true := by
  cases same_iff_alike.1 equal with
  | null | bool | error | warning => exact equal'
  | number | color => cases left.1
  | string text quoted quoted' =>
    cases same_iff_alike.1 equal' with
    | string _ _ quoted'' => exact same_iff_alike.2 (.string text quoted quoted'')
  | list bracketed each between =>
    cases same_iff_alike.1 equal' with
    | list _ each' between' =>
      have lengths := each.length_eq
      refine same_list_iff.2 ⟨rfl, inner.trans_items left.items middle.items right.items each each', ?_⟩
      rcases between with short | rfl
      · exact .inl short
      · exact between'.imp_left fun short => lengths ▸ short
    | emptyList separator _ =>
      cases each
      exact same_iff_alike.2 (.emptyList _ bracketed)
  | map equal =>
    cases same_iff_alike.1 equal' with
    | map equal' => exact inner.trans_map left.entries middle.entries right.entries equal equal'
    | emptyMap separator bracketed =>
      obtain rfl := List.eq_nil_of_length_eq_zero ((same_map_iff _ _).1 equal).1
      exact equal'
  | emptyMap separator bracketed =>
    cases same_iff_alike.1 equal' with
    | list _ each' _ =>
      cases each'
      exact same_iff_alike.2 (.emptyMap _ bracketed)
    | emptyList => exact (same_map_iff [] []).2 ⟨rfl, nofun⟩
  | emptyList separator bracketed =>
    cases same_iff_alike.1 equal' with
    | map equal' =>
      obtain rfl := List.eq_nil_of_length_eq_zero ((same_map_iff _ _).1 equal').1.symm
      exact equal
    | emptyMap separator' bracketed' =>
      have brackets : bracketed = bracketed' := by
        by_contra different
        refine few ⟨middle.1.itself, ?_⟩
        cases bracketed <;> cases bracketed' <;> first
          | exact absurd rfl different
          | exact ⟨⟨_, right.1.itself⟩, _, left.1.itself⟩
          | exact ⟨⟨_, left.1.itself⟩, _, right.1.itself⟩
      exact same_list_iff.2 ⟨brackets, .nil, .inl (Nat.zero_le 1)⟩

end PlainBelow

/-- By induction on the size: an equivalence on smaller values makes one of the lists and maps of them. -/
theorem equivalenceOn_plainBelow (few : ¬AllEmpties allowed) (n : Nat) : EquivalenceOn (PlainBelow allowed n) := by
  induction n with
  | zero => exact ⟨fun below => below.1.refl, fun below => absurd below.2 (Nat.not_lt_zero _),
      fun below => absurd below.2 (Nat.not_lt_zero _)⟩
  | succ n inner => exact ⟨fun below => below.1.refl, PlainBelow.symm inner, PlainBelow.trans inner few⟩

theorem equivalenceOn_plain (few : ¬AllEmpties allowed) : EquivalenceOn (Plain allowed) where
  refl plain := plain.refl
  symm {a b} left right :=
    (equivalenceOn_plainBelow few (sizeOf a + sizeOf b + 1)).symm ⟨left, by omega⟩ ⟨right, by omega⟩
  trans {a b c} left middle right := (equivalenceOn_plainBelow few (sizeOf a + sizeOf b + sizeOf c + 1)).trans
    ⟨left, by omega⟩ ⟨middle, by omega⟩ ⟨right, by omega⟩

/-- Whatever kinds of values are allowed, each is equal to itself. Equality is an equivalence on the values made of
them exactly when these are not at once the empty map, an empty list in brackets and an empty list without. -/
theorem equality_of_plain_values (allowed : Value → Prop) :
    (∀ value, Plain allowed value → (value == value) = true) ∧
      (EquivalenceOn (Plain allowed) ↔ ¬AllEmpties allowed) := by
  refine ⟨fun value plain => plain.refl, fun equivalence => ?_, equivalenceOn_plain⟩
  rintro ⟨itself, ⟨separator, inBrackets⟩, separator', without⟩
  have nothing : Plain allowed (map (ofEntries [])) := .map nofun nofun itself
  have empty {separator : Separator} {bracketed : Bool} (itself : allowed (list [] separator bracketed)) :
      Plain allowed (list [] separator bracketed) := .list nofun itself
  have equal := equivalence.trans (empty inBrackets) nothing (empty without)
    (same_iff_alike.2 (.emptyList separator true))
    (same_iff_alike.2 (.emptyMap separator' false))
  have brackets := (same_list_iff.1 equal).1
  cases brackets

/-- The empty map is equal to `[]` and to `()`, which differ. With these as keys, a map is equal to another one that
is not equal to it. -/
theorem equality_not_equivalence :
    let brackets := list [] .space true
    let first := ofEntries [(emptyList, null), (brackets, null)]
    let second := ofEntries [(map [], null), (unquoted "x", null)]
    (Plain (fun _ => True) (map first) ∧ Plain (fun _ => True) (map second)) ∧
      ((brackets == map []) = true ∧ (map [] == emptyList) = true ∧ (brackets == emptyList) = false) ∧
      (map first == map second) = true ∧ (map second == map first) = false ∧
      ¬EquivalenceOn (Plain fun _ => True) := by
  intro brackets first second
  have built : first = [(emptyList, null), (brackets, null)] := by
    simp [first, brackets, emptyList, ofEntries, insert, beq_eq_same, same]
  have built' : second = [(map [], null), (unquoted "x", null)] := by
    simp [second, unquoted, ofEntries, insert, beq_eq_same, same]
  have empty (bracketed : Bool) : Plain (fun _ => True) (list [] .space bracketed) :=
    .list (fun _ member => absurd member List.not_mem_nil) trivial
  have nothing : Plain (fun _ => True) (map (ofEntries [])) :=
    .map (fun _ member => absurd member List.not_mem_nil) (fun _ member => absurd member List.not_mem_nil) trivial
  have plain : Plain (fun _ => True) (map first) := by
    refine .map ?_ ?_ trivial <;> change ∀ entry ∈ first, _ <;> rw [built]
    · exact List.forall_mem_cons.2 ⟨empty false, List.forall_mem_singleton.2 (empty true)⟩
    · exact List.forall_mem_cons.2 ⟨.null trivial, List.forall_mem_singleton.2 (.null trivial)⟩
  have plain' : Plain (fun _ => True) (map second) := by
    refine .map ?_ ?_ trivial <;> change ∀ entry ∈ second, _ <;> rw [built']
    · exact List.forall_mem_cons.2 ⟨nothing, List.forall_mem_singleton.2 (.string trivial)⟩
    · exact List.forall_mem_cons.2 ⟨.null trivial, List.forall_mem_singleton.2 (.null trivial)⟩
  have equal : (map first == map second) = true := by
    rw [built, built']
    simp [brackets, emptyList, beq_eq_same, same, heldBy, holds]
  have unequal : (map second == map first) = false := by
    rw [built, built']
    simp [brackets, emptyList, unquoted, beq_eq_same, same, heldBy, holds]
  refine ⟨⟨plain, plain'⟩, ⟨?_, ?_, ?_⟩, equal, unequal, fun equivalence => ?_⟩
  · simp [brackets, beq_eq_same, same]
  · simp [emptyList, beq_eq_same, same]
  · simp [brackets, emptyList, beq_eq_same, same]
  · have turned := equivalence.symm plain plain' equal
    rw [unequal] at turned
    cases turned

end Stylesheet.Value
