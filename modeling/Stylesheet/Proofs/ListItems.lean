import Stylesheet.Proofs.LowestTerms
import Stylesheet.Proofs.WholeNumbers

/-! Items of lists. The functions on lists take every value as the list that it can be seen as: a map as its pairs, and
what is no list as its only item. They agree on that list: on how long it is, on what stands at an index, and on where a
value stands. -/

namespace Stylesheet.Builtin

variable {items : List Value} {a b joined appended value list : Value} {i : ℤ} {call : Call} {n : Number}

/-! Items at an index -/

theorem itemAt?_of_pos (low : 0 < i) : itemAt? items i = items[(i - 1).toNat]? := by
  rw [itemAt?, if_neg (by omega), if_neg (by omega)]

theorem itemAt?_natCast (items : List Value) (k : ℕ) : itemAt? items ((k + 1 : ℕ) : ℤ) = items[k]? := by
  rw [itemAt?_of_pos (by omega)]
  congr 1
  omega

/-- There is an item at each index that is not zero and not beyond the length in either direction. -/
theorem itemAt?_eq_none_iff (items : List Value) (i : ℤ) :
    itemAt? items i = none ↔ i = 0 ∨ (items.length : ℤ) < |i| := by
  unfold itemAt?
  dsimp only
  split <;> split <;> simp only [List.getElem?_eq_none_iff, true_iff] <;> grind

theorem itemAt?_of_neg (low : i < 0) (inside : 0 ≤ items.length + i) :
    itemAt? items i = items[(items.length + i).toNat]? := by
  rw [itemAt?, if_pos low, if_neg (by omega)]

/-- An index from the end is one from the beginning. -/
theorem itemAt?_neg (low : 1 ≤ i) (high : i ≤ items.length) :
    itemAt? items (-i) = itemAt? items (items.length + 1 - i) := by
  rw [itemAt?_of_neg (show -i < 0 by omega) (by omega), itemAt?_of_pos (by omega)]
  congr 2
  omega

/-- No item changes if the index is held to the range of the indices. -/
theorem itemAt?_clamped (short : (items.length : ℤ) < mostIndex) (i : ℤ) :
    itemAt? items (max leastIndex (min mostIndex i)) = itemAt? items i := by
  by_cases inside : leastIndex ≤ i ∧ i ≤ mostIndex
  · rw [min_eq_right inside.2, max_eq_right inside.1]
  · have beyond : itemAt? items i = none := by
      rw [itemAt?_eq_none_iff]
      unfold leastIndex mostIndex at *
      grind
    have beyond' : itemAt? items (max leastIndex (min mostIndex i)) = none := by
      rw [itemAt?_eq_none_iff]
      unfold leastIndex mostIndex at *
      grind
    rw [beyond, beyond']

/-! Lists that are made from others -/

/-- The items of both values, one after the other. -/
structure Joins (a b joined : Value) : Prop where
  length : joined.items.length = a.items.length + b.items.length
  front : ∀ i : ℤ, 1 ≤ i → i ≤ a.items.length → itemAt? joined.items i = itemAt? a.items i
  back : ∀ i : ℤ, a.items.length < i → itemAt? joined.items i = itemAt? b.items (i - a.items.length)

/-- A value at the end of a list whose other items stay where they are. -/
structure Appends (list value appended : Value) : Prop where
  length : appended.items.length = list.items.length + 1
  last : itemAt? appended.items (-1) = some value
  kept : ∀ i : ℤ, 1 ≤ i → i ≤ list.items.length → itemAt? appended.items i = itemAt? list.items i

theorem itemAt?_append_left {more : List Value} (low : 1 ≤ i) (high : i ≤ items.length) :
    itemAt? (items ++ more) i = itemAt? items i := by
  rw [itemAt?_of_pos (by omega), itemAt?_of_pos (by omega), List.getElem?_append_left (by omega)]

theorem itemAt?_append_right {more : List Value} (beyond : items.length < i) :
    itemAt? (items ++ more) i = itemAt? more (i - items.length) := by
  rw [itemAt?_of_pos (by omega), itemAt?_of_pos (by omega), List.getElem?_append_right (by omega)]
  congr 1
  omega

theorem joins_of_items (made : joined.items = a.items ++ b.items) : Joins a b joined where
  length := by rw [made, List.length_append]
  front i low high := by rw [made, itemAt?_append_left low high]
  back i beyond := by rw [made, itemAt?_append_right beyond]

theorem appends_of_items (made : appended.items = list.items ++ [value]) : Appends list value appended where
  length := by rw [made, List.length_append, List.length_singleton]
  last := by
    rw [made, itemAt?_of_neg (by decide) (by simp)]
    simp
  kept i low high := by rw [made, itemAt?_append_left low high]

/-! Calls -/

theorem length_eq (has : call.Has [a]) : length call = .ok (.number (Number.ofNat a.items.length)) := by
  rw [length, has.required rfl]
  rfl

theorem nth_eq (short : (a.items.length : ℤ) < mostIndex) (whole : n.IsWhole i) (has : call.Has [a, .number n]) :
    nth call = match itemAt? a.items i with
      | some item => .ok item
      | none => .error (.invalidIndex (n.text call.places false)) := by
  rw [nth, has.required rfl, has.number rfl, ← itemAt?_clamped short, ← whole.indexOf_eq]
  change (match if n.isInt then itemAt? a.items (indexOf n) else none with
    | some item => Except.ok item
    | none => Except.error (BuiltinError.invalidIndex (n.text call.places false))) = _
  rw [whole.isInt, if_pos rfl]

theorem join_eq {separator : Option Separator} (first : call.get? 0 = some a) (second : call.get? 1 = some b)
    (named : call.separator? 2 = .ok separator) : ∃ joined, join call = .ok joined ∧ Joins a b joined := by
  rw [join, Call.required, Call.required, first, second, named]
  exact ⟨_, rfl, joins_of_items rfl⟩

theorem append_eq {separator : Option Separator} (first : call.get? 0 = some list) (second : call.get? 1 = some value)
    (named : call.separator? 2 = .ok separator) :
    ∃ appended, append call = .ok appended ∧ Appends list value appended := by
  rw [append, Call.required, Call.required, first, second, named]
  exact ⟨_, rfl, appends_of_items rfl⟩

/-- The value counts as equal to the item at a positive index. -/
def StandsIn (list value : Value) (i : ℤ) : Prop :=
  1 ≤ i ∧ ∃ item, itemAt? list.items i = some item ∧ (item == value) = true

theorem index_eq (has : call.Has [list, value]) :
    index call = .ok (match list.items.findIdx? (· == value) with
      | some i => .number (Number.ofNat (i + 1))
      | none => .null) := by
  rw [index, has.required rfl, has.required rfl]
  change (match list.items.findIdx? (· == value) with
    | some i => Except.ok (Value.number (Number.ofNat (i + 1)))
    | none => Except.ok Value.null) = _
  cases list.items.findIdx? (· == value) <;> rfl

theorem isLeast_index {k : ℕ} (found : list.items.findIdx? (· == value) = some k) :
    IsLeast {i | StandsIn list value i} ((k + 1 : ℕ) : ℤ) := by
  obtain ⟨inside, equal, least⟩ := List.findIdx?_eq_some_iff_getElem.1 found
  constructor
  · refine ⟨by omega, list.items[k], ?_, equal⟩
    rw [itemAt?_natCast, List.getElem?_eq_getElem inside]
  · rintro i ⟨low, item, known, equal'⟩
    by_contra before
    rw [itemAt?_of_pos (by omega)] at known
    obtain ⟨inside', rfl⟩ := List.getElem?_eq_some_iff.1 known
    exact least (i - 1).toNat (by omega) equal'

theorem not_equal_of_missing (missing : list.items.findIdx? (· == value) = none) {item : Value}
    (known : itemAt? list.items i = some item) : (item == value) = false :=
  List.findIdx?_eq_none_iff.1 missing item (mem_of_itemAt? known)

/-- All functions on lists see a value as the same list. What they count are whole numbers as long as doubles have them
exactly, and an index is one of them. -/
theorem list_functions_agree (a b : Value) :
    (∀ count : ℕ, count ≤ 2 ^ 53 → (Number.ofNat count).IsWhole count) ∧
    (∀ call : Call, call.Has [a] → length call = .ok (.number (Number.ofNat a.items.length))) ∧
    (∀ (call : Call) (n : Number) (i : ℤ), (a.items.length : ℤ) < mostIndex → n.IsWhole i → call.Has [a, .number n] →
      nth call = match itemAt? a.items i with
        | some item => .ok item
        | none => .error (.invalidIndex (n.text call.places false))) ∧
    (∀ i : ℤ, itemAt? a.items i = none ↔ i = 0 ∨ (a.items.length : ℤ) < |i|) ∧
    (∀ i : ℤ, 1 ≤ i → i ≤ a.items.length → itemAt? a.items (-i) = itemAt? a.items (a.items.length + 1 - i)) ∧
    (∀ (call : Call) (separator : Option Separator), call.get? 0 = some a → call.get? 1 = some b →
      call.separator? 2 = .ok separator →
      (∃ joined, join call = .ok joined ∧ Joins a b joined) ∧
      ∃ appended, append call = .ok appended ∧ Appends a b appended) ∧
    ∀ call : Call, call.Has [a, b] →
      (∃ i : ℕ, index call = .ok (.number (Number.ofNat i)) ∧ IsLeast {i | StandsIn a b i} i) ∨
      index call = .ok .null ∧ ∀ (i : ℤ) (item : Value), itemAt? a.items i = some item → (item == b) = false := by
  refine ⟨?_, ?_, ?_, itemAt?_eq_none_iff _, ?_, ?_, ?_⟩
  · exact fun count small => Number.isWhole_ofNat small
  · exact fun call has => length_eq has
  · exact fun call n i short whole has => nth_eq short whole has
  · exact fun i low high => itemAt?_neg low high
  · exact fun call separator first second named => ⟨join_eq first second named, append_eq first second named⟩
  · intro call has
    rw [index_eq has]
    cases found : a.items.findIdx? (· == b) with
    | some k => exact .inl ⟨k + 1, rfl, isLeast_index found⟩
    | none => exact .inr ⟨rfl, fun i item known => not_equal_of_missing found known⟩

/-- A map and a value that is no list. -/
theorem list_functions_agree_map :
    let map : Value := .map [(.unquoted "a", .unquoted "b"), (.unquoted "c", .unquoted "d")]
    let single : Value := .unquoted "e"
    (Number.ofNat 3).IsWhole 3 ∧
      nth ⟨["list", "n"], [map, .number (Number.ofNat 3)].map some, 10⟩ =
        .error (.invalidIndex ((Number.ofNat 3).text 10 false)) ∧
      ∃ joined, join ⟨["list1", "list2", "separator"], [map, single].map some, 10⟩ = .ok joined ∧
        joined.items.length = 3 ∧ itemAt? joined.items 3 = some single := by
  intro map single
  obtain ⟨exact, -, nths, -, -, makes, -⟩ := list_functions_agree map single
  have three : (Number.ofNat 3).IsWhole 3 := exact 3 (by decide)
  obtain ⟨joined, made, joins⟩ :=
    (makes ⟨["list1", "list2", "separator"], [map, single].map some, 10⟩ none rfl rfl rfl).1
  refine ⟨three, nths _ _ 3 (by decide) three (Call.has_map_some _ _ _), joined, made, joins.length, ?_⟩
  exact joins.back 3 (by decide)

end Stylesheet.Builtin
