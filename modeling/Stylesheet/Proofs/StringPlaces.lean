import Mathlib.Tactic.IntervalCases
import Stylesheet.Builtin.Strings
import Stylesheet.Proofs.WholeNumbers

/-! Places in a string. A slice is given by its first and its last place, which may be negative or lie outside the
string. Two slices that meet at a place make up the whole string, and the place at which a text is found is the first
one at which a slice is that text. -/

namespace Stylesheet.Builtin

variable {cs wanted : List Char} {first last k : ℤ} {i : ℕ}

/-! Slices -/

/-- Where a slice begins, counted from one. -/
def firstPlace (length first : ℤ) : ℤ := max 1 (if first < 0 then length + first + 1 else first)

/-- Where a slice ends. -/
def lastPlace (length last : ℤ) : ℤ := if last < 0 then length + last + 1 else min last length

/-- The items from one index up to another one, counted from zero; none if they are not in order or outside the list. -/
def range? {α : Type} (items : List α) (low high : ℤ) : Option (List α) :=
  if 0 ≤ low ∧ low ≤ high ∧ high ≤ items.length then some ((items.take high.toNat).drop low.toNat) else none

theorem slice_eq (cs : List Char) (first last : ℤ) :
    slice cs first last = (cs.drop (firstPlace cs.length first - 1).toNat).take
      (lastPlace cs.length last + 1 - firstPlace cs.length first).toNat := rfl

/-- A slice has nothing in it, or it takes a range of the characters that is within the string. -/
theorem range?_slice (cs : List Char) (first last : ℤ) :
    some (slice cs first last) =
      if lastPlace cs.length last < firstPlace cs.length first ∨ (cs.length : ℤ) < firstPlace cs.length first
      then some []
      else range? cs (firstPlace cs.length first - 1) (lastPlace cs.length last) := by
  have low : 1 ≤ firstPlace cs.length first := le_max_left _ _
  have high : lastPlace cs.length last ≤ cs.length := by
    unfold lastPlace
    split <;> omega
  rw [slice_eq]
  split
  · next empty =>
    congr 1
    rcases empty with less | beyond
    · rw [show (lastPlace cs.length last + 1 - firstPlace cs.length first).toNat = 0 by omega, List.take_zero]
    · rw [List.drop_eq_nil_of_le (by omega), List.take_nil]
  · next inside =>
    rw [range?, if_pos (by omega), List.drop_take]
    congr 2
    omega

/-- Two slices that meet make up the string. Behind the place `-1` no slice begins, as `0` is the beginning again. -/
theorem slice_append_slice (cs : List Char) (k : ℤ) (inside : k ≠ -1) :
    slice cs 1 k ++ slice cs (k + 1) cs.length = cs := by
  have whole : cs.take (lastPlace cs.length k).toNat ++ cs.drop (lastPlace cs.length k).toNat = cs :=
    List.take_append_drop _ _
  have front : slice cs 1 k = cs.take (lastPlace cs.length k).toNat := by
    rw [slice_eq, show firstPlace cs.length 1 = 1 from rfl, sub_self, Int.toNat_zero, List.drop_zero,
      add_sub_cancel_right]
  have back : slice cs (k + 1) cs.length = cs.drop (lastPlace cs.length k).toNat := by
    have meet : (firstPlace cs.length (k + 1) - 1).toNat = (lastPlace cs.length k).toNat ∨
        cs.length ≤ (firstPlace cs.length (k + 1) - 1).toNat ∧ cs.length ≤ (lastPlace cs.length k).toNat := by
      unfold firstPlace lastPlace
      split <;> split <;> omega
    have last : lastPlace cs.length cs.length = cs.length := by
      unfold lastPlace
      split <;> omega
    rw [slice_eq, last, List.take_of_length_le (by rw [List.length_drop]; omega)]
    obtain same | ⟨beyond, beyond'⟩ := meet
    · rw [same]
    · rw [List.drop_eq_nil_of_le beyond, List.drop_eq_nil_of_le beyond']
  rw [front, back, whole]

/-- A slice that is as long as a text is that text just if the text stands there. -/
theorem slice_eq_iff (low : 1 ≤ k) :
    slice cs k (k + wanted.length - 1) = wanted ↔ wanted <+: cs.drop (k - 1).toNat := by
  have first : firstPlace cs.length k = k := by
    unfold firstPlace
    split <;> omega
  have last : lastPlace cs.length (k + wanted.length - 1) = min (k + wanted.length - 1) cs.length := by
    unfold lastPlace
    split <;> omega
  have long : (cs.drop (k - 1).toNat).take (min (k + wanted.length - 1) cs.length + 1 - k).toNat =
      (cs.drop (k - 1).toNat).take wanted.length := by
    rw [List.take_eq_take_iff, List.length_drop]
    omega
  rw [slice_eq, first, last, long, List.prefix_iff_eq_take, eq_comm]

/-! Searching -/

theorem offsetOf?_eq_some (found : offsetOf? wanted cs = some i) :
    wanted <+: cs.drop i ∧ ∀ j < i, ¬ wanted <+: cs.drop j := by
  induction cs generalizing i with
  | nil =>
    rw [offsetOf?] at found
    split at found
    · next empty =>
      cases found
      exact ⟨List.isEmpty_iff.1 empty ▸ List.nil_prefix, nofun⟩
    · cases found
  | cons c rest later =>
    rw [offsetOf?] at found
    split at found
    · next here =>
      cases found
      exact ⟨List.isPrefixOf_iff_prefix.1 here, nofun⟩
    · next elsewhere =>
      obtain ⟨offset, behind, rfl⟩ := Option.map_eq_some_iff.1 found
      obtain ⟨stands, least⟩ := later behind
      refine ⟨stands, fun j before => ?_⟩
      cases j with
      | zero => exact fun here => elsewhere (List.isPrefixOf_iff_prefix.2 here)
      | succ j => exact least j (Nat.lt_of_succ_lt_succ before)

theorem offsetOf?_eq_none (missing : offsetOf? wanted cs = none) (j : ℕ) : ¬ wanted <+: cs.drop j := by
  induction cs generalizing j with
  | nil =>
    rw [offsetOf?] at missing
    split at missing
    · cases missing
    · next filled =>
      rw [List.drop_nil, List.prefix_nil]
      exact fun empty => filled (List.isEmpty_iff.2 empty)
  | cons c rest later =>
    rw [offsetOf?] at missing
    split at missing
    · cases missing
    · next elsewhere =>
      cases j with
      | zero => exact fun here => elsewhere (List.isPrefixOf_iff_prefix.2 here)
      | succ j => exact later (Option.map_eq_none_iff.1 missing) j

/-! Calls -/

variable {text part : String} {quoted quoted' : Bool} {call : Call} {low high : Number}

theorem strLength_eq (has : call.Has [.string text quoted]) :
    strLength call = .ok (.number (Number.ofNat text.length)) := by
  rw [strLength, has.string rfl]
  rfl

/-- No slice changes if its places are held to the range of the indices. -/
theorem slice_clamped (short : cs.length ≤ 2 ^ 53) (first last : ℤ) :
    slice cs (max leastIndex (min mostIndex first)) (max leastIndex (min mostIndex last)) = slice cs first last := by
  have low : firstPlace cs.length (max leastIndex (min mostIndex first)) = firstPlace cs.length first ∨
      (cs.length : ℤ) < firstPlace cs.length (max leastIndex (min mostIndex first)) ∧
        (cs.length : ℤ) < firstPlace cs.length first := by
    unfold firstPlace leastIndex mostIndex
    split <;> split <;> omega
  have high : lastPlace cs.length (max leastIndex (min mostIndex last)) = lastPlace cs.length last ∨
      lastPlace cs.length (max leastIndex (min mostIndex last)) < 1 ∧ lastPlace cs.length last < 1 := by
    unfold lastPlace leastIndex mostIndex
    split <;> split <;> omega
  have positive (first : ℤ) : 1 ≤ firstPlace cs.length first := le_max_left _ _
  rw [slice_eq, slice_eq]
  obtain same | ⟨beyond, beyond'⟩ := low
  · rw [same]
    obtain same' | ⟨before, before'⟩ := high
    · rw [same']
    · have := positive first
      congr 1
      omega
  · rw [List.drop_eq_nil_of_le (by omega), List.drop_eq_nil_of_le (by omega), List.take_nil, List.take_nil]

theorem strSlice_eq (short : text.length ≤ 2 ^ 53) (begins : low.IsWhole first) (ends : high.IsWhole last)
    (has : call.Has [.string text quoted, .number low, .number high]) :
    strSlice call = .ok (.string (String.ofList (slice text.toList first last)) quoted) := by
  rw [← slice_clamped (by rwa [String.length_toList]), ← begins.indexOf_eq, ← ends.indexOf_eq, strSlice, has.string rfl,
    has.number rfl, has.number rfl, has 2]
  rfl

/-- Without a last place the slice goes to the end. -/
theorem strSlice_eq_of_missing (short : text.length ≤ 2 ^ 53) (begins : low.IsWhole first)
    (has : call.Has [.string text quoted, .number low]) :
    strSlice call = .ok (.string (String.ofList (slice text.toList first text.length)) quoted) := by
  have inside : max leastIndex (min mostIndex text.length) = text.length := by
    unfold leastIndex mostIndex
    omega
  rw [← slice_clamped (by rwa [String.length_toList]), ← begins.indexOf_eq, inside, strSlice, has.string rfl,
    has.number rfl, has 2]
  rfl

theorem strIndex_eq (has : call.Has [.string text quoted, .string part quoted']) :
    strIndex call = .ok (match offsetOf? part.toList text.toList with
      | some offset => .number (Number.ofNat (offset + 1))
      | none => .null) := by
  rw [strIndex, has.string rfl, has.string rfl]
  change (match offsetOf? part.toList text.toList with
    | some offset => Except.ok (Value.number (Number.ofNat (offset + 1)))
    | none => Except.ok Value.null) = _
  cases offsetOf? part.toList text.toList <;> rfl

/-- The slice that begins at a place and is as long as a text is that text. -/
def StandsAt (text part : String) (place : ℤ) : Prop :=
  1 ≤ place ∧ String.ofList (slice text.toList place (place + part.length - 1)) = part

theorem standsAt_iff (text part : String) (place : ℤ) :
    StandsAt text part place ↔ 1 ≤ place ∧ part.toList <+: text.toList.drop (place - 1).toNat := by
  refine and_congr_right fun low => ?_
  rw [← slice_eq_iff low, String.length_toList, ← String.toList_inj, String.toList_ofList]

/-- A text that is found begins within the string, or both are empty. -/
theorem offsetOf?_lt (found : offsetOf? wanted cs = some i) : i < max 1 cs.length := by
  obtain ⟨stands, least⟩ := offsetOf?_eq_some found
  obtain rfl | positive := i.eq_zero_or_pos
  · omega
  · have filled : wanted ≠ [] := fun empty => least 0 positive (empty ▸ List.nil_prefix)
    have long := stands.length_le
    rw [List.length_drop] at long
    have := List.length_pos_iff.2 filled
    omega

theorem isLeast_place (found : offsetOf? part.toList text.toList = some i) :
    IsLeast {place | StandsAt text part place} ((i + 1 : ℕ) : ℤ) := by
  obtain ⟨stands, least⟩ := offsetOf?_eq_some found
  constructor
  · rw [Set.mem_ofPred_eq, standsAt_iff, Nat.cast_add_one, add_sub_cancel_right, Int.toNat_natCast]
    exact ⟨by omega, stands⟩
  · intro place stands'
    obtain ⟨low, stands'⟩ := (standsAt_iff _ _ _).1 stands'
    by_contra before
    exact least _ (by omega) stands'

/-- Slicing, searching and measuring agree on the places in a string, if all numbers are exact. A slice is the same for
all calls with the same places, keeps the quotes and takes no character that is not there. Two slices that meet make up
the string. A text is found at the first positive place at which a slice is that text, and nowhere if there is none. -/
theorem string_places (short : text.length ≤ 2 ^ 53) (short' : part.length ≤ 2 ^ 53) :
    (∀ (call : Call) (quoted : Bool) (low high : Number) (first last : ℤ), low.IsWhole first → high.IsWhole last →
      call.Has [.string text quoted, .number low, .number high] →
      strSlice call = .ok (.string (String.ofList (slice text.toList first last)) quoted)) ∧
    (∀ (call : Call) (quoted : Bool) (low : Number) (first : ℤ), low.IsWhole first →
      call.Has [.string text quoted, .number low] →
      strSlice call = .ok (.string (String.ofList (slice text.toList first text.length)) quoted)) ∧
    (∀ (call : Call) (quoted : Bool), call.Has [.string part quoted] →
      ∃ n : Number, strLength call = .ok (.number n) ∧ n.IsWhole part.length) ∧
    (∀ k : ℤ, k ≠ -1 →
      String.ofList (slice text.toList 1 k) ++ String.ofList (slice text.toList (k + 1) text.length) = text) ∧
    (∀ first last : ℤ, some (slice text.toList first last) =
      if lastPlace text.length last < firstPlace text.length first ∨ text.length < firstPlace text.length first
      then some []
      else range? text.toList (firstPlace text.length first - 1) (lastPlace text.length last)) ∧
    ∀ (call : Call) (quoted quoted' : Bool), call.Has [.string text quoted, .string part quoted'] →
      (∃ (n : Number) (i : ℤ), strIndex call = .ok (.number n) ∧ n.IsWhole i ∧
        IsLeast {place | StandsAt text part place} i) ∨
      strIndex call = .ok .null ∧ ∀ place, ¬ StandsAt text part place := by
  refine ⟨?_, ?_, ?_, ?_, ?_, ?_⟩
  · exact fun call quoted low high first last begins ends has => strSlice_eq short begins ends has
  · exact fun call quoted low first begins has => strSlice_eq_of_missing short begins has
  · exact fun call quoted has => ⟨_, strLength_eq has, Number.isWhole_ofNat short'⟩
  · intro k inside
    rw [← String.ofList_append, ← String.length_toList, slice_append_slice _ k inside, String.ofList_toList]
  · intro first last
    rw [range?_slice, String.length_toList]
  · intro call quoted quoted' has
    rw [strIndex_eq has]
    cases found : offsetOf? part.toList text.toList with
    | some offset =>
      have inside := offsetOf?_lt found
      rw [String.length_toList] at inside
      exact .inl ⟨_, _, rfl, Number.isWhole_ofNat (by omega), isLeast_place found⟩
    | none =>
      exact .inr ⟨rfl, fun place stands => offsetOf?_eq_none found _ ((standsAt_iff _ _ _).1 stands).2⟩

/-- The second to third character of a word, and a letter that stands there twice. -/
theorem string_places_hello :
    "hello".length ≤ 2 ^ 53 ∧ "l".length ≤ 2 ^ 53 ∧ (Number.ofNat 2).IsWhole 2 ∧ (Number.ofNat 3).IsWhole 3 ∧
    strSlice ⟨["string", "start-at", "end-at"],
      [.string "hello" true, .number (Number.ofNat 2), .number (Number.ofNat 3)].map some, 10⟩ =
        .ok (.string "el" true) ∧
    (∃ n : Number, strIndex ⟨["string", "substring"], [.string "hello" true, .string "l" false].map some, 10⟩ =
      .ok (.number n) ∧ n.IsWhole 3) ∧ IsLeast {place | StandsAt "hello" "l" place} 3 := by
  have short : "hello".length ≤ 2 ^ 53 := by decide
  have short' : "l".length ≤ 2 ^ 53 := by decide
  have two : (Number.ofNat 2).IsWhole 2 := Number.isWhole_ofNat (by decide)
  have three : (Number.ofNat 3).IsWhole 3 := Number.isWhole_ofNat (by decide)
  obtain ⟨slices, -, -, -, -, searches⟩ := string_places short short'
  have third : StandsAt "hello" "l" 3 := ⟨by decide, by decide⟩
  obtain ⟨n, i, found, whole, least⟩ | ⟨-, nowhere⟩ := searches _ _ _ (Call.has_map_some ["string", "substring"] _ 10)
  · have place : i = 3 := by
      have low := least.1.1
      have high := least.2 third
      interval_cases i
      · exact absurd least.1.2 (by decide)
      · exact absurd least.1.2 (by decide)
      · rfl
    refine ⟨short, short', two, three, ?_, ⟨n, found, place ▸ whole⟩, place ▸ least⟩
    exact slices _ _ _ _ _ _ two three (Call.has_map_some _ _ 10)
  · exact absurd third (nowhere 3)

end Stylesheet.Builtin
