import Mathlib.Data.List.Induction
import Stylesheet.Builtin.Lists

/-! Maps as lists of entries. Keys are compared with the equality of stylesheets, in which quotes do not matter, so two
keys can be equal and still be told apart. Where equality is an equivalence on the keys, a map that is built entry by
entry is a finite map: the last value of a key counts, and the key keeps the place and the spelling in which it came
first. -/

namespace Stylesheet.Value

/-- Equality is an equivalence on the values of a kind. -/
structure EquivalenceOn (kind : Value → Prop) : Prop where
  refl {a : Value} : kind a → (a == a) = true
  symm {a b : Value} : kind a → kind b → (a == b) = true → (b == a) = true
  trans {a b c : Value} : kind a → kind b → kind c → (a == b) = true → (b == c) = true → (a == c) = true

/-- All keys are of a kind. -/
def Keyed (kind : Value → Prop) (entries : List (Value × Value)) : Prop := ∀ key ∈ entries.map Prod.fst, kind key

/-- No value is equal to one behind it. -/
def Apart (values : List Value) : Prop := values.Pairwise fun earlier later => (earlier == later) = false

variable {kind : Value → Prop} {key key' value : Value} {entry : Value × Value}
  {entries first second : List (Value × Value)}

theorem beq_eq_same (a b : Value) : (a == b) = same a b := rfl

theorem keyed_nil : Keyed kind [] := List.forall_mem_nil kind

theorem keyed_cons : Keyed kind (entry :: entries) ↔ kind entry.1 ∧ Keyed kind entries := List.forall_mem_cons

theorem apart_concat {values : List Value} :
    Apart (values ++ [value]) ↔ Apart values ∧ ∀ earlier ∈ values, (earlier == value) = false := by
  simp [Apart, List.pairwise_append]

theorem lookup_cons (key key' value : Value) (entries : List (Value × Value)) :
    lookup key ((key', value) :: entries) = if key' == key then some value else lookup key entries := rfl

theorem lookup_append (key : Value) (first second : List (Value × Value)) :
    lookup key (first ++ second) = (lookup key first).or (lookup key second) := by
  induction first with
  | nil => rfl
  | cons entry first later =>
    rw [List.cons_append, lookup_cons, lookup_cons, later]
    split <;> rfl

theorem lookup_eq_find? (key : Value) (entries : List (Value × Value)) :
    lookup key entries = (entries.find? (·.1 == key)).map Prod.snd := by
  induction entries with
  | nil => rfl
  | cons entry entries later =>
    rw [lookup_cons, List.find?_cons, later]
    cases entry.1 == key <;> rfl

theorem lookup_eq_none : lookup key entries = none ↔ ∀ other ∈ entries.map Prod.fst, (other == key) = false := by
  rw [lookup_eq_find?, Option.map_eq_none_iff, List.find?_eq_none]
  simp

theorem exists_of_lookup (found : lookup key entries = some value) :
    ∃ entry ∈ entries, (entry.1 == key) = true ∧ entry.2 = value := by
  rw [lookup_eq_find?, Option.map_eq_some_iff] at found
  obtain ⟨entry, here, same⟩ := found
  have equal := List.find?_some here
  exact ⟨entry, List.mem_of_find?_eq_some here, equal, same⟩

/-- Among keys that are apart each leads to its own value. -/
theorem lookup_of_mem (apart : Apart (entries.map Prod.fst)) (same : (entry.1 == entry.1) = true)
    (member : entry ∈ entries) : lookup entry.1 entries = some entry.2 := by
  induction entries with
  | nil => cases member
  | cons head entries later =>
    obtain ⟨before, rest⟩ := List.pairwise_cons.1 apart
    rcases List.mem_cons.1 member with rfl | behind
    · rw [lookup_cons, if_pos same]
    · rw [lookup_cons, before entry.1 (List.mem_map_of_mem behind)]
      exact later rest behind

/-! Putting in an entry -/

/-- A key that is there already stays as it is spelled. -/
theorem keys_insert (key value : Value) (entries : List (Value × Value)) : (insert key value entries).map Prod.fst =
    if (lookup key entries).isSome then entries.map Prod.fst else entries.map Prod.fst ++ [key] := by
  induction entries with
  | nil => rfl
  | cons entry entries later =>
    rw [insert, lookup_cons]
    cases entry.1 == key with
    | true => rfl
    | false =>
      simp only [Bool.false_eq_true, if_false, List.map_cons, later]
      split <;> rfl

theorem Keyed.insert (keyed : Keyed kind entries) (known : kind key) (value : Value) :
    Keyed kind (Value.insert key value entries) := by
  rw [Keyed, keys_insert]
  split
  · exact keyed
  · exact List.forall_mem_append.2 ⟨keyed, List.forall_mem_singleton.2 known⟩

theorem Apart.insert (apart : Apart (entries.map Prod.fst)) (key value : Value) :
    Apart ((Value.insert key value entries).map Prod.fst) := by
  rw [keys_insert]
  split
  · exact apart
  · rename_i absent
    exact apart_concat.2 ⟨apart, lookup_eq_none.1 (Option.not_isSome_iff_eq_none.1 absent)⟩

theorem ofEntries_eq_merge (entries : List (Value × Value)) : ofEntries entries = Builtin.merge [] entries := rfl

theorem merge_cons (first second : List (Value × Value)) (entry : Value × Value) :
    Builtin.merge first (entry :: second) = Builtin.merge (insert entry.1 entry.2 first) second := rfl

theorem Keyed.merge (keyed : Keyed kind first) (keyed' : Keyed kind second) :
    Keyed kind (Builtin.merge first second) := by
  induction second generalizing first with
  | nil => exact keyed
  | cons entry second later =>
    obtain ⟨here, behind⟩ := keyed_cons.1 keyed'
    exact later (keyed.insert here entry.2) behind

theorem Keyed.ofEntries (keyed : Keyed kind entries) : Keyed kind (ofEntries entries) := keyed_nil.merge keyed

theorem Apart.merge (apart : Apart (first.map Prod.fst)) (second : List (Value × Value)) :
    Apart ((Builtin.merge first second).map Prod.fst) := by
  induction second generalizing first with
  | nil => exact apart
  | cons entry second later => exact later (apart.insert entry.1 entry.2)

theorem apart_nil : Apart (([] : List (Value × Value)).map Prod.fst) := List.Pairwise.nil

theorem apart_ofEntries (entries : List (Value × Value)) : Apart ((ofEntries entries).map Prod.fst) :=
  apart_nil.merge entries

/-! Keys of a kind on which equality is an equivalence -/

namespace EquivalenceOn

variable (equivalence : EquivalenceOn kind)
include equivalence

theorem congr {a b c : Value} (first : kind a) (second : kind b) (third : kind c) (same : (b == c) = true) :
    (a == b) = (a == c) :=
  Bool.eq_iff_iff.2 ⟨fun known => equivalence.trans first second third known same,
    fun known => equivalence.trans first third second known (equivalence.symm second third same)⟩

theorem comm {a b : Value} (first : kind a) (second : kind b) : (a == b) = (b == a) :=
  Bool.eq_iff_iff.2 ⟨equivalence.symm first second, equivalence.symm second first⟩

/-- Equal keys find the same. -/
theorem lookup_congr (keyed : Keyed kind entries) (known : kind key) (known' : kind key')
    (same : (key == key') = true) : lookup key entries = lookup key' entries := by
  induction entries with
  | nil => rfl
  | cons entry entries later =>
    obtain ⟨here, behind⟩ := keyed_cons.1 keyed
    rw [lookup_cons, lookup_cons, equivalence.congr here known known' same, later behind]

theorem lookup_insert (keyed : Keyed kind entries) (known : kind key) (known' : kind key') :
    lookup key' (insert key value entries) = if key == key' then some value else lookup key' entries := by
  induction entries with
  | nil => rfl
  | cons entry entries later =>
    obtain ⟨here, behind⟩ := keyed_cons.1 keyed
    rw [insert]
    by_cases there : (entry.1 == key) = true
    · -- The entry takes the new value, and whoever is equal to the one key is equal to the other.
      have both : (entry.1 == key') = (key == key') := by
        rw [equivalence.comm here known', equivalence.comm known known', equivalence.congr known' here known there]
      rw [if_pos there, lookup_cons, lookup_cons, both]
      split <;> rfl
    · rw [if_neg there, lookup_cons, lookup_cons, later behind]
      split
      · rename_i other
        have different : ¬(key == key') = true := fun same =>
          there (equivalence.trans here known' known other (equivalence.symm known known' same))
        rw [if_neg different]
      · rfl

/-- The entries put in come first, the last of them before the others. -/
theorem lookup_merge (keyed : Keyed kind first) (keyed' : Keyed kind second) (known : kind key) :
    lookup key (Builtin.merge first second) = (lookup key second.reverse).or (lookup key first) := by
  induction second generalizing first with
  | nil => rfl
  | cons entry second later =>
    obtain ⟨here, behind⟩ := keyed_cons.1 keyed'
    rw [merge_cons, later (keyed.insert here entry.2) behind, equivalence.lookup_insert keyed here known,
      List.reverse_cons, lookup_append, Option.or_assoc, lookup_cons]
    split <;> rfl

/-- Among keys that are apart it does not matter from which end one is looked for. -/
theorem lookup_reverse (keyed : Keyed kind entries) (apart : Apart (entries.map Prod.fst)) (known : kind key) :
    lookup key entries.reverse = lookup key entries := by
  induction entries with
  | nil => rfl
  | cons entry entries later =>
    obtain ⟨here, behind⟩ := keyed_cons.1 keyed
    obtain ⟨before, rest⟩ := List.pairwise_cons.1 apart
    rw [List.reverse_cons, lookup_append, later behind rest, lookup_cons, lookup_cons]
    by_cases same : (entry.1 == key) = true
    · have absent : lookup key entries = none := lookup_eq_none.2 fun other member =>
        Bool.eq_false_iff.2 fun found => by
          have different := before other member
          rw [equivalence.congr here (behind other member) known found, same] at different
          cases different
      rw [if_pos same, if_pos same, absent]
      rfl
    · rw [if_neg same, if_neg same]
      cases lookup key entries <;> rfl

/-- New keys go to the end in the order in which they come first, and stay as they are spelled there. -/
theorem keys_merge (keyed : Keyed kind first) (keyed' : Keyed kind second) : (Builtin.merge first second).map Prod.fst =
    first.map Prod.fst ++ ((second.map Prod.fst).filter fun key => (lookup key first).isNone).eraseDups := by
  induction second generalizing first with
  | nil => simp [Builtin.merge]
  | cons entry second later =>
    obtain ⟨here, behind⟩ := keyed_cons.1 keyed'
    have absent : ∀ key ∈ second.map Prod.fst, (lookup key (insert entry.1 entry.2 first)).isNone =
        ((lookup key first).isNone && !key == entry.1) := by
      intro key member
      rw [equivalence.lookup_insert keyed here (behind key member), equivalence.comm here (behind key member)]
      cases key == entry.1 <;> simp
    rw [merge_cons, later (keyed.insert here entry.2) behind, keys_insert, List.filter_congr absent, List.map_cons,
      List.filter_cons]
    cases present : lookup entry.1 first with
    | none =>
      have twice : ((second.map Prod.fst).filter fun key => (lookup key first).isNone && !key == entry.1) =
          ((second.map Prod.fst).filter fun key => (lookup key first).isNone).filter fun key => !key == entry.1 := by
        simp only [List.filter_filter, Bool.and_comm]
      simp only [Option.isSome_none, Option.isNone_none, Bool.false_eq_true, if_true, if_false]
      rw [List.eraseDups_cons, twice, List.append_assoc, List.singleton_append]
    | some value =>
      -- A key that is equal to the one given anew was there before.
      have unchanged : ∀ key ∈ second.map Prod.fst,
          ((lookup key first).isNone && !key == entry.1) = (lookup key first).isNone := by
        intro key member
        cases same : key == entry.1 with
        | false => simp
        | true => simp [equivalence.lookup_congr keyed (behind key member) here same, present]
      simp only [Option.isSome_some, Option.isNone_some, Bool.false_eq_true, if_true, if_false]
      rw [List.filter_congr unchanged]

theorem eraseDups_of_apart {keys : List Value} (keyed : ∀ key ∈ keys, kind key) (apart : Apart keys) :
    keys.eraseDups = keys := by
  induction keys with
  | nil => rfl
  | cons key keys later =>
    obtain ⟨here, behind⟩ := List.forall_mem_cons.1 keyed
    obtain ⟨before, rest⟩ := List.pairwise_cons.1 apart
    have others : keys.filter (fun other => !other == key) = keys := List.filter_eq_self.2 fun other member => by
      rw [equivalence.comm (behind other member) here, before other member]
      rfl
    rw [List.eraseDups_cons, others, later behind rest]

/-- A map built entry by entry has each key in the place and the spelling in which it came first. -/
theorem keys_ofEntries (keyed : Keyed kind entries) :
    (ofEntries entries).map Prod.fst = (entries.map Prod.fst).eraseDups := by
  have all : ((entries.map Prod.fst).filter fun key => (lookup key []).isNone) = entries.map Prod.fst :=
    List.filter_eq_self.2 fun _ _ => rfl
  rw [ofEntries_eq_merge, equivalence.keys_merge keyed_nil keyed, all]
  rfl

/-! Equality of maps -/

/-- Values that are apart and have partners among others are no more than these; if there are as many, then each of
the others is a partner. By induction on the values: each takes its partner out of the others. -/
theorem partners {values others : List Value} (known : ∀ value ∈ values, kind value)
    (known' : ∀ other ∈ others, kind other) (apart : Apart values)
    (found : ∀ value ∈ values, ∃ other ∈ others, (other == value) = true) :
    values.length ≤ others.length ∧
      (others.length ≤ values.length → ∀ other ∈ others, ∃ value ∈ values, (other == value) = true) := by
  induction values generalizing others with
  | nil =>
    refine ⟨Nat.zero_le _, fun short => ?_⟩
    rw [List.eq_nil_of_length_eq_zero (Nat.le_zero.1 short)]
    exact List.forall_mem_nil _
  | cons value values later =>
    obtain ⟨here, behind⟩ := List.forall_mem_cons.1 known
    obtain ⟨before, rest⟩ := List.pairwise_cons.1 apart
    obtain ⟨⟨partner, member, same⟩, found⟩ := List.forall_mem_cons.1 found
    obtain ⟨front, back, rfl⟩ := List.append_of_mem member
    have moved (other : Value) : other ∈ front ++ partner :: back ↔ other = partner ∨ other ∈ front ++ back := by
      simp [or_left_comm]
    have taken : ∀ next ∈ values, ∃ other ∈ front ++ back, (other == next) = true := by
      intro next there
      obtain ⟨other, member', same'⟩ := found next there
      rcases (moved other).1 member' with rfl | left
      · have both := equivalence.trans here (known' other member) (behind next there)
          (equivalence.symm (known' other member) here same) same'
        rw [before next there] at both
        cases both
      · exact ⟨other, left, same'⟩
    obtain ⟨fewer, onto⟩ := later behind (fun other left => known' other ((moved other).2 (.inr left))) rest taken
    simp only [List.length_append, List.length_cons] at fewer onto ⊢
    refine ⟨by omega, fun short other member' => ?_⟩
    rcases (moved other).1 member' with rfl | left
    · exact ⟨value, List.mem_cons_self, same⟩
    · obtain ⟨next, there, same'⟩ := onto (by omega) other left
      exact ⟨next, List.mem_cons_of_mem _ there, same'⟩

end EquivalenceOn

theorem holds_iff (key value : Value) (entries : List (Value × Value)) :
    holds key value entries = (lookup key entries == some value) := by
  induction entries with
  | nil => simp [holds, lookup]
  | cons entry entries later =>
    rw [holds, later, lookup_cons, ← beq_eq_same, ← beq_eq_same]
    split <;> rfl

theorem heldBy_iff (map entries : List (Value × Value)) :
    heldBy map entries = true ↔ ∀ entry ∈ entries, (lookup entry.1 map == some entry.2) = true := by
  induction entries with
  | nil => simp [heldBy]
  | cons entry entries later => rw [heldBy, Bool.and_eq_true, later, holds_iff, List.forall_mem_cons]

theorem same_map_iff (first second : List (Value × Value)) : (map first == map second) = true ↔
    first.length = second.length ∧ ∀ entry ∈ first, (lookup entry.1 second == some entry.2) = true := by
  rw [beq_eq_same, same, Bool.and_eq_true, beq_iff_eq, heldBy_iff]

/-- Keys that a map has are equal to keys of it. -/
theorem exists_partner (present : ∀ entry ∈ first, (lookup entry.1 second).isSome = true) :
    ∀ key ∈ first.map Prod.fst, ∃ other ∈ second.map Prod.fst, (other == key) = true := by
  refine List.forall_mem_map.2 fun entry member => ?_
  obtain ⟨value, looked⟩ := Option.isSome_iff_exists.1 (present entry member)
  obtain ⟨other, there, same, -⟩ := exists_of_lookup looked
  exact ⟨other.1, List.mem_map_of_mem there, same⟩

theorem beq_option_iff {a b : Option Value} : (a == b) = true ↔
    a = none ∧ b = none ∨ ∃ value value', a = some value ∧ b = some value' ∧ (value == value') = true := by
  cases a with
  | none => cases b <;> simp
  | some value => cases b <;> simp

theorem isSome_eq_of_beq {a b : Option Value} (agree : (a == b) = true) : a.isSome = b.isSome := by
  rcases beq_option_iff.1 agree with ⟨rfl, rfl⟩ | ⟨value, value', rfl, rfl, -⟩ <;> rfl

namespace EquivalenceOn

variable (equivalence : EquivalenceOn kind)
include equivalence

theorem lookup_own (keyed : Keyed kind entries) (apart : Apart (entries.map Prod.fst)) (member : entry ∈ entries) :
    lookup entry.1 entries = some entry.2 :=
  lookup_of_mem apart (equivalence.refl (keyed entry.1 (List.mem_map_of_mem member))) member

theorem length_le (keyed : Keyed kind first) (keyed' : Keyed kind second) (apart : Apart (first.map Prod.fst))
    (agree : ∀ key, kind key → (lookup key first).isSome = (lookup key second).isSome) :
    first.length ≤ second.length := by
  have present : ∀ entry ∈ first, (lookup entry.1 second).isSome = true := by
    intro entry member
    rw [← agree entry.1 (keyed entry.1 (List.mem_map_of_mem member)), equivalence.lookup_own keyed apart member]
    rfl
  simpa using (equivalence.partners keyed keyed' apart (exists_partner present)).1

/-- With as many keys as the first map, the second one cannot have any that the first one lacks. -/
theorem lookup_eq_none_of_present (keyed : Keyed kind first) (keyed' : Keyed kind second)
    (apart : Apart (first.map Prod.fst)) (lengths : first.length = second.length)
    (present : ∀ entry ∈ first, (lookup entry.1 second).isSome = true) (known : kind key)
    (missing : lookup key first = none) : lookup key second = none := by
  have onto := (equivalence.partners keyed keyed' apart (exists_partner present)).2 (by simp [lengths])
  refine lookup_eq_none.2 fun other member => Bool.eq_false_iff.2 fun same => ?_
  obtain ⟨partner, there, same'⟩ := onto other member
  have different := lookup_eq_none.1 missing partner there
  have both := equivalence.trans (keyed partner there) (keyed' other member) known
    (equivalence.symm (keyed' other member) (keyed partner there) same') same
  rw [both] at different
  cases different

/-- Two maps are equal when every key leads to equal values, or to none in both. -/
theorem same_map_iff_lookup (keyed : Keyed kind first) (keyed' : Keyed kind second)
    (apart : Apart (first.map Prod.fst)) (apart' : Apart (second.map Prod.fst)) :
    (map first == map second) = true ↔ ∀ key, kind key → (lookup key second == lookup key first) = true := by
  rw [same_map_iff]
  constructor
  · rintro ⟨lengths, each⟩ key known
    cases looked : lookup key first with
    | some value =>
      obtain ⟨entry, member, same, rfl⟩ := exists_of_lookup looked
      rw [← equivalence.lookup_congr keyed' (keyed entry.1 (List.mem_map_of_mem member)) known same]
      exact each entry member
    | none =>
      have present : ∀ entry ∈ first, (lookup entry.1 second).isSome = true := fun entry member =>
        isSome_eq_of_beq (each entry member)
      rw [equivalence.lookup_eq_none_of_present keyed keyed' apart lengths present known looked]
      rfl
  · intro agree
    have present (key : Value) (known : kind key) : (lookup key first).isSome = (lookup key second).isSome :=
      (isSome_eq_of_beq (agree key known)).symm
    refine ⟨Nat.le_antisymm (equivalence.length_le keyed keyed' apart present)
      (equivalence.length_le keyed' keyed apart' fun key known => (present key known).symm), fun entry member => ?_⟩
    rw [← equivalence.lookup_own keyed apart member]
    exact agree entry.1 (keyed entry.1 (List.mem_map_of_mem member))

end EquivalenceOn

/-! Keys that name things -/

/-- Strings, booleans and `null`. -/
inductive IsLabel : Value → Prop
  | string (text : String) (quoted : Bool) : IsLabel (string text quoted)
  | bool (b : Bool) : IsLabel (bool b)
  | null : IsLabel null

/-- A value without the quotes that do not matter when it is compared. -/
def bare : Value → Value
  | string text _ => string text false
  | other => other

theorem IsLabel.same_iff {a b : Value} (label : IsLabel a) : (a == b) = true ↔ a.bare = b.bare := by
  cases label <;> cases b <;> simp [beq_eq_same, same, bare]

theorem IsLabel.of_same {a b : Value} (label : IsLabel a) (equal : (a == b) = true) : IsLabel b := by
  have bare := label.same_iff.1 equal
  cases label <;> cases b <;> first | constructor | cases bare

theorem equivalenceOn_labels : EquivalenceOn IsLabel where
  refl label := label.same_iff.2 rfl
  symm label label' same := label'.same_iff.2 (label.same_iff.1 same).symm
  trans label label' _ same same' := label.same_iff.2 ((label.same_iff.1 same).trans (label'.same_iff.1 same'))

/-- No label is equal to another value, so nothing else is found in a map of labels. -/
theorem lookup_of_not_label (keyed : Keyed IsLabel entries) (other : ¬IsLabel key) : lookup key entries = none :=
  lookup_eq_none.2 fun label member => Bool.eq_false_iff.2 fun same => other ((keyed label member).of_same same)

theorem apart_getElem (apart : Apart (entries.map Prod.fst)) {i j : Nat} (inside : i < entries.length)
    (inside' : j < entries.length) (before : i < j) : (entries[i].1 == entries[j].1) = false := by
  have each := List.pairwise_iff_getElem.1 apart i j (by simpa using inside) (by simpa using inside') before
  simpa using each

theorem index_of_same (keyed : Keyed IsLabel entries) (apart : Apart (entries.map Prod.fst)) {i j : Nat}
    (inside : i < entries.length) (inside' : j < entries.length) (same : (entries[i].1 == entries[j].1) = true) :
    i = j := by
  rcases Nat.lt_trichotomy i j with before | here | behind
  · have different := apart_getElem apart inside inside' before
    rw [same] at different
    cases different
  · exact here
  · have different := apart_getElem apart inside' inside behind
    have label := keyed _ (List.mem_map_of_mem (List.getElem_mem inside))
    have label' := keyed _ (List.mem_map_of_mem (List.getElem_mem inside'))
    rw [equivalenceOn_labels.comm label' label, same] at different
    cases different

/-- A key leads to what was inserted last for a key equal to it, whether it is a label or not. -/
theorem lookup_inserted {inserted : List (Value × Value)} (labels : Keyed IsLabel inserted) (key : Value) :
    lookup key (ofEntries inserted) = (inserted.findRev? (·.1 == key)).map Prod.snd := by
  rw [List.findRev?_eq_find?_reverse, ← lookup_eq_find?]
  by_cases label : IsLabel key
  · exact (equivalenceOn_labels.lookup_merge keyed_nil labels label).trans (Option.or_none)
  · have reversed : Keyed IsLabel inserted.reverse := fun other member => labels other (by simpa using member)
    rw [lookup_of_not_label labels.ofEntries label, lookup_of_not_label reversed label]

theorem lookup_merged (keyed : Keyed IsLabel first) (keyed' : Keyed IsLabel second)
    (apart' : Apart (second.map Prod.fst)) (key : Value) :
    lookup key (Builtin.merge first second) = (lookup key second).or (lookup key first) := by
  by_cases label : IsLabel key
  · rw [equivalenceOn_labels.lookup_merge keyed keyed' label, equivalenceOn_labels.lookup_reverse keyed' apart' label]
  · rw [lookup_of_not_label (keyed.merge keyed') label, lookup_of_not_label keyed label,
      lookup_of_not_label keyed' label]
    rfl

/-- Maps of labels are finite maps in the order of insertion. Whatever was inserted into the maps `a` and `b`, no two
keys are equal, a key leads to the last value inserted for a key equal to it, and the keys stand in the order in which
they were inserted first. The merged map is looked up in `b` first and then in `a`, and keeps the keys of `a` followed
by the new ones of `b`. Two maps are equal when they agree on every key. -/
theorem finite_maps (inserted inserted' : List (Value × Value)) (labels : Keyed IsLabel inserted)
    (labels' : Keyed IsLabel inserted') :
    let a := ofEntries inserted
    let b := ofEntries inserted'
    (∀ i j, (_ : i < a.length) → (_ : j < a.length) → (a[i].1 == a[j].1) = true → i = j) ∧
      (∀ key, lookup key a = (inserted.findRev? (·.1 == key)).map Prod.snd) ∧
      a.map Prod.fst = (inserted.map Prod.fst).eraseDups ∧
      (∃ merged, (∀ parameters places,
          Builtin.mapMerge ⟨parameters, [some (map a), some (map b)], places⟩ = .ok (map merged)) ∧
        (∀ key, lookup key merged = (lookup key b).or (lookup key a)) ∧
        merged.map Prod.fst = a.map Prod.fst ++ (b.map Prod.fst).filter fun key => (lookup key a).isNone) ∧
      ((map a == map b) = true ↔ ∀ key, (lookup key b == lookup key a) = true) := by
  intro a b
  have equivalence := equivalenceOn_labels
  have keyed : Keyed IsLabel a := labels.ofEntries
  have keyed' : Keyed IsLabel b := labels'.ofEntries
  have apart : Apart (a.map Prod.fst) := apart_ofEntries inserted
  have apart' : Apart (b.map Prod.fst) := apart_ofEntries inserted'
  refine ⟨fun i j inside inside' => index_of_same keyed apart inside inside', lookup_inserted labels,
    equivalence.keys_ofEntries labels, ⟨Builtin.merge a b, fun _ _ => rfl, lookup_merged keyed keyed' apart', ?_⟩, ?_⟩
  · have filtered : Apart ((b.map Prod.fst).filter fun key => (lookup key a).isNone) := apart'.filter _
    rw [equivalence.keys_merge keyed keyed',
      equivalence.eraseDups_of_apart (fun key member => keyed' key ((List.mem_filter.1 member).1)) filtered]
  · rw [equivalence.same_map_iff_lookup keyed keyed' apart apart']
    refine ⟨fun agree key => ?_, fun agree key _ => agree key⟩
    by_cases label : IsLabel key
    · exact agree key label
    · rw [lookup_of_not_label keyed label, lookup_of_not_label keyed' label]
      rfl

/-- A key that is given again in quotes, and a map with another key that is new. -/
theorem finite_maps_quoted :
    let inserted := [(unquoted "a", bool true), (null, unquoted "x"), (string "a" true, bool false)]
    let inserted' := [(bool true, null), (null, unquoted "y")]
    Keyed IsLabel inserted ∧ Keyed IsLabel inserted' ∧
      ofEntries inserted = [(unquoted "a", bool false), (null, unquoted "x")] ∧
      ∃ merged, (∀ parameters places, Builtin.mapMerge
          ⟨parameters, [some (map (ofEntries inserted)), some (map (ofEntries inserted'))], places⟩ =
            .ok (map merged)) ∧
        lookup (string "a" true) merged = some (bool false) ∧ lookup null merged = some (unquoted "y") := by
  intro inserted inserted'
  have labels : Keyed IsLabel inserted := by simp [inserted, Keyed, unquoted, IsLabel.string, IsLabel.null]
  have labels' : Keyed IsLabel inserted' := by simp [inserted', Keyed, IsLabel.bool, IsLabel.null]
  obtain ⟨merged, ran, looked, -⟩ := (finite_maps inserted inserted' labels labels').2.2.2.1
  have built : ofEntries inserted = [(unquoted "a", bool false), (null, unquoted "x")] := by
    simp [inserted, ofEntries, insert, beq_eq_same, same, unquoted]
  have built' : ofEntries inserted' = inserted' := by
    simp [inserted', ofEntries, insert, beq_eq_same, same]
  refine ⟨labels, labels', built, merged, ran, ?_, ?_⟩
  · rw [looked, built, built']
    simp [inserted', lookup, beq_eq_same, same, unquoted]
  · rw [looked, built, built']
    simp [inserted', lookup, beq_eq_same, same]

end Stylesheet.Value
