import Mathlib.Data.List.Perm.Basic
import Mathlib.Tactic.Common
import Stylesheet.Number

/-! Products and quotients of units. Names that are convertible measure the same, and the exponent of what a name
measures is the number of such names above the line less the number of those below it. Cancelling takes one name from
above and one from below at a time, so it keeps all exponents; and since a name stays above only where none below is
convertible to it, and the names below only become fewer, nothing is left that could cancel. -/

namespace Stylesheet

/-- The names measure the same. -/
def Convertible (a b : String) : Prop := (conversion? a b).isSome = true

instance : DecidableRel Convertible := fun a b => inferInstanceAs (Decidable ((conversion? a b).isSome = true))

theorem convertible_iff {a b : String} : Convertible a b ↔ a = b ∨ ∃ quantity factor factor',
    Quantity.ofUnit? a = some (quantity, factor) ∧ Quantity.ofUnit? b = some (quantity, factor') := by
  unfold Convertible conversion?
  by_cases same : a = b
  · simp [same]
  · rw [if_neg same, or_iff_right same]
    cases Quantity.ofUnit? a with
    | none => simp
    | some first =>
      cases Quantity.ofUnit? b with
      | none => simp
      | some second =>
        obtain ⟨quantity, factor⟩ := first
        obtain ⟨quantity', factor'⟩ := second
        by_cases known : quantity = quantity'
        · simp [known]
        · simp [known, Ne.symm known]

/-- Names fall into classes. -/
theorem convertible_equivalence : Equivalence Convertible where
  refl name := convertible_iff.2 (.inl rfl)
  symm {a b} convertible := by
    rcases convertible_iff.1 convertible with rfl | ⟨quantity, factor, factor', first, second⟩
    · exact convertible
    · exact convertible_iff.2 (.inr ⟨quantity, factor', factor, second, first⟩)
  trans {a b c} front back := by
    rcases convertible_iff.1 front with rfl | ⟨quantity, factor, factor', first, second⟩
    · exact back
    · rcases convertible_iff.1 back with rfl | ⟨quantity', middle, last, known, third⟩
      · exact front
      · cases second.symm.trans known
        exact convertible_iff.2 (.inr ⟨quantity, factor, last, first, third⟩)

/-- Names of one class are convertible to the same names. -/
theorem Convertible.congr {a b : String} (convertible : Convertible a b) (name : String) :
    Convertible name a ↔ Convertible name b :=
  ⟨fun known => convertible_equivalence.trans known convertible,
    fun known => convertible_equivalence.trans known (convertible_equivalence.symm convertible)⟩

/-- How many of the names measure what `name` does. -/
def occurrences (name : String) (names : List String) : Nat := names.countP fun other => Convertible name other

theorem occurrences_append (name : String) (first second : List String) :
    occurrences name (first ++ second) = occurrences name first + occurrences name second := List.countP_append

theorem occurrences_cons (name other : String) (names : List String) :
    occurrences name (other :: names) = occurrences name names + if Convertible name other then 1 else 0 := by
  simp [occurrences, List.countP_cons]

theorem occurrences_perm {first second : List String} (perm : first.Perm second) (name : String) :
    occurrences name first = occurrences name second := perm.countP_eq _

theorem occurrences_pos {name : String} {names : List String} :
    0 < occurrences name names ↔ ∃ other ∈ names, Convertible name other := by
  simp [occurrences, List.countP_pos_iff]

namespace Units

/-- The exponent in a unit of what a name measures. -/
def exponent (unit : Units) (name : String) : Int := occurrences name unit.numer - occurrences name unit.denom

/-- A unit in lowest terms: no name above the line measures the same as one below it. -/
def Reduced (unit : Units) : Prop := ∀ above ∈ unit.numer, ∀ below ∈ unit.denom, ¬ Convertible above below

instance (unit : Units) : Decidable unit.Reduced :=
  inferInstanceAs (Decidable (∀ above ∈ unit.numer, ∀ below ∈ unit.denom, ¬ Convertible above below))

theorem reduced_of_denom {unit : Units} (whole : unit.denom = []) : unit.Reduced := by
  simp [Reduced, whole]

@[simp] theorem reduced_none : none.Reduced := reduced_of_denom rfl

@[simp] theorem reduced_single (name : String) : (single name).Reduced := by
  unfold single
  split
  · exact reduced_none
  · exact reduced_of_denom rfl

end Units

namespace Number

variable {name : String} {names denom left numer : List String} {factor : Float}

/-- What is taken out of a list is one name of the same class. -/
theorem cancel?_eq_some (found : cancel? name names = some (factor, left)) :
    ∃ other, Convertible name other ∧ names.Perm (other :: left) := by
  induction names generalizing left with
  | nil => cases found
  | cons other names later =>
    rw [cancel?] at found
    cases known : conversion? name other with
    | some multiplier =>
      rw [known] at found
      cases found
      exact ⟨other, by rw [Convertible, known]; rfl, .refl _⟩
    | none =>
      rw [known] at found
      obtain ⟨⟨multiplier, rest⟩, behind, same⟩ := Option.map_eq_some_iff.1 found
      cases same
      obtain ⟨partner, convertible, perm⟩ := later behind
      exact ⟨partner, convertible, (perm.cons other).trans (.swap partner other rest)⟩

theorem cancel?_eq_none (none : cancel? name names = none) : ∀ other ∈ names, ¬ Convertible name other := by
  induction names with
  | nil => simp
  | cons other names later =>
    rw [cancel?] at none
    cases known : conversion? name other with
    | some multiplier =>
      rw [known] at none
      cases none
    | none =>
      rw [known] at none
      have apart : ¬ Convertible name other := by
        rw [Convertible, known]
        exact Bool.false_ne_true
      exact List.forall_mem_cons.2 ⟨apart, later (Option.map_eq_none_iff.1 none)⟩

/-- By induction on the names above the line: each of them takes a name of its own class away from below, or stays. -/
theorem exponent_simplify (value : Float) (denom numer : List String) (name : String) :
    (simplify value denom numer).unit.exponent name = Units.exponent ⟨numer, denom⟩ name := by
  induction numer generalizing value denom with
  | nil => rfl
  | cons above numer later =>
    rw [simplify]
    cases found : cancel? above denom with
    | some cut =>
      obtain ⟨factor, left⟩ := cut
      obtain ⟨below, convertible, perm⟩ := cancel?_eq_some found
      have same := convertible.congr name
      dsimp only
      rw [later, Units.exponent, Units.exponent, occurrences_perm perm, occurrences_cons, occurrences_cons]
      simp only [same]
      omega
    | none =>
      have kept := later value denom
      unfold Units.exponent at kept ⊢
      dsimp only at kept ⊢
      rw [occurrences_cons, occurrences_cons]
      omega

theorem denom_simplify_subset (value : Float) (denom numer : List String) :
    (simplify value denom numer).unit.denom ⊆ denom := by
  induction numer generalizing value denom with
  | nil => exact List.Subset.refl denom
  | cons above numer later =>
    rw [simplify]
    cases found : cancel? above denom with
    | some cut =>
      obtain ⟨below, -, perm⟩ := cancel?_eq_some found
      exact List.Subset.trans (later _ _) (List.Subset.trans (List.subset_cons_self below cut.2) perm.symm.subset)
    | none => exact later value denom

/-- By induction on the names above the line. One that stays found no partner below, where no names are added later. -/
theorem reduced_simplify (value : Float) (denom numer : List String) : (simplify value denom numer).unit.Reduced := by
  induction numer generalizing value denom with
  | nil => exact nofun
  | cons above numer later =>
    rw [simplify]
    cases found : cancel? above denom with
    | some cut => exact later _ _
    | none =>
      have alone : ∀ below ∈ (simplify value denom numer).unit.denom, ¬ Convertible above below :=
        fun below member => cancel?_eq_none found below (denom_simplify_subset value denom numer member)
      exact List.forall_mem_cons.2 ⟨alone, later value denom⟩

variable (a b : Number)

theorem exponent_mul (name : String) :
    (a.mul b).unit.exponent name = a.unit.exponent name + b.unit.exponent name := by
  rw [mul, exponent_simplify]
  simp only [Units.exponent, occurrences_append]
  omega

theorem exponent_div (name : String) :
    (a.div b).unit.exponent name = a.unit.exponent name - b.unit.exponent name := by
  rw [div, exponent_simplify]
  simp only [Units.exponent, occurrences_append]
  omega

theorem reduced_mul : (a.mul b).unit.Reduced := reduced_simplify _ _ _

theorem reduced_div : (a.div b).unit.Reduced := reduced_simplify _ _ _

/-- A sum has the unit of one of its operands. -/
theorem unit_combine {op : Float → Float → Float} {a b sum : Number} (combined : combine op a b = .ok sum) :
    sum.unit = a.unit ∨ sum.unit = b.unit := by
  unfold combine at combined
  dsimp only at combined
  split at combined
  · cases combined
    dsimp only
    split
    · exact .inr rfl
    · exact .inl rfl
  · cases combined

end Number

end Stylesheet
