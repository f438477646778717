import Mathlib.Data.List.Forall2
import Stylesheet.Proofs.UnitCancelling

/-! Which units can be added and compared. Units are matched name by name, each with the one at its own place, so units
that are comparable have the same exponents. Units with the same exponents can always be reordered so that they are
comparable; as they stand they may not be, since a product keeps the order in which its factors were multiplied. -/

namespace Stylesheet

/-- The names at each place measure the same. -/
def Matching (first second : List String) : Prop := List.Forall₂ Convertible first second

theorem Matching.symm {first second : List String} (matching : Matching first second) : Matching second first :=
  matching.flip.imp fun _ _ => convertible_equivalence.symm

theorem Matching.refl (names : List String) : Matching names names :=
  List.forall₂_same.2 fun name _ => convertible_equivalence.refl name

theorem Matching.occurrences {first second : List String} (matching : Matching first second) (name : String) :
    occurrences name first = occurrences name second := by
  induction matching with
  | nil => rfl
  | cons convertible _ later =>
    have same := convertible.congr name
    simp only [occurrences_cons, later, same]

/-- By induction on the first list: each of its names takes a name of its class out of the second one. -/
theorem exists_matching {first second : List String}
    (same : ∀ name, occurrences name first = occurrences name second) :
    ∃ reordered, reordered.Perm second ∧ Matching first reordered := by
  induction first generalizing second with
  | nil =>
    have none : second = [] := by
      refine List.eq_nil_iff_forall_not_mem.2 fun name member => ?_
      have found := occurrences_pos.2 ⟨name, member, convertible_equivalence.refl name⟩
      rw [← same name] at found
      cases found
    exact ⟨[], by rw [none], .nil⟩
  | cons name first later =>
    have found : 0 < occurrences name second := by
      rw [← same name]
      exact occurrences_pos.2 ⟨name, List.mem_cons_self, convertible_equivalence.refl name⟩
    obtain ⟨partner, member, convertible⟩ := occurrences_pos.1 found
    have perm := List.perm_cons_erase member
    have others : ∀ other, occurrences other first = occurrences other (second.erase partner) := by
      intro other
      have counts := same other
      have kin := convertible.congr other
      rw [occurrences_perm perm, occurrences_cons, occurrences_cons] at counts
      simp only [kin] at counts
      omega
    obtain ⟨reordered, rest, matching⟩ := later others
    exact ⟨partner :: reordered, (rest.cons partner).trans perm.symm, .cons convertible matching⟩

/-- Among names of one class the order does not matter. -/
theorem Matching.of_uniform {first second reordered : List String} (perm : reordered.Perm second)
    (uniform : ∀ a ∈ first, ∀ b ∈ first, Convertible a b) (matching : Matching first reordered) :
    Matching first second := by
  have lengths : first.length = second.length := matching.length_eq.trans perm.length_eq
  refine List.forall₂_iff_get.2 ⟨lengths, fun i inside inside' => ?_⟩
  have member : second.get ⟨i, inside'⟩ ∈ reordered := perm.symm.subset (List.get_mem second ⟨i, inside'⟩)
  obtain ⟨⟨j, there⟩, same⟩ := List.mem_iff_get.1 member
  have there' : j < first.length := by rwa [matching.length_eq]
  have partner : Convertible (first.get ⟨j, there'⟩) (second.get ⟨i, inside'⟩) := same ▸ matching.get there' there
  exact convertible_equivalence.trans (uniform _ (List.get_mem first _) _ (List.get_mem first _)) partner

namespace Units

theorem isSome_factorAlong (combine : Float → Float → Float) (factor : Float) {first second : List String}
    (lengths : first.length = second.length) :
    (factorAlong combine factor first second).isSome = true ↔ Matching first second := by
  induction first generalizing factor second with
  | nil =>
    obtain rfl := List.eq_nil_of_length_eq_zero lengths.symm
    simp [factorAlong, Matching]
  | cons a first later =>
    obtain ⟨b, second, rfl⟩ := List.exists_cons_of_length_eq_add_one lengths.symm
    have lengths : first.length = second.length := Nat.succ.inj lengths
    rw [factorAlong, Matching, List.forall₂_cons, Convertible]
    cases conversion? a b with
    | none => simp
    | some step => simpa [Matching] using later (combine factor step) lengths

theorem isSome_factorTo? (u v : Units) :
    (u.factorTo? v).isSome = true ↔ Matching u.numer v.numer ∧ Matching u.denom v.denom := by
  unfold factorTo?
  by_cases same : u = v
  · subst same
    simp [Matching.refl]
  · rw [if_neg same]
    by_cases lengths : u.numer.length = v.numer.length ∧ u.denom.length = v.denom.length
    · rw [if_neg (by simp [lengths])]
      rw [← isSome_factorAlong (· * ·) 1 lengths.1]
      cases factorAlong (· * ·) 1 u.numer v.numer with
      | none => simp
      | some factor => simpa using isSome_factorAlong (· / ·) factor lengths.2
    · have differ : (u.numer.length != v.numer.length || u.denom.length != v.denom.length) = true := by
        rw [Bool.or_eq_true, bne_iff_ne, bne_iff_ne]
        exact Decidable.not_and_iff_or_not.1 lengths
      rw [if_pos differ]
      exact ⟨nofun, fun matching => absurd ⟨matching.1.length_eq, matching.2.length_eq⟩ lengths⟩

theorem comparable_iff {u v : Units} : u.comparable v = true ↔
    u.isNone = true ∨ v.isNone = true ∨ Matching u.numer v.numer ∧ Matching u.denom v.denom := by
  rw [comparable, Bool.or_eq_true, Bool.or_eq_true, or_assoc, isSome_factorTo?]

theorem comparable_comm (u v : Units) : u.comparable v = v.comparable u := by
  have swapped (a b : Units) (known : a.comparable b = true) : b.comparable a = true := by
    rcases comparable_iff.1 known with none | none | ⟨above, below⟩
    · exact comparable_iff.2 (.inr (.inl none))
    · exact comparable_iff.2 (.inl none)
    · exact comparable_iff.2 (.inr (.inr ⟨above.symm, below.symm⟩))
  exact Bool.eq_iff_iff.2 ⟨swapped u v, swapped v u⟩

theorem exponent_eq_of_matching {u v : Units} (above : Matching u.numer v.numer) (below : Matching u.denom v.denom)
    (name : String) : u.exponent name = v.exponent name := by
  rw [exponent, exponent, above.occurrences, below.occurrences]

/-- In lowest terms a class stands on one side of the line only. -/
theorem Reduced.occurrences_eq_zero {u : Units} (reduced : u.Reduced) (name : String) :
    occurrences name u.numer = 0 ∨ occurrences name u.denom = 0 := by
  by_contra both
  obtain ⟨some, some'⟩ := not_or.1 both
  obtain ⟨above, there, up⟩ := occurrences_pos.1 (Nat.pos_of_ne_zero some)
  obtain ⟨below, here, down⟩ := occurrences_pos.1 (Nat.pos_of_ne_zero some')
  exact reduced above there below here (convertible_equivalence.trans (convertible_equivalence.symm up) down)

/-- In lowest terms the exponents tell how many names of a class stand above the line and below it. -/
theorem Reduced.occurrences_eq {u v : Units} (first : u.Reduced) (second : v.Reduced)
    (same : ∀ name, u.exponent name = v.exponent name) (name : String) :
    occurrences name u.numer = occurrences name v.numer ∧ occurrences name u.denom = occurrences name v.denom := by
  have exponents := same name
  unfold exponent at exponents
  have oneSide := first.occurrences_eq_zero name
  have otherSide := second.occurrences_eq_zero name
  omega

end Units

namespace Number

variable {a b : Number}

/-- A number can be converted for an operation with another one when their units are comparable. -/
theorem isSome_valueIn? (n : Number) (target : Units) : (n.valueIn? target).isSome = n.unit.comparable target := by
  unfold valueIn? Units.comparable
  cases n.unit.isNone <;> cases target.isNone <;> simp

theorem isOk_compare (a b : Number) : (a.compare b).isOk = a.unit.comparable b.unit := by
  rw [Units.comparable_comm, ← isSome_valueIn?, compare]
  cases b.valueIn? a.unit <;> rfl

theorem isOk_combine (op : Float → Float → Float) (a b : Number) :
    (combine op a b).isOk = a.unit.comparable b.unit := by
  have converted : (b.valueIn? (if a.unit.isNone then b.unit else a.unit)).isSome = a.unit.comparable b.unit := by
    rw [isSome_valueIn?, Units.comparable_comm]
    cases empty : a.unit.isNone with
    | false => rfl
    | true =>
      rw [if_pos rfl]
      simp [Units.comparable, empty, Units.factorTo?]
  rw [← converted, combine]
  cases b.valueIn? (if a.unit.isNone then b.unit else a.unit) <;> rfl

end Number

namespace Units

/-- Numbers can be added and compared when their units are comparable, and this is symmetric. Comparable units have
the same exponents, unless one of them is empty. Units with the same exponents are comparable once the factors of one
are put in another order, and as they stand if all names above the line are of one class and all below it are. -/
theorem comparable_by_places {u v : Units} (first : u.Reduced) (second : v.Reduced) :
    (∀ x y op, (Number.combine op ⟨x, u⟩ ⟨y, v⟩).isOk = u.comparable v ∧
        (Number.compare ⟨x, u⟩ ⟨y, v⟩).isOk = u.comparable v) ∧
      u.comparable v = v.comparable u ∧
      (u.comparable v = true → u.isNone = true ∨ v.isNone = true ∨ ∀ name, u.exponent name = v.exponent name) ∧
      ((∀ name, u.exponent name = v.exponent name) →
        ∃ w : Units, w.numer.Perm v.numer ∧ w.denom.Perm v.denom ∧ u.comparable w = true) ∧
      ((∀ a ∈ u.numer, ∀ b ∈ u.numer, Convertible a b) → (∀ a ∈ u.denom, ∀ b ∈ u.denom, Convertible a b) →
        (u.comparable v = true ↔
          u.isNone = true ∨ v.isNone = true ∨ ∀ name, u.exponent name = v.exponent name)) := by
  have forward (known : u.comparable v = true) :
      u.isNone = true ∨ v.isNone = true ∨ ∀ name, u.exponent name = v.exponent name :=
    (comparable_iff.1 known).imp_right (Or.imp_right fun matching => exponent_eq_of_matching matching.1 matching.2)
  have reordered (same : ∀ name, u.exponent name = v.exponent name) : ∃ w : Units,
      w.numer.Perm v.numer ∧ w.denom.Perm v.denom ∧ Matching u.numer w.numer ∧ Matching u.denom w.denom := by
    obtain ⟨numer, above, matchAbove⟩ := exists_matching fun name => (first.occurrences_eq second same name).1
    obtain ⟨denom, below, matchBelow⟩ := exists_matching fun name => (first.occurrences_eq second same name).2
    exact ⟨⟨numer, denom⟩, above, below, matchAbove, matchBelow⟩
  refine ⟨fun x y op => ⟨Number.isOk_combine op ⟨x, u⟩ ⟨y, v⟩, Number.isOk_compare ⟨x, u⟩ ⟨y, v⟩⟩, comparable_comm u v,
    forward, fun same => ?_, fun uniform uniform' => ⟨forward, fun dimension => ?_⟩⟩
  · obtain ⟨w, above, below, matching⟩ := reordered same
    exact ⟨w, above, below, comparable_iff.2 (.inr (.inr matching))⟩
  · refine comparable_iff.2 (dimension.imp_right (Or.imp_right fun same => ?_))
    obtain ⟨w, above, below, matchAbove, matchBelow⟩ := reordered same
    exact ⟨matchAbove.of_uniform above uniform, matchBelow.of_uniform below uniform'⟩

/-- Areas over times, in different names and orders. -/
theorem comparable_by_places_area :
    let u : Units := ⟨["px", "cm"], ["s"]⟩
    let v : Units := ⟨["in", "Q"], ["ms"]⟩
    u.Reduced ∧ v.Reduced ∧ (u.comparable v = true ↔
      u.isNone = true ∨ v.isNone = true ∨ ∀ name, u.exponent name = v.exponent name) := by
  intro u v
  have first : u.Reduced := by decide +kernel
  have second : v.Reduced := by decide +kernel
  exact ⟨first, second, (comparable_by_places first second).2.2.2.2 (by decide +kernel) (by decide +kernel)⟩

end Units

/-- A product of two lengths has the same exponents as the product in the other order, but the two can neither be added
nor compared. -/
theorem Number.products_not_comparable :
    let a : Number := ⟨2, Units.single "px"⟩
    let b : Number := ⟨3, Units.single "em"⟩
    (a.mul b).unit.Reduced ∧ (b.mul a).unit.Reduced ∧
      (∀ name, (a.mul b).unit.exponent name = (b.mul a).unit.exponent name) ∧
      (a.mul b).unit.isNone = false ∧ (b.mul a).unit.isNone = false ∧
      (a.mul b).unit.comparable (b.mul a).unit = false ∧
      ((a.mul b).compare (b.mul a)).isOk = false ∧ ∀ op, (Number.combine op (a.mul b) (b.mul a)).isOk = false := by
  intro a b
  have apart : (a.mul b).unit.comparable (b.mul a).unit = false := by decide +kernel
  refine ⟨Number.reduced_mul a b, Number.reduced_mul b a, fun name => ?_, by decide +kernel, by decide +kernel, apart,
    ?_, fun op => ?_⟩
  · rw [Number.exponent_mul, Number.exponent_mul, Int.add_comm]
  · rw [Number.isOk_compare, apart]
  · rw [Number.isOk_combine, apart]

end Stylesheet
