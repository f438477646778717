import Mathlib.Algebra.Order.Round
import Mathlib.Data.Rat.Floor
import Mathlib.Tactic.Linarith
import Stylesheet.Proofs.Context
import Stylesheet.Proofs.ImportedText

/-! The rounds of a counting loop. A bound is accepted when it is nearly a whole number, and then cut to a whole number.
Which of the two neighbours that is depends on the side from which the bound comes near: a bound that is a little too
small counts as the whole number before the one it stands for. -/

namespace Stylesheet

/-- The whole number next to a value on the side of zero. -/
def truncated (q : ℚ) : ℤ := if q < 0 then ⌈q⌉ else ⌊q⌋

theorem abs_truncated_le (q : ℚ) : |(truncated q : ℚ)| ≤ |q| := by
  unfold truncated
  split
  · next below =>
    have ceil := Int.ceil_le.2 (show q ≤ ((0 : ℤ) : ℚ) by exact_mod_cast below.le)
    have ceil' : (⌈q⌉ : ℚ) ≤ 0 := by exact_mod_cast ceil
    rw [abs_of_nonpos ceil', abs_of_neg below]
    linarith [Int.le_ceil q]
  · next above =>
    have floor := Int.floor_nonneg.2 (not_lt.1 above)
    have floor' : (0 : ℚ) ≤ ⌊q⌋ := by exact_mod_cast floor
    rw [abs_of_nonneg floor', abs_of_nonneg (not_lt.1 above)]
    exact Int.floor_le q

/-- Cutting gives the nearest whole number just when that is no further from zero. -/
theorem truncated_eq_round_iff (q : ℚ) : truncated q = round q ↔ |(round q : ℚ)| ≤ |q| := by
  refine ⟨fun same => same ▸ abs_truncated_le q, fun near => ?_⟩
  have close := abs_sub_round q
  rw [abs_le] at close
  unfold truncated
  split
  · next below =>
    rw [abs_of_neg below, abs_le] at near
    rw [Int.ceil_eq_iff]
    constructor <;> linarith
  · next above =>
    rw [abs_of_nonneg (not_lt.1 above), abs_le] at near
    rw [Int.floor_eq_iff]
    constructor <;> linarith

/-! Doubles as exact values -/

namespace Decimal

variable {x : Float}

/-- The value that the three fields of a finite double stand for. -/
def Binary.value (b : Binary) : ℚ := (if b.negative then -1 else 1) * (b.mantissa * (2 : ℚ) ^ b.exponent)

/-- The value of a finite double, without any rounding. -/
def exact (x : Float) : ℚ := (Binary.ofFloat x).value

theorem Binary.divide_whole (b : Binary) : (b.divide.1 : ℤ) = ⌊(b.mantissa * (2 : ℚ) ^ b.exponent : ℚ)⌋ := by
  unfold Binary.divide
  cases b.exponent with
  | ofNat e =>
    have whole : (b.mantissa * (2 : ℚ) ^ Int.ofNat e : ℚ) = ((b.mantissa * Nat.pow 2 e : ℕ) : ℚ) := by
      rw [Int.ofNat_eq_natCast, zpow_natCast, Nat.pow_eq]
      push_cast
      rfl
    rw [whole, Int.floor_natCast]
  | negSucc e =>
    have quotient : (b.mantissa * (2 : ℚ) ^ Int.negSucc e : ℚ) = (b.mantissa : ℚ) / (Nat.pow 2 (e + 1) : ℕ) := by
      rw [zpow_negSucc, Nat.pow_eq]
      push_cast
      rfl
    rw [quotient, Rat.floor_natCast_div_natCast]
    rfl

theorem Binary.truncated_value (b : Binary) :
    truncated b.value = if b.negative then -(b.divide.1 : ℤ) else b.divide.1 := by
  have magnitude : (0 : ℚ) ≤ b.mantissa * (2 : ℚ) ^ b.exponent :=
    mul_nonneg (Nat.cast_nonneg _) (zpow_nonneg zero_le_two _)
  rw [b.divide_whole, Binary.value, truncated]
  cases b.negative with
  | false =>
    simp only [Bool.false_eq_true, if_false, one_mul]
    rw [if_neg (not_lt.2 magnitude)]
  | true =>
    simp only [if_true, neg_mul, one_mul, Int.ceil_neg]
    split
    · rfl
    · next zero =>
      have nothing : (b.mantissa * (2 : ℚ) ^ b.exponent : ℚ) = 0 := by linarith
      simp [nothing]

/-- Between the bounds that a double is held to, only the cut counts. -/
theorem toInt_eq (finite : isFinite x = true) {limit : ℕ} (inside : |exact x| < limit) :
    toInt (-limit) (limit - 1) x = truncated (exact x) := by
  have within := (abs_truncated_le (exact x)).trans_lt inside
  have within' : |truncated (exact x)| < limit := by exact_mod_cast within
  rw [abs_lt] at within'
  obtain ⟨number, bounded⟩ : x.isNaN = false ∧ x.isInf = false := by simpa [isFinite] using finite
  rw [toInt, number, bounded, if_neg Bool.false_ne_true, if_neg Bool.false_ne_true]
  dsimp only
  rw [← Binary.truncated_value, ← exact]
  omega

open Float.Model

/-- The difference of what is infinite or not a number and itself is not a number. -/
theorem sub_self_of_infinite (infinite : isFinite x = false) : x - x = Float.ofModel (pack .notANumber) := by
  change Float.ofModel (pack (UnpackedFloat.sub Format.binary64 x.toModel.unpack x.toModel.unpack)) = _
  have kind : (!(x.toModel.unpack.isNaN || x.toModel.unpack.isInf)) = false := infinite
  congr 2
  cases known : x.toModel.unpack with
  | infinity sign => cases sign <;> rfl
  | notANumber => rfl
  | zero | finite => rw [known] at kind; cases kind

/-- What is not a number is less than nothing. -/
theorem not_abs_lt {bound : Float} : ¬ (Float.ofModel (pack .notANumber)).abs < bound := by
  have nan : (Float.ofModel (pack .notANumber)).abs.toModel.unpack.isNaN = true := by decide +kernel
  change ¬ ((Float.ofModel (pack .notANumber)).abs.toModel.unpack.compare bound.toModel.unpack == some .lt) = true
  cases known : (Float.ofModel (pack .notANumber)).abs.toModel.unpack with
  | notANumber => exact Bool.false_ne_true
  | infinity | zero | finite => rw [known] at nan; cases nan

end Decimal

open Decimal (exact isFinite Binary toInt_eq sub_self_of_infinite not_abs_lt)

/-- Only finite values are accepted as bounds. -/
theorem Number.isFinite_of_isInt {n : Number} (accepted : n.isInt = true) : isFinite n.value = true := by
  by_contra infinite
  rw [Bool.not_eq_true] at infinite
  have rounded : Decimal.round n.value = n.value := by rw [Decimal.round, infinite, if_neg Bool.false_ne_true]
  rw [isInt, rounded, sub_self_of_infinite infinite] at accepted
  exact not_abs_lt (of_decide_eq_true accepted)

namespace Evaluation
open Evaluator

variable {environment : Environment} {self : Evaluator} {name : String} {first last expr : Expr} {unit : Units}
  {inclusive : Bool} {body : List Statement} {bound low high : Number} {before middle opened after : State}

/-- The whole numbers between two bounds, in the direction from the first to the last one. -/
structure Visits (first last : Int) (inclusive : Bool) (visits : List Int) : Prop where
  mem_iff : ∀ i, i ∈ visits ↔ (first ≤ i ∧ i ≤ last ∨ last ≤ i ∧ i ≤ first) ∧ (i = last → inclusive = true)
  ordered : if first ≤ last then visits.Pairwise (· < ·) else visits.Pairwise (· > ·)

/-- A loop runs a round for each item, one after the other, until a round gives a value or fails. There is no other
round. -/
inductive Rounds {α β : Type} (round : α → Eval (Option β)) (environment : Environment) :
    List α → State → Except Failure (Option β) × State → Prop
  | finished (state : State) : Rounds round environment [] state (.ok none, state)
  | next {item : α} {rest : List α} {before between : State} {outcome : Except Failure (Option β) × State}
      (ran : Yields (round item) environment before none between)
      (later : Rounds round environment rest between outcome) : Rounds round environment (item :: rest) before outcome
  | returned {item : α} {rest : List α} {before after : State} {value : β}
      (ran : Yields (round item) environment before (some value) after) :
      Rounds round environment (item :: rest) before (.ok (some value), after)
  | failed {item : α} {rest : List α} {before after : State} {failure : Failure}
      (ran : (round item).outcome environment before = (.error failure, after)) :
      Rounds round environment (item :: rest) before (.error failure, after)

def Evaluator.Range.visits (range : Range) : List Int :=
  (List.range range.count).map fun k : Nat => range.first + range.step * k

theorem visits_between (first last : Int) (inclusive : Bool) :
    Visits first last inclusive (Range.between first last inclusive).visits := by
  constructor
  · intro i
    simp only [Range.visits, Range.between, List.mem_map, List.mem_range]
    constructor
    · rintro ⟨k, before, rfl⟩
      split <;> cases inclusive <;> simp_all <;> omega
    · rintro ⟨within, excluded⟩
      refine ⟨(i - first).natAbs, ?_, ?_⟩
      · cases inclusive <;> simp at * <;> omega
      · split <;> omega
  · simp only [Range.visits, Range.between, List.pairwise_map]
    split
    · exact List.pairwise_lt_range.imp fun less => by omega
    · exact List.pairwise_lt_range.imp fun less => by omega

/-- By induction on the number of rounds. -/
theorem rounds_countFrom (step : Int) (count : Nat) (next : Int) (before : State) :
    Rounds (fun i => self.innerBlock [(name, .number ⟨Float.ofInt i, unit⟩)] body) environment
      (Range.visits ⟨next, step, count⟩) before
      ((self.countFrom name unit body step count next).outcome environment before) := by
  induction count generalizing next before with
  | zero => exact .finished before
  | succ count later =>
    have visits : Range.visits ⟨next, step, count + 1⟩ = next :: Range.visits ⟨next + step, step, count⟩ := by
      simp only [Range.visits, List.range_succ_eq_map, List.map_cons, List.map_map, Nat.cast_zero, mul_zero, add_zero]
      congr 1
      refine List.map_congr_left fun k _ => ?_
      simp only [Function.comp_apply, Nat.succ_eq_add_one]
      push_cast
      ring
    rw [visits, countFrom, outcome_bind]
    rcases ran : (self.innerBlock [(name, .number ⟨Float.ofInt next, unit⟩)] body).outcome environment before with
      ⟨_ | none | value, between⟩
    · exact .failed ran
    · exact .next ran (later (next + step) between)
    · exact .returned ran

theorem isInt_of_yields_integer (accepted : Yields (self.integer expr) environment before bound after) :
    bound.isInt = true := by
  obtain ⟨value, between, -, accepted⟩ := yields_bind.1 accepted
  dsimp only at accepted
  split at accepted
  · split at accepted
    · next isInt =>
      obtain ⟨rfl, -⟩ := yields_pure.1 accepted
      exact isInt
    · simp at accepted
  · simp at accepted

/-- A bound is cut to a whole number, as long as it is not out of all reach. -/
theorem bound_eq (accepted : bound.isInt = true) (small : |exact bound.value| < 2 ^ 127) :
    Evaluator.bound bound = truncated (exact bound.value) := by
  have limit : |exact bound.value| < (2 ^ 127 : ℕ) := by exact_mod_cast small
  exact toInt_eq (Number.isFinite_of_isInt accepted) limit

/-- The rounds of a loop whose bounds are accepted: one for each whole number from the first to the last, up or down, where
both are cut to whole numbers. Cutting gives the whole number that is nearest to a bound exactly if that is no further from
zero than the bound. -/
theorem forRange_visits_between (opens : Yields (self.integer first) environment before low middle)
    (closes : Yields (self.integer last) environment middle high opened)
    (small : |exact low.value| < 2 ^ 127) (small' : |exact high.value| < 2 ^ 127) :
    ∃ visits, Visits (truncated (exact low.value)) (truncated (exact high.value)) inclusive visits ∧
      Rounds (fun i => self.innerBlock [(name, .number ⟨Float.ofInt i, low.unit⟩)] body) environment visits opened
        ((self.forRange name first last inclusive body).outcome environment before) ∧
      ∀ bound ∈ [low, high], truncated (exact bound.value) = round (exact bound.value) ↔
        |(round (exact bound.value) : ℚ)| ≤ |exact bound.value| := by
  refine ⟨_, visits_between _ _ inclusive, ?_, fun bound _ => truncated_eq_round_iff _⟩
  rw [forRange, opens.bind, closes.bind, ← bound_eq (isInt_of_yields_integer opens) small,
    ← bound_eq (isInt_of_yields_integer closes) small']
  exact rounds_countFrom _ _ _ _

/-- The bounds of a loop that is all of a stylesheet. -/
def loopBounds? : List Statement → Option (Number × Number)
  | [.forRange _ _ (.literal (.number low)) (.literal (.number high)) _ _] => some (low, high)
  | _ => none

def shortText : String := "@for $i from 1 through 2.99999999999 \x7b a \x7b b: $i \x7d \x7d"

def shortSheet : Sheet := { sheetOf (statementsOf shortText "stdin") with source := shortText }

def nearlyThree : Number := .unitless 2.99999999999

theorem yields_integer_literal (accepted : bound.isInt = true) :
    Yields ((evaluator 3).integer (.literal (.number bound))) environment before bound before := by
  rw [integer, yields_bind]
  refine ⟨.number bound, before, rfl, ?_⟩
  dsimp only
  rw [if_pos accepted, yields_pure]
  exact ⟨rfl, rfl⟩

theorem exact_three : exact 3 = 3 := by
  have fields : Binary.ofFloat 3 = ⟨false, 3 * 2 ^ 51, -51⟩ := by decide +kernel
  rw [exact, fields]
  norm_num [Binary.value]

theorem exact_one : exact 1 = 1 := by
  have fields : Binary.ofFloat 1 = ⟨false, 2 ^ 52, -52⟩ := by decide +kernel
  rw [exact, fields]
  norm_num [Binary.value]

def threePixels : Number := ⟨3, .single "px"⟩

/-- Down to one, which is left out. -/
theorem forRange_visits_down :
    Yields ((evaluator 3).integer (.literal (.number threePixels))) plainEnvironment (.start shortSheet) threePixels
        (.start shortSheet) ∧
      Yields ((evaluator 3).integer (.literal (.number (.unitless 1)))) plainEnvironment (.start shortSheet)
        (.unitless 1) (.start shortSheet) ∧
      |exact 3| < 2 ^ 127 ∧ |exact 1| < 2 ^ 127 ∧
      ∃ visits, Visits 3 1 false visits ∧
        Rounds (fun i => (evaluator 3).innerBlock [("i", .number ⟨Float.ofInt i, .single "px"⟩)] shortSheet.statements)
          plainEnvironment visits (.start shortSheet)
          (((evaluator 3).forRange "i" (.literal (.number threePixels)) (.literal (.number (.unitless 1))) false
            shortSheet.statements).outcome plainEnvironment (.start shortSheet)) := by
  have opens : Yields ((evaluator 3).integer (.literal (.number threePixels))) plainEnvironment (.start shortSheet)
      threePixels (.start shortSheet) := yields_integer_literal (by decide +kernel)
  have closes : Yields ((evaluator 3).integer (.literal (.number (.unitless 1)))) plainEnvironment (.start shortSheet)
      (.unitless 1) (.start shortSheet) := yields_integer_literal (by decide +kernel)
  have small : |exact 3| < 2 ^ 127 := by rw [exact_three]; norm_num
  have small' : |exact 1| < 2 ^ 127 := by rw [exact_one]; norm_num
  obtain ⟨visits, visited, rounds, -⟩ := @forRange_visits_between plainEnvironment (evaluator 3) "i" _ _ false
    shortSheet.statements _ _ _ _ _ opens closes small small'
  have first : truncated (exact 3) = 3 := by rw [exact_three]; decide +kernel
  have last : truncated (exact 1) = 1 := by rw [exact_one]; decide +kernel
  rw [show threePixels.value = 3 from rfl, show (Number.unitless 1).value = 1 from rfl, first, last] at visited
  exact ⟨opens, closes, small, small', visits, visited, rounds⟩

/-- The second bound is nearest to three and counts as two. -/
theorem forRange_misses_last :
    loopBounds? (statementsOf shortText "stdin") = some (.unitless 1, nearlyThree) ∧ nearlyThree.isInt = true ∧
      round (exact nearlyThree.value) = 3 ∧ (evaluate plainEnvironment shortSheet).1.isOk = true ∧
      ((evaluate plainEnvironment shortSheet).2.tree.write ⟨.compressed, 5, "", "", false⟩).toOption.map (·.css) =
        some "a\x7bb:1\x7da\x7bb:2\x7d" := by
  have fields : Binary.ofFloat nearlyThree.value = ⟨false, 6755399441033226, -51⟩ := by decide +kernel
  refine ⟨by decide +kernel, by decide +kernel, ?_, by decide +kernel, by decide +kernel⟩
  rw [exact, fields, round_eq, Int.floor_eq_iff]
  norm_num [Binary.value]

end Evaluation

end Stylesheet
