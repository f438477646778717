import Mathlib.Algebra.Order.Field.Rat
import Mathlib.Data.List.DropRight
import Mathlib.Tactic.FieldSimp
import Mathlib.Tactic.Ring
import Stylesheet.Decimal

/-! The text of a number. A number is written with a fixed number of places first, and that text is shortened: zeros at
the end of the fraction go, and so do a point that nothing stands behind and the sign of a zero. None of this changes
the number that is denoted, and what is left is determined by that number. -/

namespace Stylesheet.Decimal

variable {cs cs' : List Char} {places more : Nat} {compressed : Bool} {x y : Float}

/-! Digits -/

theorem natOfDigits_concat (cs : List Char) (c : Char) :
    natOfDigits (cs ++ [c]) = 10 * natOfDigits cs + (c.toNat - '0'.toNat) := by
  rw [natOfDigits, List.foldl_concat, natOfDigits]

theorem natOfDigits_append (front back : List Char) :
    natOfDigits (front ++ back) = natOfDigits front * 10 ^ back.length + natOfDigits back := by
  induction back using List.reverseRecOn with
  | nil => simp [natOfDigits]
  | append_singleton back c shorter =>
    rw [← List.append_assoc, natOfDigits_concat, shorter, natOfDigits_concat, List.length_append, List.length_singleton]
    ring

theorem natOfDigits_zeros (count : Nat) : natOfDigits (List.replicate count '0') = 0 := by
  induction count with
  | zero => rfl
  | succ count fewer =>
    rw [List.replicate_succ', natOfDigits_concat, fewer]
    rfl

/-- Zeros in front do not count. -/
theorem natOfDigits_padded (count : Nat) (cs : List Char) :
    natOfDigits (List.replicate count '0' ++ cs) = natOfDigits cs := by
  rw [natOfDigits_append, natOfDigits_zeros, Nat.zero_mul, Nat.zero_add]

/-- Each zero at the end counts ten times. -/
theorem natOfDigits_extended (cs : List Char) (count : Nat) :
    natOfDigits (cs ++ List.replicate count '0') = natOfDigits cs * 10 ^ count := by
  rw [natOfDigits_append, natOfDigits_zeros, List.length_replicate, Nat.add_zero]

theorem digit_bounds {c : Char} (digit : c.isDigit = true) : 48 ≤ c.toNat ∧ c.toNat ≤ 57 := by
  simpa [Char.isDigit, Char.le_def, UInt32.le_iff_toNat_le] using digit

theorem natOfDigits_lt (digits : ∀ c ∈ cs, c.isDigit = true) : natOfDigits cs < 10 ^ cs.length := by
  induction cs using List.reverseRecOn with
  | nil => exact Nat.one_pos
  | append_singleton cs c shorter =>
    have front := shorter fun c member => digits c (List.mem_append_left _ member)
    have last := digit_bounds (digits c (List.mem_append_right _ (.head _)))
    rw [natOfDigits_concat, List.length_append, List.length_singleton, Nat.pow_succ]
    simp only [Char.reduceToNat]
    omega

/-- As many digits of the same number are the same digits. -/
theorem eq_of_natOfDigits_eq (digits : ∀ c ∈ cs, c.isDigit = true) (digits' : ∀ c ∈ cs', c.isDigit = true)
    (long : cs.length = cs'.length) (same : natOfDigits cs = natOfDigits cs') : cs = cs' := by
  induction cs using List.reverseRecOn generalizing cs' with
  | nil => exact (List.length_eq_zero_iff.1 long.symm).symm
  | append_singleton cs c shorter =>
    obtain rfl | ⟨front, last, rfl⟩ := cs'.eq_nil_or_concat'
    · simp at long
    · have here := digit_bounds (digits c (List.mem_append_right _ (.head _)))
      have here' := digit_bounds (digits' last (List.mem_append_right _ (.head _)))
      rw [natOfDigits_concat, natOfDigits_concat] at same
      simp only [Char.reduceToNat] at same
      have fronts := shorter (fun c member => digits c (List.mem_append_left _ member))
        (fun c member => digits' c (List.mem_append_left _ member)) (by simpa using long) (by omega)
      rw [fronts, Char.toNat_inj.1 (show c.toNat = last.toNat by omega)]

/-- A number of more than one digit does not begin with a zero. -/
theorem toDigits_lead {value : Nat} {rest : List Char} (starts : Nat.toDigits 10 value = '0' :: rest) : rest = [] := by
  by_contra longer
  have positive : 0 < rest.length := List.length_pos_iff.2 longer
  have digits : ∀ c ∈ rest, c.isDigit = true := fun c member =>
    Nat.isDigit_of_mem_toDigits (by decide) (by decide) (starts ▸ List.mem_cons_of_mem _ member)
  have small : value < 10 ^ rest.length := by
    have all := Nat.ofDigitChars_ten_toDigits (n := value)
    rw [starts] at all
    change natOfDigits (List.replicate 1 '0' ++ rest) = value at all
    rw [natOfDigits_padded] at all
    exact all ▸ natOfDigits_lt digits
  have short := (Nat.length_toDigits_le_iff (by decide) positive).2 small
  rw [starts, List.length_cons] at short
  omega

/-! Literals -/

namespace Literal

/-- A literal as it is written if it has no exponent. Without a fraction there is no point. -/
def text (literal : Literal) : List Char :=
  (if literal.negative then ['-'] else []) ++ literal.whole ++
    (if literal.fraction = [] then [] else '.' :: literal.fraction)

/-- The number that a literal denotes, without any rounding. -/
def value (literal : Literal) : ℚ :=
  (if literal.negative then -1 else 1) * natOfDigits (literal.whole ++ literal.fraction) *
    (10 : ℚ) ^ (literal.exponent - literal.fraction.length)

/-- Digits with or without a point, and no exponent. -/
structure IsPlain (literal : Literal) : Prop where
  digits : ∀ c ∈ literal.whole ++ literal.fraction, c.isDigit = true
  nonempty : literal.whole ++ literal.fraction ≠ []
  exponent : literal.exponent = 0

/-- A number with a fixed number of places: at least one digit before the point and no zero that is not needed there. -/
structure IsFixed (places : Nat) (literal : Literal) : Prop extends literal.IsPlain where
  whole : literal.whole ≠ []
  lead : ∀ rest, literal.whole = '0' :: rest → rest = []
  places : literal.fraction.length = places

variable {literal : Literal}

/-- What stands behind the sign. -/
def body (literal : Literal) : List Char :=
  literal.whole ++ (if literal.fraction = [] then [] else '.' :: literal.fraction)

theorem text_eq (literal : Literal) : literal.text = (if literal.negative then ['-'] else []) ++ literal.body :=
  List.append_assoc _ _ _

theorem IsPlain.head_body (plain : literal.IsPlain) :
    ∃ c rest, literal.body = c :: rest ∧ c ≠ '-' ∧ c ≠ '+' := by
  rw [body]
  cases known : literal.whole with
  | nil =>
    have filled : literal.fraction ≠ [] := fun empty => plain.nonempty (by rw [known, empty, List.append_nil])
    rw [if_neg filled]
    exact ⟨'.', literal.fraction, rfl, by decide, by decide⟩
  | cons c rest =>
    have bounds := digit_bounds (plain.digits c (by rw [known]; exact .head _))
    refine ⟨c, _, rfl, ?_, ?_⟩
    · rintro rfl
      exact absurd bounds.1 (by decide)
    · rintro rfl
      exact absurd bounds.1 (by decide)

/-- The digits before the point, and what is left behind them. -/
theorem IsPlain.cut_whole (plain : literal.IsPlain) : literal.body.takeWhile Char.isDigit = literal.whole ∧
    literal.body.dropWhile Char.isDigit = if literal.fraction = [] then [] else '.' :: literal.fraction := by
  have digits := (List.forall_mem_append.1 plain.digits).1
  rw [body, List.takeWhile_append_of_pos digits, List.dropWhile_append_of_pos digits]
  split
  · simp
  · simp [show '.'.isDigit = false from rfl]

/-- A literal is read from its own text. -/
theorem read?_text (plain : literal.IsPlain) : read? literal.text = some literal := by
  obtain ⟨c, rest, starts, noMinus, noPlus⟩ := plain.head_body
  have plus : ∀ rest, literal.body ≠ '+' :: rest := by simp [starts, noPlus]
  have minus : ∀ rest, literal.body ≠ '-' :: rest := by simp [starts, noMinus]
  obtain ⟨whole, behind⟩ := plain.cut_whole
  have fraction := List.takeWhile_eq_self_iff.2 (List.forall_mem_append.1 plain.digits).2
  have ended := List.dropWhile_eq_nil_iff.2 (List.forall_mem_append.1 plain.digits).2
  have filled : (literal.whole.isEmpty && literal.fraction.isEmpty) = false := by simpa using plain.nonempty
  have signed : read? literal.text = some ⟨literal.negative, literal.whole, literal.fraction, 0⟩ := by
    rw [text_eq]
    cases literal.negative with
    | true =>
      simp only [if_true, List.cons_append, List.nil_append, read?, whole, behind]
      by_cases short : literal.fraction = []
      · simp only [short, if_true] at filled ⊢
        simp only [filled, Bool.false_eq_true, if_false]
      · simp only [short, fraction, ended, filled, Bool.false_eq_true, if_false]
    | false =>
      simp only [Bool.false_eq_true, if_false, List.nil_append, read?.eq_3 _ minus plus, whole, behind]
      by_cases short : literal.fraction = []
      · simp only [short, if_true] at filled ⊢
        simp only [filled, Bool.false_eq_true, if_false]
      · simp only [short, fraction, ended, filled, Bool.false_eq_true, if_false]
  rw [signed, ← plain.exponent]

/-! Shortening -/

/-- A literal without what is not needed: zeros at the end of the fraction, the sign of a zero, and in a compressed text
the zero before the point. -/
def shortened (compressed : Bool) (literal : Literal) : Literal :=
  let fraction := literal.fraction.rdropWhile (· == '0')
  { negative := literal.negative && !(literal.whole == ['0'] && fraction.isEmpty)
    whole := if compressed && (literal.whole == ['0'] && !fraction.isEmpty) then [] else literal.whole
    fraction
    exponent := literal.exponent }

end Literal

/-- Zeros at the end go if they stand behind a point, and so does a point that nothing stands behind. -/
def withoutZeros (digits : List Char) : List Char :=
  if digits.contains '.' then
    let kept := (digits.reverse.dropWhile (· == '0')).reverse
    if kept.getLast? = some '.' then kept.dropLast else kept
  else digits

/-- A zero has no sign. -/
def withoutSign (digits : List Char) : List Char := if digits = ['-', '0'] then ['0'] else digits

/-- A compressed text has no zero before the point. -/
def withoutLead : List Char → List Char
  | '0' :: '.' :: rest => '.' :: rest
  | '-' :: '0' :: '.' :: rest => '-' :: '.' :: rest
  | other => other

theorem format_of_finite (finite : isFinite x = true) (places : Nat) (compressed : Bool) :
    format x places compressed =
      let short := withoutSign (withoutZeros (fixed x places))
      if compressed then withoutLead short else short := by
  obtain ⟨number, bounded⟩ : x.isNaN = false ∧ x.isInf = false := by simpa [isFinite] using finite
  rw [format, number, bounded]
  rfl

namespace Literal

variable {literal : Literal}

theorem rdropWhile_point (front fraction : List Char) :
    (front ++ '.' :: fraction).rdropWhile (· == '0') = front ++ '.' :: fraction.rdropWhile (· == '0') := by
  induction fraction using List.reverseRecOn with
  | nil => exact List.rdropWhile_concat_neg _ _ _ (by decide)
  | append_singleton fraction c shorter =>
    rw [← List.cons_append, ← List.append_assoc, List.rdropWhile_concat, List.rdropWhile_concat, shorter]
    split <;> simp

theorem IsPlain.point_notMem (plain : literal.IsPlain) : '.' ∉ literal.whole ++ literal.fraction :=
  fun member => absurd (plain.digits '.' member) (by decide)

/-- Zeros behind the point go, and with the last of them the point. -/
theorem withoutZeros_text (plain : literal.IsPlain) :
    withoutZeros literal.text = { literal with fraction := literal.fraction.rdropWhile (· == '0') }.text := by
  obtain ⟨noWhole, noFraction⟩ := not_or.1 (mt List.mem_append.2 plain.point_notMem)
  unfold withoutZeros
  by_cases short : literal.fraction = []
  · have pointless : literal.text.contains '.' = false := by
      rw [text, short]
      split <;> simp [noWhole]
    rw [pointless]
    simp [text, short]
  · have point : literal.text.contains '.' = true := by simp [text, short]
    have kept : (literal.text.reverse.dropWhile (· == '0')).reverse =
        (if literal.negative then ['-'] else []) ++ literal.whole ++
          '.' :: literal.fraction.rdropWhile (· == '0') := by
      rw [text, if_neg short]
      exact rdropWhile_point _ _
    rw [point, if_pos rfl, kept, text]
    dsimp only
    cases left : literal.fraction.rdropWhile (· == '0') using List.reverseRecOn with
    | nil => simp
    | append_singleton front last =>
      have member : last ∈ literal.fraction :=
        (List.rdropWhile_prefix _ _).subset (left ▸ List.mem_append_right _ (.head _))
      have digit : last ≠ '.' := fun same => noFraction (same ▸ member)
      rw [← List.cons_append, ← List.append_assoc, List.getLast?_concat]
      simp [digit]

/-- With fewer places a number is still written in the same manner. -/
theorem IsFixed.withFraction {fraction : List Char} (fixed : literal.IsFixed places)
    (part : fraction ⊆ literal.fraction) :
    { literal with fraction }.IsFixed fraction.length where
  digits := List.forall_mem_append.2 ⟨(List.forall_mem_append.1 fixed.digits).1, fun c member =>
    (List.forall_mem_append.1 fixed.digits).2 c (part member)⟩
  nonempty := by simp [fixed.whole]
  exponent := fixed.exponent
  whole := fixed.whole
  lead := fixed.lead
  places := rfl

theorem IsFixed.withSign (fixed : literal.IsFixed places) (negative : Bool) :
    { literal with negative }.IsFixed places where
  digits := fixed.digits
  nonempty := fixed.nonempty
  exponent := fixed.exponent
  whole := fixed.whole
  lead := fixed.lead
  places := fixed.places

/-- The digits before the point are a zero, or they begin with another digit. -/
theorem IsFixed.whole_cases (fixed : literal.IsFixed places) :
    literal.whole = ['0'] ∨ ∃ c rest, literal.whole = c :: rest ∧ c ≠ '0' ∧ c ≠ '-' := by
  obtain ⟨c, rest, whole⟩ := List.exists_cons_of_ne_nil fixed.whole
  by_cases zero : c = '0'
  · subst zero
    exact .inl (fixed.lead rest whole ▸ whole)
  · have bounds := digit_bounds (fixed.digits c (List.mem_append_left _ (whole ▸ .head _)))
    refine .inr ⟨c, rest, whole, zero, ?_⟩
    rintro rfl
    exact absurd bounds.1 (by decide)

theorem IsFixed.withoutSign_text (fixed : literal.IsFixed places) :
    withoutSign literal.text =
      { literal with negative := literal.negative && !(literal.whole == ['0'] && literal.fraction.isEmpty) }.text := by
  unfold withoutSign text
  obtain whole | ⟨c, rest, whole, noZero, noSign⟩ := fixed.whole_cases
  · by_cases short : literal.fraction = [] <;> cases literal.negative <;> simp [whole, short]
  · cases literal.negative <;> simp [whole, noZero, noSign]

theorem IsFixed.withoutLead_text (fixed : literal.IsFixed places) :
    withoutLead literal.text =
      { literal with
        whole := if literal.whole == ['0'] && !literal.fraction.isEmpty then [] else literal.whole }.text := by
  unfold text
  obtain whole | ⟨c, rest, whole, noZero, noSign⟩ := fixed.whole_cases
  · by_cases short : literal.fraction = [] <;> cases literal.negative <;> simp [whole, short, withoutLead]
  · cases literal.negative <;> simp [whole, noZero, noSign, withoutLead]

theorem IsFixed.shortened_text (fixed : literal.IsFixed places) (compressed : Bool) :
    (let short := withoutSign (withoutZeros literal.text)
    if compressed then withoutLead short else short) = (literal.shortened compressed).text := by
  have shorter := fixed.withFraction (List.rdropWhile_prefix (· == '0') _).subset
  rw [withoutZeros_text fixed.toIsPlain, shorter.withoutSign_text]
  cases compressed with
  | false => rfl
  | true =>
    dsimp only
    rw [if_pos rfl, (shorter.withSign _).withoutLead_text]
    rfl

theorem IsFixed.plain_shortened (fixed : literal.IsFixed places) (compressed : Bool) :
    (literal.shortened compressed).IsPlain := by
  have shorter := fixed.withFraction (List.rdropWhile_prefix (· == '0') _).subset
  obtain ⟨whole, fraction⟩ := List.forall_mem_append.1 shorter.digits
  refine ⟨List.forall_mem_append.2 ⟨?_, fraction⟩, ?_, fixed.exponent⟩
  · dsimp only [shortened]
    split
    · exact nofun
    · exact whole
  · dsimp only [shortened]
    split
    · next dropped => simp at dropped; simp [dropped]
    · simp [fixed.whole]

/-- The zeros at the end of a fraction are all that is dropped. -/
theorem exists_zeros (fraction : List Char) :
    ∃ count, fraction = fraction.rdropWhile (· == '0') ++ List.replicate count '0' := by
  induction fraction using List.reverseRecOn with
  | nil => exact ⟨0, rfl⟩
  | append_singleton fraction c shorter =>
    rw [List.rdropWhile_concat]
    split
    · next zero =>
      obtain ⟨count, same⟩ := shorter
      refine ⟨count + 1, ?_⟩
      rw [List.replicate_succ', ← List.append_assoc, ← same, eq_of_beq zero]
    · exact ⟨0, (List.append_nil _).symm⟩

theorem rdropWhile_zeros (fraction : List Char) (count : Nat) :
    (fraction ++ List.replicate count '0').rdropWhile (· == '0') = fraction.rdropWhile (· == '0') := by
  induction count with
  | zero => rw [List.replicate_zero, List.append_nil]
  | succ count fewer =>
    rw [List.replicate_succ', ← List.append_assoc, List.rdropWhile_concat_pos _ _ _ (by rfl), fewer]

/-- The digits of a number with more places, all of which are zeros. -/
theorem value_extended (literal : Literal) (noExponent : literal.exponent = 0) (count : Nat) :
    literal.value = (if literal.negative then -1 else 1) *
      natOfDigits (literal.whole ++ literal.fraction ++ List.replicate count '0') /
        (10 : ℚ) ^ (literal.fraction.length + count) := by
  rw [value, noExponent, zero_sub, zpow_neg, zpow_natCast, natOfDigits_extended, pow_add]
  push_cast
  field_simp

theorem value_withFraction (plain : literal.IsPlain) :
    { literal with fraction := literal.fraction.rdropWhile (· == '0') }.value = literal.value := by
  obtain ⟨count, same⟩ := exists_zeros literal.fraction
  have long := congrArg List.length same
  rw [List.length_append, List.length_replicate] at long
  have extended := value_extended { literal with fraction := literal.fraction.rdropWhile (· == '0') }
    plain.exponent count
  dsimp only at extended
  rw [extended, value_extended literal plain.exponent 0, List.append_assoc, ← same, ← long, List.replicate_zero,
    List.append_nil, Nat.add_zero]

theorem IsFixed.value_shortened (fixed : literal.IsFixed places) (compressed : Bool) :
    (literal.shortened compressed).value = literal.value := by
  rw [← value_withFraction fixed.toIsPlain]
  unfold value shortened
  dsimp only
  have zero (cs : List Char) : natOfDigits ('0' :: cs) = natOfDigits cs := natOfDigits_padded 1 cs
  by_cases whole : literal.whole = ['0']
  · cases literal.fraction.rdropWhile (· == '0') with
    | nil => simp [whole, natOfDigits]
    | cons c rest => cases compressed <;> simp [whole, zero]
  · simp [whole]

/-- A number that begins with another digit than a zero is not small. -/
theorem le_natOfDigits {c : Char} {rest : List Char} (digits : ∀ d ∈ c :: rest, d.isDigit = true) (first : c ≠ '0') :
    10 ^ rest.length ≤ natOfDigits (c :: rest) := by
  have bounds := digit_bounds (digits c (.head _))
  have positive : c.toNat ≠ 48 := fun same => first (Char.toNat_inj.1 same)
  have single : natOfDigits [c] = c.toNat - 48 := by simp [natOfDigits]
  have split := natOfDigits_append [c] rest
  rw [single, List.singleton_append] at split
  calc 10 ^ rest.length = 1 * 10 ^ rest.length := (Nat.one_mul _).symm
    _ ≤ (c.toNat - 48) * 10 ^ rest.length := Nat.mul_le_mul_right _ (by omega)
    _ ≤ natOfDigits (c :: rest) := split ▸ Nat.le_add_right _ _

/-- Of two numbers with as many places the one with more digits is greater. -/
theorem IsFixed.natOfDigits_lt_of_longer {other : Literal} {tail tail' : List Char} (fixed : literal.IsFixed places)
    (fixed' : other.IsFixed more) (digits : ∀ c ∈ tail, c.isDigit = true) (digits' : ∀ c ∈ tail', c.isDigit = true)
    (long : tail.length = tail'.length) (longer : literal.whole.length < other.whole.length) :
    natOfDigits (literal.whole ++ tail) < natOfDigits (other.whole ++ tail') := by
  have small := natOfDigits_lt (List.forall_mem_append.2 ⟨(List.forall_mem_append.1 fixed.digits).1, digits⟩)
  have positive := List.length_pos_iff.2 fixed.whole
  obtain zero | ⟨c, rest, whole, first, -⟩ := fixed'.whole_cases
  · rw [zero, List.length_singleton] at longer
    omega
  · have all := List.forall_mem_append.2 ⟨(List.forall_mem_append.1 fixed'.digits).1, digits'⟩
    rw [whole, List.cons_append] at all ⊢
    have large := le_natOfDigits all first
    rw [List.length_append] at small large
    rw [whole, List.length_cons] at longer
    exact small.trans_le ((Nat.pow_le_pow_right (by decide) (by omega)).trans large)

/-- The digits of two numbers with as many places are the same if the numbers are. -/
theorem IsFixed.digits_unique {other : Literal} {tail tail' : List Char} (fixed : literal.IsFixed places)
    (fixed' : other.IsFixed more) (digits : ∀ c ∈ tail, c.isDigit = true) (digits' : ∀ c ∈ tail', c.isDigit = true)
    (long : tail.length = tail'.length)
    (same : natOfDigits (literal.whole ++ tail) = natOfDigits (other.whole ++ tail')) :
    literal.whole = other.whole ∧ tail = tail' := by
  have wholes : literal.whole.length = other.whole.length := by
    rcases Nat.lt_trichotomy literal.whole.length other.whole.length with less | equal | greater
    · exact absurd same (fixed.natOfDigits_lt_of_longer fixed' digits digits' long less).ne
    · exact equal
    · exact absurd same (fixed'.natOfDigits_lt_of_longer fixed digits' digits long.symm greater).ne'
  refine List.append_inj (eq_of_natOfDigits_eq ?_ ?_ (by simp [wholes, long]) same) wholes
  · exact List.forall_mem_append.2 ⟨(List.forall_mem_append.1 fixed.digits).1, digits⟩
  · exact List.forall_mem_append.2 ⟨(List.forall_mem_append.1 fixed'.digits).1, digits'⟩

theorem isFixed_zero : ({ negative := false, whole := ['0'], fraction := [], exponent := 0 } : Literal).IsFixed 0 := by
  refine ⟨⟨by simp, by decide, rfl⟩, by decide, ?_, rfl⟩
  rintro rest ⟨⟩
  rfl

/-- A zero has the digit zero only. -/
theorem IsFixed.digits_zero {tail : List Char} (fixed : literal.IsFixed places) (digits : ∀ c ∈ tail, c.isDigit = true)
    (zero : natOfDigits (literal.whole ++ tail) = 0) :
    literal.whole = ['0'] ∧ tail = List.replicate tail.length '0' := by
  refine fixed.digits_unique isFixed_zero digits ?_ (List.length_replicate ..).symm ?_
  · exact fun c member => List.eq_of_mem_replicate member ▸ rfl
  · rw [zero]
    exact (natOfDigits_zeros (tail.length + 1)).symm

/-- What is left of a number is determined by its value. -/
theorem shortened_unique {other : Literal} (fixed : literal.IsFixed places) (fixed' : other.IsFixed more)
    (same : literal.value = other.value) : literal.shortened compressed = other.shortened compressed := by
  have zeros (count : Nat) : ∀ c ∈ List.replicate count '0', c.isDigit = true := fun c member =>
    List.eq_of_mem_replicate member ▸ rfl
  have digits := List.forall_mem_append.2 ⟨(List.forall_mem_append.1 fixed.digits).2, zeros more⟩
  have digits' := List.forall_mem_append.2 ⟨(List.forall_mem_append.1 fixed'.digits).2, zeros places⟩
  have long : (literal.fraction ++ List.replicate more '0').length =
      (other.fraction ++ List.replicate places '0').length := by
    simp [fixed.places, fixed'.places, Nat.add_comm]
  have scale : (10 : ℚ) ^ (places + more) ≠ 0 := pow_ne_zero _ (by decide)
  rw [value_extended literal fixed.exponent more, value_extended other fixed'.exponent places, fixed.places,
    fixed'.places, Nat.add_comm more places, div_left_inj' scale, List.append_assoc, List.append_assoc] at same
  have magnitude (negative : Bool) (n : Nat) : |(if negative then -1 else 1) * (n : ℚ)| = n := by
    cases negative <;> simp
  have numbers : natOfDigits (literal.whole ++ (literal.fraction ++ List.replicate more '0')) =
      natOfDigits (other.whole ++ (other.fraction ++ List.replicate places '0')) := by
    have magnitudes := congrArg abs same
    rw [magnitude, magnitude] at magnitudes
    exact_mod_cast magnitudes
  obtain ⟨whole, tail⟩ := fixed.digits_unique fixed' digits digits' long numbers
  have fraction : literal.fraction.rdropWhile (· == '0') = other.fraction.rdropWhile (· == '0') := by
    rw [← rdropWhile_zeros _ more, tail, rdropWhile_zeros]
  have sign : (literal.negative && !(other.whole == ['0'] && (other.fraction.rdropWhile (· == '0')).isEmpty)) =
      (other.negative && !(other.whole == ['0'] && (other.fraction.rdropWhile (· == '0')).isEmpty)) := by
    by_cases signs : literal.negative = other.negative
    · rw [signs]
    -- The signs differ for a zero only, which has none.
    have zero : natOfDigits (other.whole ++ (other.fraction ++ List.replicate places '0')) = 0 := by
      rw [numbers] at same
      cases known : literal.negative <;> cases known' : other.negative <;> simp_all
    obtain ⟨zeroWhole, zeroTail⟩ := fixed'.digits_zero digits' zero
    have empty : other.fraction.rdropWhile (· == '0') = [] := by
      rw [← rdropWhile_zeros _ places, zeroTail]
      exact rdropWhile_zeros [] _
    simp [zeroWhole, empty]
  simp only [shortened, whole, fraction, sign, fixed.exponent, fixed'.exponent]

end Literal

/-! Formatting -/

theorem isDigit_of_mem_paddedDigits {width value : Nat} : ∀ c ∈ paddedDigits width value, c.isDigit = true := by
  refine List.forall_mem_append.2 ⟨fun c member => List.eq_of_mem_replicate member ▸ rfl, fun c member => ?_⟩
  exact Nat.isDigit_of_mem_toDigits (by decide) (by decide) member

theorem length_paddedDigits (width value : Nat) :
    (paddedDigits width value).length = max width (Nat.toDigits 10 value).length := by
  rw [paddedDigits, List.length_append, List.length_replicate]
  omega

/-- Digits are padded up to the last one before the point, so that no zero stands in front but this one. -/
theorem lead_paddedDigits {value : Nat} {rest : List Char}
    (starts :
      (paddedDigits (places + 1) value).take ((paddedDigits (places + 1) value).length - places) = '0' :: rest) :
    rest = [] := by
  have long := congrArg List.length starts
  rw [List.length_take, List.length_cons, length_paddedDigits] at long
  by_cases padded : (Nat.toDigits 10 value).length ≤ places + 1
  · exact List.length_eq_zero_iff.1 (by omega)
  · have digits : paddedDigits (places + 1) value = Nat.toDigits 10 value := by
      rw [paddedDigits, Nat.sub_eq_zero_of_le (Nat.le_of_not_le padded), List.replicate_zero, List.nil_append]
    rw [digits] at starts
    have whole := List.take_append_drop ((Nat.toDigits 10 value).length - places) (Nat.toDigits 10 value)
    rw [starts, List.cons_append] at whole
    exact (List.append_eq_nil_iff.1 (toDigits_lead whole.symm)).1

/-- What is written with a fixed number of places is a literal with that many digits behind the point. -/
theorem exists_fixed (x : Float) (places : Nat) :
    ∃ literal : Literal, literal.IsFixed places ∧ fixed x places = literal.text := by
  unfold fixed
  dsimp only
  generalize (Binary.ofFloat x).scaled places = value
  have long := length_paddedDigits (places + 1) value
  have fraction : ((paddedDigits (places + 1) value).drop ((paddedDigits (places + 1) value).length - places)).length =
      places := by
    rw [List.length_drop]
    omega
  have whole : (paddedDigits (places + 1) value).take ((paddedDigits (places + 1) value).length - places) ≠ [] := by
    refine List.ne_nil_of_length_pos ?_
    rw [List.length_take]
    omega
  refine ⟨⟨(Binary.ofFloat x).negative, _, _, 0⟩, ⟨⟨?_, ?_, rfl⟩, whole, fun rest => lead_paddedDigits, fraction⟩, ?_⟩
  · dsimp only
    rw [List.take_append_drop]
    exact isDigit_of_mem_paddedDigits
  · rw [List.take_append_drop]
    exact List.ne_nil_of_length_pos (by omega)
  · rw [Literal.text]
    by_cases none : places = 0
    · have empty := List.length_eq_zero_iff.1 (fraction.trans none)
      rw [if_pos none, if_pos empty]
    · have some := List.ne_nil_of_length_pos (fraction.symm ▸ Nat.pos_of_ne_zero none)
      rw [if_neg none, if_neg some]

/-- The number that a text denotes, if it is a decimal from its beginning to its end. -/
def denoted? (text : List Char) : Option ℚ := (Literal.read? text).map Literal.value

/-- A text in which nothing can be left out: it does not end in a point or in a zero behind one, a zero has no sign, and
in a compressed text no zero stands before the point at the beginning. -/
structure IsConcise (compressed : Bool) (text : List Char) : Prop where
  point : text.getLast? ≠ some '.'
  zeros : '.' ∈ text → text.getLast? ≠ some '0'
  sign : text ≠ ['-', '0']
  lead : compressed = true → ¬ ['0', '.'] <+: text ∧ ¬ ['-', '0', '.'] <+: text

namespace Literal

variable {literal : Literal}

theorem IsPlain.getLast?_text (plain : literal.IsPlain) :
    literal.text.getLast? = (literal.whole ++ literal.fraction).getLast? := by
  have nonempty := plain.nonempty
  rw [text]
  by_cases short : literal.fraction = []
  · rw [short, List.append_nil] at nonempty
    simp [short, List.getLast?_append_of_ne_nil _ nonempty]
  · rw [if_neg short, List.getLast?_append_of_ne_nil _ short,
      List.getLast?_append_of_ne_nil _ (List.cons_ne_nil '.' literal.fraction)]
    exact List.getLast?_cons_of_ne_nil short

theorem IsFixed.isConcise (fixed : literal.IsFixed places) (compressed : Bool) :
    IsConcise compressed (literal.shortened compressed).text := by
  have plain := fixed.plain_shortened compressed
  refine ⟨fun ends => ?_, fun point ends => ?_, fun sign => ?_, ?_⟩
  · rw [plain.getLast?_text] at ends
    exact plain.point_notMem (List.mem_of_getLast? ends)
  · have fraction : (literal.shortened compressed).fraction ≠ [] := by
      intro short
      rw [text, short, if_pos rfl, List.append_nil] at point
      obtain sign | whole := List.mem_append.1 point
      · revert sign
        split <;> decide
      · exact plain.point_notMem (List.mem_append_left _ whole)
    rw [plain.getLast?_text, List.getLast?_append_of_ne_nil _ fraction, List.getLast?_eq_some_getLast fraction] at ends
    exact List.rdropWhile_last_not (· == '0') literal.fraction fraction (beq_iff_eq.2 (Option.some.inj ends))
  · have read := read?_text plain
    rw [sign] at read
    have same : literal.shortened compressed = ⟨true, ['0'], [], 0⟩ := (Option.some.inj read).symm
    simp only [shortened, Literal.mk.injEq, Bool.and_eq_true, Bool.not_eq_true'] at same
    obtain ⟨⟨-, kept⟩, whole, fraction, -⟩ := same
    exact absurd (show literal.whole = ['0'] by simpa [fraction] using whole) (by simpa [fraction] using kept)
  · rintro rfl
    unfold shortened text
    obtain whole | ⟨c, rest, whole, noZero, noSign⟩ := fixed.whole_cases
    · cases literal.negative <;> cases literal.fraction.rdropWhile (· == '0') <;> simp [whole]
    · have other : literal.whole ≠ ['0'] := by simp [whole, noZero]
      rw [beq_false_of_ne other]
      cases literal.negative <;> simp [whole, noZero.symm, noSign.symm]

end Literal

/-- A finite number is written with fixed places and shortened. Both texts denote the same number, nothing can be left
out of the second one, and whatever denotes the same number with fixed places is shortened to the same text. -/
theorem format_denotes_fixed (finite : isFinite x = true) (places : Nat) (compressed : Bool) :
    (∃ literal : Literal, literal.IsFixed places ∧ fixed x places = literal.text) ∧
    (∃ short : Literal, short.IsPlain ∧ short.fraction.length ≤ places ∧ format x places compressed = short.text) ∧
    (∃ q, denoted? (fixed x places) = some q ∧ denoted? (format x places compressed) = some q) ∧
    IsConcise compressed (format x places compressed) ∧
    ∀ y more, isFinite y = true → denoted? (fixed y more) = denoted? (fixed x places) →
      format y more compressed = format x places compressed := by
  obtain ⟨literal, isFixed, written⟩ := exists_fixed x places
  have short := format_of_finite finite places compressed
  rw [written, isFixed.shortened_text] at short
  have plain := isFixed.plain_shortened compressed
  have denotes : denoted? (fixed x places) = some literal.value := by
    rw [denoted?, written, Literal.read?_text isFixed.toIsPlain, Option.map_some]
  refine ⟨⟨literal, isFixed, written⟩, ⟨_, plain, ?_, short⟩, ⟨literal.value, denotes, ?_⟩, ?_, ?_⟩
  · exact isFixed.places ▸ (List.rdropWhile_prefix _ _).length_le
  · rw [denoted?, short, Literal.read?_text plain, Option.map_some, isFixed.value_shortened]
  · exact short ▸ isFixed.isConcise compressed
  · intro y more finite' same
    obtain ⟨other, isFixed', written'⟩ := exists_fixed y more
    have short' := format_of_finite finite' more compressed
    rw [written', isFixed'.shortened_text] at short'
    rw [denotes, denoted?, written', Literal.read?_text isFixed'.toIsPlain, Option.map_some, Option.some_inj] at same
    rw [short, short', Literal.shortened_unique isFixed' isFixed same]

/-- Two numbers that are written the same with fixed places, up to zeros. -/
theorem format_near_fifth : isFinite (-0.25) = true ∧ isFinite (-0.2) = true ∧
    denoted? (fixed (-0.2) 3) = denoted? (fixed (-0.25) 1) ∧ format (-0.25) 1 true = ['-', '.', '2'] ∧
    IsConcise true ['-', '.', '2'] ∧ format (-0.2) 3 true = ['-', '.', '2'] := by
  have finite : isFinite (-0.25) = true := by decide +kernel
  have finite' : isFinite (-0.2) = true := by decide +kernel
  have written : fixed (-0.25) 1 = ['-', '0', '.', '2'] := by decide +kernel
  have written' : fixed (-0.2) 3 = ['-', '0', '.', '2', '0', '0'] := by decide +kernel
  have short : format (-0.25) 1 true = ['-', '.', '2'] := by decide +kernel
  have same : denoted? (fixed (-0.2) 3) = denoted? (fixed (-0.25) 1) := by
    rw [written, written']
    decide +kernel
  obtain ⟨-, -, -, concise, unique⟩ := format_denotes_fixed finite 1 true
  exact ⟨finite, finite', same, short, short ▸ concise, (unique _ 3 finite' same).trans short⟩

end Stylesheet.Decimal
