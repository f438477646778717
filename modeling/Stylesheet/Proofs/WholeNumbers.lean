import Mathlib.Algebra.Order.Field.Power
import Stylesheet.Builtin.Lists
import Stylesheet.Proofs.LoopRounds

/-! Whole numbers as doubles. A double whose value is a whole number is its own nearest whole number, so it is accepted
as an index and counts as that number. A count of items or characters is such a double. -/

namespace Stylesheet

namespace Decimal

open Float.Model UnpackedFloat

variable {c : ℕ} {e : ℤ} {x : Float}

/-- The mantissa and the exponent of a double that is not close to zero. -/
structure IsNormal (c : ℕ) (e : ℤ) : Prop where
  low : 2 ^ 52 ≤ c
  high : c < 2 ^ 53
  least : -1074 ≤ e
  most : e ≤ 971

theorem log2_shifted {m : ℕ} (positive : 0 < m) (count : ℕ) : (m * 2 ^ count).log2 = m.log2 + count := by
  induction count with
  | zero => rw [pow_zero, mul_one, Nat.add_zero]
  | succ count fewer =>
    rw [pow_succ', mul_left_comm, Nat.log2_two_mul (by positivity), fewer, Nat.add_assoc]

/-- The number of binary places before the point is not changed by zeros at the end. -/
theorem totalExponent_shifted {m : ℕ} (positive : 0 < m) (count : ℕ) (e : ℤ) :
    totalExponent (m * 2 ^ count) (e - count) = totalExponent m e := by
  rw [totalExponent, totalExponent, log2_shifted positive]
  push_cast
  ring

namespace IsNormal

theorem pos (normal : IsNormal c e) : 0 < c := Nat.lt_of_lt_of_le (by decide) normal.low

theorem log2_eq (normal : IsNormal c e) : c.log2 = 52 := (Nat.log2_eq_iff normal.pos.ne').2 ⟨normal.low, normal.high⟩

theorem targetExponent_eq (normal : IsNormal c e) : Format.binary64.targetExponent (totalExponent c e) = e := by
  have least := normal.least
  have bits : Format.binary64.mantissaBits = 53 := rfl
  have lowest : Format.binary64.minExponent = -1074 := rfl
  rw [Format.targetExponent, totalExponent, normal.log2_eq, bits, lowest]
  omega

end IsNormal

/-- Zeros at the end are shifted out without a trace. -/
theorem shiftRight_exact (c count : ℕ) :
    (⟨c * 2 ^ count, false, false⟩ : ExtendedMantissa) >>> count = ⟨c, false, false⟩ := by
  change Nat.repeat ExtendedMantissa.shiftRightOne count _ = _
  induction count generalizing c with
  | zero => simp [Nat.repeat]
  | succ count fewer =>
    rw [Nat.repeat, pow_succ', ← mul_assoc, fewer]
    simp [ExtendedMantissa.shiftRightOne]

theorem IsNormal.shift (normal : IsNormal c e) (count : ℕ) :
    shiftToTargetExponent Format.binary64 (c * 2 ^ count) (e - count) .exact = (⟨c, false, false⟩, e) := by
  rw [shiftToTargetExponent, totalExponent_shifted normal.pos, normal.targetExponent_eq, shiftToExponent]
  have amount : (e - (e - count)).toNat = count := by omega
  simp only [amount, ExtendedMantissa.ofMantissaAndAccuracy, shiftRight_exact, sub_add_cancel]

/-- What a double has exactly is not changed by rounding. -/
theorem IsNormal.round_exact (normal : IsNormal c e) (sign : Sign) (count : ℕ) :
    roundWithAccuracy Format.binary64 sign (c * 2 ^ count) (e - count) .exact = .finite sign c e normal.pos := by
  have again := normal.shift 0
  rw [pow_zero, mul_one, Nat.cast_zero, sub_zero] at again
  rw [roundWithAccuracy, normal.shift count]
  dsimp only [ExtendedMantissa.roundedMantissa, ExtendedMantissa.accuracy, Accuracy.roundToNearestEven]
  rw [again]
  exact dif_neg normal.pos.ne'

theorem toNat_withLead (fraction : BitVec 52) : (1#1 ++ fraction).toNat = 2 ^ 52 + fraction.toNat := by
  rw [BitVec.toNat_append, ← Nat.shiftLeft_add_eq_or_of_lt fraction.isLt]
  rfl

theorem toNat_unpackMantissa (b : BitVec Format.binary64.numBits) : (unpackMantissa b).toNat = b.toNat % 2 ^ 52 := by
  rw [unpackMantissa, BitVec.toNat_cast, BitVec.extractLsb_toNat]
  rfl

theorem toNat_unpackExponent (b : BitVec Format.binary64.numBits) :
    (unpackExponent b).toNat = b.toNat / 2 ^ 52 % 2 ^ 11 := by
  rw [unpackExponent, BitVec.toNat_cast, BitVec.extractLsb_toNat, Nat.shiftRight_eq_div_pow]
  rfl

theorem toNat_unpackSign (b : BitVec Format.binary64.numBits) : (unpackSign b).toNat = b.toNat / 2 ^ 63 := by
  have bounded : b.toNat < 2 ^ 64 := b.isLt
  unfold unpackSign
  rw [BitVec.toNat_cast, BitVec.extractLsb_toNat, Nat.shiftRight_eq_div_pow]
  exact Nat.mod_eq_of_lt (show b.toNat / 2 ^ 63 < 2 by omega)

theorem ofBitVec_unpackSign (b : BitVec Format.binary64.numBits) :
    (Sign.ofBitVec (unpackSign b) == .negative) = decide (b.toNat / 2 ^ 63 = 1) := by
  rw [← toNat_unpackSign]
  generalize unpackSign b = bit
  decide +revert

theorem ofBitVec_unpackSign_pack (sign : Sign) (exponent : BitVec 11) (mantissa : BitVec 52) :
    Sign.ofBitVec (unpackSign (packComponents Format.binary64 sign exponent mantissa)) = sign := by
  have word : (packComponents Format.binary64 sign exponent mantissa).toNat =
      (sign.toBitVec.toNat * 2 ^ 11 + exponent.toNat) * 2 ^ 52 + mantissa.toNat := by
    change (sign.toBitVec ++ exponent ++ mantissa).toNat = _
    rw [BitVec.toNat_append, ← Nat.shiftLeft_add_eq_or_of_lt mantissa.isLt, BitVec.toNat_append,
      ← Nat.shiftLeft_add_eq_or_of_lt exponent.isLt, Nat.shiftLeft_eq, Nat.shiftLeft_eq]
  have first : unpackSign (packComponents Format.binary64 sign exponent mantissa) = sign.toBitVec := by
    refine BitVec.eq_of_toNat_eq ?_
    rw [toNat_unpackSign, word]
    omega
  rw [first]
  cases sign <;> rfl

/-- The fields of the bits of a double. -/
theorem IsNormal.pack_eq (normal : IsNormal c e) (sign : Sign) :
    UnpackedFloat.pack Format.binary64 (.finite sign c e normal.pos) =
      packComponents Format.binary64 sign (BitVec.ofNat 11 (e + 1075).toNat) (BitVec.ofNat 52 c) := by
  have least := normal.least
  have most := normal.most
  have biased : (e + Format.binary64.exponentBias + Format.binary64.mantissaBitsWithoutImplicit).toNat =
      (e + 1075).toNat := by
    change (e + (1023 : ℕ) + (52 : ℕ)).toNat = _
    omega
  have bounded : ¬ 2 ^ Format.binary64.exponentBits ≤ (e + 1075).toNat + 1 := by
    change ¬ 2 ^ 11 ≤ _
    omega
  unfold UnpackedFloat.pack
  dsimp only
  rw [biased, if_neg bounded, normal.log2_eq, if_pos (by rfl)]

/-- A double is read back from its bits. -/
theorem IsNormal.unpack_pack (normal : IsNormal c e) (sign : Sign) :
    (Float.Model.pack (.finite sign c e normal.pos)).unpack = .finite sign c e normal.pos := by
  have packed := normal.pack_eq sign
  obtain ⟨low, high, least, most⟩ := normal
  have field : (BitVec.ofNat 11 (e + 1075).toNat).toNat = (e + 1075).toNat := by
    rw [BitVec.toNat_ofNat]
    omega
  have notGreatest : BitVec.ofNat 11 (e + 1075).toNat ≠ -1#11 := fun same => by
    have same : (BitVec.ofNat 11 (e + 1075).toNat).toNat = 2047 := congrArg BitVec.toNat same
    omega
  have notLeast : BitVec.ofNat 11 (e + 1075).toNat ≠ 0#11 := fun same => by
    have same : (BitVec.ofNat 11 (e + 1075).toNat).toNat = 0 := congrArg BitVec.toNat same
    omega
  have mantissa : (1#1 ++ BitVec.ofNat 52 c).toNat = c := by
    rw [toNat_withLead, BitVec.toNat_ofNat]
    omega
  have exponent : ((BitVec.ofNat 11 (e + 1075).toNat).toNat : ℤ) -
      (Format.binary64.exponentBias + Format.binary64.mantissaBitsWithoutImplicit) = e := by
    change ((BitVec.ofNat 11 (e + 1075).toNat).toNat : ℤ) - ((1023 : ℕ) + (52 : ℕ)) = _
    omega
  change UnpackedFloat.unpack Format.binary64 (UnpackedFloat.pack Format.binary64 _) = _
  rw [packed]
  unfold UnpackedFloat.unpack
  dsimp only
  rw [unpackExponent_packComponents, if_neg notGreatest, if_neg notLeast, UnpackedFloat.finite.injEq,
    unpackMantissa_packComponents]
  exact ⟨ofBitVec_unpackSign_pack _ _ _, mantissa, exponent⟩

/-- The three fields of a double, read from its bits. -/
theorem Binary.ofFloat_of_bits {b : BitVec Format.binary64.numBits} (bits : b = x.toBits.toBitVec) :
    Binary.ofFloat x =
      { negative := Sign.ofBitVec (unpackSign b) == .negative
        mantissa := if (unpackExponent b).toNat = 0 then (unpackMantissa b).toNat else (unpackMantissa b).toNat + 2 ^ 52
        exponent :=
          ((if (unpackExponent b).toNat = 0 then 1 else (unpackExponent b).toNat : ℕ) : ℤ) - 1075 } := by
  rw [ofBitVec_unpackSign, toNat_unpackExponent, toNat_unpackMantissa, bits]
  rfl

/-- A double is given by its three fields. -/
theorem Binary.ofFloat_injective : Function.Injective Binary.ofFloat := by
  rintro ⟨⟨first, valid⟩⟩ ⟨⟨second, valid'⟩⟩ same
  have low : first.toNat < 2 ^ 64 := first.toNat_lt
  have high : second.toNat < 2 ^ 64 := second.toNat_lt
  have signs : first.toNat / 2 ^ 63 = 1 ↔ second.toNat / 2 ^ 63 = 1 :=
    decide_eq_decide.1 (congrArg Binary.negative same)
  have mantissas : (if first.toNat / 2 ^ 52 % 2 ^ 11 = 0 then first.toNat % 2 ^ 52 else first.toNat % 2 ^ 52 + 2 ^ 52) =
      if second.toNat / 2 ^ 52 % 2 ^ 11 = 0 then second.toNat % 2 ^ 52 else second.toNat % 2 ^ 52 + 2 ^ 52 :=
    congrArg Binary.mantissa same
  have exponents : ((if first.toNat / 2 ^ 52 % 2 ^ 11 = 0 then 1 else first.toNat / 2 ^ 52 % 2 ^ 11 : ℕ) : ℤ) - 1075 =
      ((if second.toNat / 2 ^ 52 % 2 ^ 11 = 0 then 1 else second.toNat / 2 ^ 52 % 2 ^ 11 : ℕ) : ℤ) - 1075 :=
    congrArg Binary.exponent same
  have bits : first.toNat = second.toNat := by split_ifs at mantissas exponents <;> omega
  obtain rfl := UInt64.toNat_inj.1 bits
  rfl

/-- With the greatest exponent no double is finite. -/
theorem exponent_ne_greatest {b : BitVec Format.binary64.numBits}
    (finite : ((UnpackedFloat.unpack Format.binary64 b).isNaN || (UnpackedFloat.unpack Format.binary64 b).isInf) = false) :
    unpackExponent b ≠ -1#_ := by
  intro greatest
  unfold UnpackedFloat.unpack at finite
  dsimp only at finite
  rw [if_pos greatest] at finite
  by_cases none : unpackMantissa b = 0#_
  · rw [if_pos none] at finite
    cases finite
  · rw [if_neg none] at finite
    cases finite

theorem ofFloat_of_zero {sign : Sign} (known : x.toModel.unpack = .zero sign) :
    Binary.ofFloat x = ⟨sign == .negative, 0, -1074⟩ := by
  obtain ⟨b, bits⟩ : ∃ b : BitVec Format.binary64.numBits, b = x.toBits.toBitVec := ⟨_, rfl⟩
  change UnpackedFloat.unpack Format.binary64 x.toBits.toBitVec = _ at known
  rw [← bits] at known
  have finite : unpackExponent b ≠ -1#_ := exponent_ne_greatest (by rw [known]; rfl)
  unfold UnpackedFloat.unpack at known
  dsimp only at known
  rw [if_neg finite] at known
  by_cases least : unpackExponent b = 0#_
  · rw [if_pos least] at known
    by_cases none : unpackMantissa b = 0#_
    · rw [dif_pos none] at known
      injection known with signs
      have least : (unpackExponent b).toNat = 0 := congrArg BitVec.toNat least
      have none : (unpackMantissa b).toNat = 0 := congrArg BitVec.toNat none
      rw [Binary.ofFloat_of_bits bits, if_pos least, if_pos least, signs, none]
      rfl
    · rw [dif_neg none] at known
      cases known
  · rw [if_neg least] at known
    cases known

/-- The fields of a finite double are those of its model. -/
theorem ofFloat_eq {sign : Sign} {positive : 0 < c} (known : x.toModel.unpack = .finite sign c e positive) :
    Binary.ofFloat x = ⟨sign == .negative, c, e⟩ ∧ (IsNormal c e ∨ c < 2 ^ 52 ∧ e = -1074) := by
  obtain ⟨b, bits⟩ : ∃ b : BitVec Format.binary64.numBits, b = x.toBits.toBitVec := ⟨_, rfl⟩
  have fields := Binary.ofFloat_of_bits bits
  have small : (unpackMantissa b).toNat < 2 ^ 52 := (unpackMantissa b).isLt
  have bounded : (unpackExponent b).toNat < 2 ^ 11 := (unpackExponent b).isLt
  have bias : ((Format.binary64.exponentBias : ℕ) : ℤ) + (Format.binary64.mantissaBitsWithoutImplicit : ℕ) = 1075 := rfl
  change UnpackedFloat.unpack Format.binary64 x.toBits.toBitVec = _ at known
  rw [← bits] at known
  have finite : unpackExponent b ≠ -1#_ := exponent_ne_greatest (by rw [known]; rfl)
  unfold UnpackedFloat.unpack at known
  dsimp only at known
  rw [bias, if_neg finite] at known
  have finite : (unpackExponent b).toNat ≠ 2047 := fun same => finite (BitVec.eq_of_toNat_eq (same.trans (by rfl)))
  by_cases least : unpackExponent b = 0#_
  · rw [if_pos least] at known
    by_cases none : unpackMantissa b = 0#_
    · rw [dif_pos none] at known
      cases known
    · rw [dif_neg none] at known
      injection known with signs mantissas exponents
      have least : (unpackExponent b).toNat = 0 := congrArg BitVec.toNat least
      rw [fields, if_pos least, if_pos least, signs, mantissas]
      refine ⟨?_, .inr ?_⟩
      · congr 1
        omega
      · omega
  · rw [if_neg least] at known
    have normal : (unpackExponent b).toNat ≠ 0 := fun same => least (BitVec.eq_of_toNat_eq same)
    injection known with signs mantissas exponents
    rw [toNat_withLead] at mantissas
    rw [fields, if_neg normal, if_neg normal, signs, Nat.add_comm, mantissas, exponents]
    exact ⟨rfl, .inl ⟨by omega, by omega, by omega, by omega⟩⟩

/-- What a double has exactly is also kept by rounding from fewer digits. -/
theorem IsNormal.round_fewer (normal : IsNormal c e) (sign : Sign) {m count : ℕ} (few : c = m * 2 ^ count) :
    UnpackedFloat.round Format.binary64 sign m (e + count) = .finite sign c e normal.pos := by
  have positive : 0 < m := Nat.pos_of_ne_zero fun zero => normal.pos.ne' (by rw [few, zero, zero_mul])
  have target := normal.targetExponent_eq
  have total := totalExponent_shifted positive count (e + count)
  rw [← few, add_sub_cancel_right] at total
  rw [UnpackedFloat.round, ← total, target, decreaseExponent]
  have amount : (e + count - e).toNat = count := by omega
  have exact := normal.round_exact sign 0
  rw [pow_zero, mul_one, Nat.cast_zero, sub_zero] at exact
  dsimp only
  rw [amount, Nat.shiftLeft_eq, ← few, add_sub_cancel_right, exact]

theorem ofUInt64_eq {m : ℕ} (positive : 0 < m) (small : m < 2 ^ 64) :
    m.toUInt64.toFloat =
      Float.ofModel (Float.Model.pack (UnpackedFloat.round Format.binary64 .positive m 0)) := by
  have number : m.toUInt64.toNat = m := Nat.mod_eq_of_lt small
  have above : compare (m : ℤ) 0 = .gt := compare_gt_iff_gt.2 (by exact_mod_cast positive)
  change Float.ofModel (Float.Model.pack (normalize Format.binary64 (m.toUInt64.toNat : ℤ) 0 .positive)) = _
  rw [number, UnpackedFloat.normalize, above]
  rfl

/-- A whole number that some double has exactly is read as that double. -/
theorem IsNormal.ofScientific_eq (normal : IsNormal c e) {m : ℕ} (same : (m : ℚ) = c * 2 ^ e) :
    Float.ofScientific m false 0 = Float.ofModel (Float.Model.pack (.finite .positive c e normal.pos)) := by
  have positive : 0 < m := by
    have : (0 : ℚ) < m := same ▸ mul_pos (Nat.cast_pos.2 normal.pos) (zpow_pos two_pos e)
    exact_mod_cast this
  obtain ⟨count, rfl⟩ : ∃ count : ℕ, e = count - 53 := by
    refine ⟨(e + 53).toNat, ?_⟩
    by_contra less
    have tiny : (m : ℚ) < 1 := calc
      (m : ℚ) = c * 2 ^ e := same
      _ ≤ c * 2 ^ (-53 : ℤ) := by gcongr <;> [norm_num; omega]
      _ < 2 ^ 53 * 2 ^ (-53 : ℤ) := by gcongr; exact_mod_cast normal.high
      _ = 1 := by norm_num
    exact absurd positive (not_lt.2 (Nat.lt_one_iff.1 (by exact_mod_cast tiny)).le)
  have scaled : m * 2 ^ 53 = c * 2 ^ count := by
    rw [zpow_sub₀ two_ne_zero, zpow_natCast] at same
    field_simp at same
    exact_mod_cast same
  rw [Float.ofScientific]
  by_cases small : m < 2 ^ 53 ∧ 0 ≤ 22
  · rw [dif_pos small]
    have less : count ≤ 53 := by
      by_contra more
      have large : 2 ^ 52 * 2 ^ 54 ≤ c * 2 ^ count :=
        Nat.mul_le_mul normal.low (Nat.pow_le_pow_right (by decide) (by omega))
      omega
    have few : c = m * 2 ^ (53 - count) := by
      refine Nat.eq_of_mul_eq_mul_right (show 0 < 2 ^ count by positivity) ?_
      rw [← scaled, mul_assoc, ← pow_add, Nat.sub_add_cancel less]
    have converted := normal.round_fewer .positive few
    rw [show (count : ℤ) - 53 + (53 - count : ℕ) = 0 by omega] at converted
    change Float.ofModel (Float.Model.pack (UnpackedFloat.mul Format.binary64 m.toUInt64.toFloat.toModel.unpack
      (Float.ofBits 0x3FF0000000000000).toModel.unpack)) = _
    have one : (Float.ofBits 0x3FF0000000000000).toModel.unpack = .finite .positive (2 ^ 52) (-52) (by decide) := by rfl
    rw [ofUInt64_eq positive (by omega), converted, normal.unpack_pack, one]
    exact congrArg (Float.ofModel <| Float.Model.pack ·) (normal.round_exact .positive 52)
  · rw [dif_neg small]
    have low : ¬ (0 : ℤ) < -(2 ^ Format.binary64.exponentBits + m.log2) := by
      change ¬ (0 : ℤ) < -(2 ^ 11 + m.log2)
      omega
    have exact := normal.round_exact .positive count
    rw [← scaled, sub_sub_cancel_left] at exact
    change Float.ofModel (Float.Model.pack (UnpackedFloat.ofScientific Format.binary64 m 0)) = _
    rw [UnpackedFloat.ofScientific, dif_neg positive.ne', if_neg (by decide), if_neg low, if_pos (by decide)]
    have shifted : m <<< Format.binary64.mantissaBits = m * 2 ^ 53 := Nat.shiftLeft_eq _ _
    unfold UnpackedFloat.mul
    dsimp only
    rw [Int.toNat_zero, pow_zero, mul_one, shifted]
    exact congrArg (Float.ofModel <| Float.Model.pack ·) exact

theorem Binary.nearest_of_whole {b : Binary} {m : ℕ} (same : (m : ℚ) = b.mantissa * 2 ^ b.exponent) :
    b.nearest = m := by
  unfold nearest divide
  cases known : b.exponent with
  | ofNat count =>
    rw [known, Int.ofNat_eq_natCast, zpow_natCast] at same
    have value : m = b.mantissa * 2 ^ count := by exact_mod_cast same
    simp [value]
  | negSucc count =>
    rw [known, zpow_negSucc, ← div_eq_mul_inv, eq_div_iff (by positivity)] at same
    have value : m * 2 ^ (count + 1) = b.mantissa := by exact_mod_cast same
    simp [← value]

/-- A finite double whose value is a whole number is its own nearest whole number. -/
theorem round_of_whole (finite : isFinite x = true) {i : ℤ} (whole : exact x = i) : round x = x := by
  rw [round, if_pos finite]
  have kind : (!(x.toModel.unpack.isNaN || x.toModel.unpack.isInf)) = true := finite
  cases known : x.toModel.unpack with
  | notANumber | infinity sign => rw [known] at kind; cases kind
  | zero sign =>
    refine Binary.ofFloat_injective ?_
    rw [ofFloat_of_zero known]
    cases sign <;> decide +kernel
  | finite sign c e positive =>
    obtain ⟨fields, normal⟩ := ofFloat_eq known
    have magnitude : ((i.natAbs : ℕ) : ℚ) = c * 2 ^ e := by
      rw [Nat.cast_natAbs, Int.cast_abs, ← whole, exact, fields, Binary.value, abs_mul]
      rw [abs_of_pos (show (0 : ℚ) < c * 2 ^ e by positivity)]
      split <;> simp
    have nearest : (⟨sign == .negative, c, e⟩ : Binary).nearest = i.natAbs := Binary.nearest_of_whole magnitude
    obtain normal | ⟨small, rfl⟩ := normal
    · have packed : x = Float.ofModel (Float.Model.pack (.finite sign c e normal.pos)) :=
        Binary.ofFloat_injective (fields.trans (ofFloat_eq (normal.unpack_pack sign)).1.symm)
      rw [fields]
      dsimp only
      rw [nearest, ofWhole, normal.ofScientific_eq magnitude, packed]
      cases sign with
      | positive => rfl
      | negative =>
        change Float.ofModel (Float.Model.pack (Float.Model.pack (.finite .positive c e _)).unpack.neg) = _
        rw [normal.unpack_pack]
        rfl
    · -- A double so close to zero is no whole number.
      have tiny : (i.natAbs : ℚ) < 1 := calc
        (i.natAbs : ℚ) = c * 2 ^ (-1074 : ℤ) := magnitude
        _ < 2 ^ 52 * 2 ^ (-1074 : ℤ) := by gcongr; exact_mod_cast small
        _ = 2 ^ ((52 : ℤ) + -1074) := (zpow_add₀ two_ne_zero 52 (-1074)).symm
        _ ≤ 1 := zpow_le_one_of_nonpos₀ one_le_two (by decide)
      have zero : i.natAbs = 0 := Nat.lt_one_iff.1 (by exact_mod_cast tiny)
      rw [zero, Nat.cast_zero] at magnitude
      exact absurd magnitude (by positivity)

/-- The difference of a finite double and itself is zero. -/
theorem sub_self_of_finite (finite : isFinite x = true) :
    x - x = Float.ofModel (Float.Model.pack (.zero .positive)) := by
  change Float.ofModel (Float.Model.pack (UnpackedFloat.sub Format.binary64 x.toModel.unpack x.toModel.unpack)) = _
  have kind : (!(x.toModel.unpack.isNaN || x.toModel.unpack.isInf)) = true := finite
  congr 2
  cases known : x.toModel.unpack with
  | notANumber | infinity sign => rw [known] at kind; cases kind
  | zero sign => cases sign <;> rfl
  | finite sign c e positive =>
    unfold UnpackedFloat.sub
    dsimp only
    rw [sub_self]
    rfl

theorem exists_normal {m : ℕ} (positive : 0 < m) (small : m ≤ 2 ^ 53) : ∃ c e, IsNormal c e ∧ (m : ℚ) = c * 2 ^ e := by
  obtain less | rfl := small.lt_or_eq
  · have short : m.log2 ≤ 52 := Nat.le_of_lt_succ ((Nat.log2_lt positive.ne').2 less)
    have digits := log2_shifted positive (52 - m.log2)
    rw [Nat.add_sub_cancel' short, Nat.log2_eq_iff (by positivity)] at digits
    refine ⟨m * 2 ^ (52 - m.log2), m.log2 - 52, ⟨digits.1, digits.2, by omega, by omega⟩, ?_⟩
    rw [Nat.cast_mul, Nat.cast_pow, Nat.cast_ofNat, mul_assoc, ← zpow_natCast, ← zpow_add₀ two_ne_zero,
      Nat.cast_sub short, Nat.cast_ofNat, sub_add_sub_cancel, sub_self, zpow_zero, mul_one]
  · exact ⟨2 ^ 52, 1, ⟨by decide, by decide, by decide, by decide⟩, by norm_num⟩

/-- A whole number of at most 53 binary digits is the value of a double. -/
theorem exact_ofNat {m : ℕ} (small : m ≤ 2 ^ 53) :
    isFinite (Float.ofNat m) = true ∧ exact (Float.ofNat m) = m := by
  obtain rfl | positive := m.eq_zero_or_pos
  · have fields : Binary.ofFloat (Float.ofNat 0) = ⟨false, 0, -1074⟩ := by decide +kernel
    refine ⟨by decide +kernel, ?_⟩
    rw [exact, fields]
    norm_num [Binary.value]
  · obtain ⟨c, e, normal, same⟩ := exists_normal positive small
    have known : (Float.ofNat m).toModel.unpack = .finite .positive c e normal.pos := by
      rw [Float.ofNat]
      change (Float.ofScientific m false 0).toModel.unpack = _
      rw [normal.ofScientific_eq same]
      exact normal.unpack_pack .positive
    constructor
    · change (!((Float.ofNat m).toModel.unpack.isNaN || (Float.ofNat m).toModel.unpack.isInf)) = true
      rw [known]
      rfl
    · rw [exact, (ofFloat_eq known).1, Binary.value, same]
      exact one_mul _

end Decimal

open Decimal (isFinite exact)

namespace Number

/-- The value is exactly a whole number. -/
def IsWhole (n : Number) (i : ℤ) : Prop := isFinite n.value = true ∧ exact n.value = i

variable {n : Number} {i : ℤ}

/-- A whole number is accepted as one. -/
theorem IsWhole.isInt (whole : n.IsWhole i) : n.isInt = true := by
  rw [Number.isInt, Decimal.round_of_whole whole.1 whole.2, Decimal.sub_self_of_finite whole.1]
  decide +kernel

/-- An index counts as the whole number that it is, within the range of the indices. -/
theorem IsWhole.indexOf_eq (whole : n.IsWhole i) :
    Builtin.indexOf n = max Builtin.leastIndex (min Builtin.mostIndex i) := by
  obtain ⟨number, bounded⟩ : n.value.isNaN = false ∧ n.value.isInf = false := by simpa [isFinite] using whole.1
  have cut : truncated (exact n.value) = i := by
    rw [whole.2, truncated]
    split <;> simp
  rw [Builtin.indexOf, Decimal.toInt, number, bounded, if_neg Bool.false_ne_true, if_neg Bool.false_ne_true]
  dsimp only
  rw [← Decimal.Binary.truncated_value, ← exact, cut]

/-- What counts items and characters is a whole number. -/
theorem isWhole_ofNat {count : ℕ} (small : count ≤ 2 ^ 53) : (ofNat count).IsWhole count := by
  obtain ⟨finite, value⟩ := Decimal.exact_ofNat small
  exact ⟨finite, by rw [ofNat, unitless, value, Int.cast_natCast]⟩

end Number

/-! Calls -/

namespace Builtin.Call

/-- The call gives these values to the first parameters, and none to the others. -/
def Has (call : Call) (values : List Value) : Prop := ∀ i, call.get? i = values[i]?

variable {call : Call} {values : List Value} {i : ℕ}

theorem has_map_some (parameters : List String) (values : List Value) (places : ℕ) :
    Call.Has ⟨parameters, values.map some, places⟩ values := by
  intro i
  rw [Call.get?, List.getElem?_map]
  cases values[i]? <;> rfl

theorem Has.required (has : call.Has values) {value : Value} (known : values[i]? = some value) :
    call.required i = .ok value := by
  rw [Call.required, has i, known]

theorem Has.number (has : call.Has values) {n : Number} (known : values[i]? = some (.number n)) :
    call.number i = .ok n := by
  rw [Call.number, has.required known]
  rfl

theorem Has.string (has : call.Has values) {text : String} {quoted : Bool}
    (known : values[i]? = some (.string text quoted)) :
    call.string i = .ok (text, quoted) := by
  rw [Call.string, has.required known]
  rfl

end Builtin.Call

end Stylesheet
