import QueryAdvisor.Proofs.FloatValue
/-!
# The sign of a float result

A float unpacks with a sign unless it is a NaN (`UnpackedFloat.sign?`). Unpacking reads the sign
bit that packing writes, and rounding keeps the sign it is given (`sign?_unpack`,
`sign?_roundWithAccuracy`). The model decides the sign of a product, quotient or difference
first and rounds with it, so the sign of a result says something of the operands:

* `Float.zero_lt_iff`: a float is above zero when it unpacks to a positive number or to positive
  infinity, and what unpacks above zero was packed above zero (`aboveZero_of_unpack_pack`).
* `Float.pos_of_div_pos`: a quotient above zero by a divisor that is not at most zero has its
  dividend above zero.
* `Float.lt_of_sub_pos`: a difference above zero has its subtrahend below its minuend. The
  difference of two finite floats is rounded from the difference of their mantissas on the lesser
  exponent, which has the sign of the difference of their values.
* `Float.negSigned_natCast`: a count as a float, read exactly or rounded, has no negative sign,
  nor has its quotient by a float without one (`Float.negSigned_natCast_div`); and a float below
  another that has no negative sign is finite (`Float.isFinite_of_lt`).
-/

namespace QueryAdvisor

open Float.Model UnpackedFloat Binary64

namespace UnpackedFloat

/-- The sign of a float that is a number or an infinity. -/
def sign? : UnpackedFloat → Option Sign
  | .finite s _ _ _ => some s
  | .zero s => some s
  | .infinity s => some s
  | .notANumber => none

/-- Above zero: a positive number or positive infinity. -/
def aboveZero : UnpackedFloat → Bool
  | .finite .positive _ _ _ => true
  | .infinity .positive => true
  | _ => false

/-- Of negative sign: a negative number, negative zero or negative infinity. -/
def negSigned : UnpackedFloat → Bool
  | .finite .negative _ _ _ => true
  | .zero .negative => true
  | .infinity .negative => true
  | _ => false

theorem sign?_of_aboveZero {u : UnpackedFloat} (h : aboveZero u = true) : sign? u = some .positive := by
  rcases u with ⟨_ | _⟩ | _ | ⟨_ | _⟩ | ⟨_ | _, m, e, hm⟩ <;> first | rfl | cases h

theorem sign?_of_negSigned {u : UnpackedFloat} (h : negSigned u = true) : sign? u = some .negative := by
  rcases u with ⟨_ | _⟩ | _ | ⟨_ | _⟩ | ⟨_ | _, m, e, hm⟩ <;> first | rfl | cases h

/-! ## Packing and rounding keep the sign -/

/-- Unpacking reads the sign bit, unless the word is a NaN. -/
theorem sign?_unpack (b : BitVec Format.binary64.numBits) :
    sign? (unpack .binary64 b) = none ∨ sign? (unpack .binary64 b) = some (Sign.ofBitVec (unpackSign b)) := by
  unfold UnpackedFloat.unpack
  dsimp only
  split
  · split
    · exact .inr rfl
    · exact .inl rfl
  · split
    · split
      · exact .inr rfl
      · exact .inr rfl
    · exact .inr rfl

theorem sign_of_unpack {b : BitVec Format.binary64.numBits} {t : Sign} (h : sign? (unpack .binary64 b) = some t) :
    Sign.ofBitVec (unpackSign b) = t := by
  rcases sign?_unpack b with hs | hs <;> rw [hs] at h
  · cases h
  · exact Option.some.inj h

theorem unpackSign_pack_finite (s : Sign) {m : ℕ} (e : ℤ) (hm : 0 < m) :
    unpackSign (pack .binary64 (.finite s m e hm)) = s.toBitVec := by
  simp only [UnpackedFloat.pack, UnpackedFloat.packedInfinity]
  split
  · exact Float.Model.UnpackedFloat.unpackSign_packComponents s _ _
  · split <;> exact Float.Model.UnpackedFloat.unpackSign_packComponents s _ _

/-- **What unpacks above zero was packed above zero.** -/
theorem aboveZero_of_unpack_pack {u : UnpackedFloat} (h : aboveZero (unpack .binary64 (pack .binary64 u)) = true) :
    aboveZero u = true := by
  rcases u with ⟨_ | _⟩ | _ | ⟨_ | _⟩ | ⟨_ | _, m, e, hm⟩
  · exact absurd h (by decide)
  · rfl
  · exact absurd h (by decide)
  · exact absurd h (by decide)
  · exact absurd h (by decide)
  · have hsign := sign_of_unpack (sign?_of_aboveZero h)
    rw [unpackSign_pack_finite] at hsign
    cases hsign
  · rfl

/-- **What unpacks with a negative sign was packed with one.** -/
theorem negSigned_of_unpack_pack {u : UnpackedFloat} (h : negSigned (unpack .binary64 (pack .binary64 u)) = true) :
    negSigned u = true := by
  rcases u with ⟨_ | _⟩ | _ | ⟨_ | _⟩ | ⟨_ | _, m, e, hm⟩
  · rfl
  · exact absurd h (by decide)
  · exact absurd h (by decide)
  · rfl
  · exact absurd h (by decide)
  · rfl
  · have hsign := sign_of_unpack (sign?_of_negSigned h)
    rw [unpackSign_pack_finite] at hsign
    cases hsign

theorem sign?_roundWithAccuracy (s : Sign) (m : ℕ) (e : ℤ) (acc : Accuracy) :
    sign? (roundWithAccuracy .binary64 s m e acc) = some s := by
  unfold UnpackedFloat.roundWithAccuracy
  dsimp only
  split
  · rfl
  · rfl

theorem sign_of_roundWithAccuracy {s t : Sign} {m : ℕ} {e : ℤ} {acc : Accuracy}
    (h : sign? (roundWithAccuracy .binary64 s m e acc) = some t) : s = t :=
  Option.some.inj ((sign?_roundWithAccuracy s m e acc).symm.trans h)

theorem sign_of_round {s t : Sign} {m : ℕ} {e : ℤ} (h : sign? (round .binary64 s m e) = some t) : s = t := by
  unfold UnpackedFloat.round at h
  exact sign_of_roundWithAccuracy h

/-! ## Above zero -/

theorem pos_of_aboveZero_normalize {n e : ℤ} {z : Sign} (h : aboveZero (normalize .binary64 n e z) = true) :
    0 < n := by
  unfold UnpackedFloat.normalize at h
  split at h
  · cases sign_of_round (sign?_of_aboveZero h)
  · cases z <;> simp [aboveZero] at h
  · next hgt => exact Int.compare_eq_gt.mp hgt

theorem aboveZero_of_div {x y : UnpackedFloat} (h : aboveZero (div .binary64 x y) = true)
    (hy : (y.compare (.zero .positive)).any Ordering.isLE = false) : aboveZero x = true := by
  rcases x with ⟨_ | _⟩ | _ | ⟨_ | _⟩ | ⟨_ | _, m₁, e₁, h₁⟩ <;>
    rcases y with ⟨_ | _⟩ | _ | ⟨_ | _⟩ | ⟨_ | _, m₂, e₂, h₂⟩
  case finite.negative.finite.positive =>
    simp only [UnpackedFloat.div] at h
    cases sign_of_roundWithAccuracy (sign?_of_aboveZero h)
  all_goals simp [aboveZero, UnpackedFloat.div, UnpackedFloat.compare] at h hy ⊢

theorem value_aligned (s : Sign) {m : ℕ} {e t : ℤ} (hm : 0 < m) (ht : t ≤ e) :
    value (.finite s m e hm) = (s.apply ((m <<< (e - t).toNat : ℕ) : ℤ) : ℚ) * 2 ^ t := by
  have hshift : ((m <<< (e - t).toNat : ℕ) : ℚ) * 2 ^ t = m * 2 ^ e := by
    rw [Nat.shiftLeft_eq, Nat.cast_mul, Nat.cast_pow, Nat.cast_ofNat, ← zpow_natCast, mul_assoc,
      ← zpow_add₀ two_ne_zero, Int.toNat_of_nonneg (by omega), sub_add_cancel]
  cases s with
  | positive => simp only [value, Sign.apply, Int.cast_natCast, hshift]
  | negative => simp only [value, Sign.apply, Int.cast_neg, Int.cast_natCast, neg_mul, hshift]

/-- **Of two finite floats, a difference rounded above zero has its subtrahend of lesser
value.** The difference is rounded from the difference of the mantissas aligned on the lesser
exponent, with the sign of that difference. -/
theorem value_lt_of_aboveZero_sub {a b : UnpackedFloat} (ha : a.isFinite = true) (hb : b.isFinite = true)
    (h : aboveZero (sub .binary64 a b) = true) : value b < value a := by
  rcases a with _ | _ | z₁ | ⟨s₁, m₁, e₁, h₁⟩ <;> simp [UnpackedFloat.isFinite] at ha <;>
    rcases b with _ | _ | z₂ | ⟨s₂, m₂, e₂, h₂⟩ <;> simp [UnpackedFloat.isFinite] at hb
  case zero.zero => cases z₁ <;> cases z₂ <;> exact absurd h (by decide)
  case zero.finite =>
    cases s₂ with
    | negative => simp only [value, Left.neg_neg_iff]; positivity
    | positive => simp [aboveZero, UnpackedFloat.sub] at h
  case finite.zero =>
    cases s₁ with
    | negative => simp [aboveZero, UnpackedFloat.sub] at h
    | positive => simp only [value]; positivity
  case finite.finite =>
    simp only [UnpackedFloat.sub, decreaseExponent] at h
    have hpos := pos_of_aboveZero_normalize h
    rw [value_aligned s₁ h₁ (min_le_left e₁ e₂), value_aligned s₂ h₂ (min_le_right e₁ e₂)]
    have hpow : (0 : ℚ) < 2 ^ min e₁ e₂ := zpow_pos two_pos _
    have hdiff : (0 : ℚ) < ((s₁.apply _ - s₂.apply _ : ℤ) : ℚ) := Int.cast_pos.mpr hpos
    rw [Int.cast_sub] at hdiff
    nlinarith

/-- Of two floats not both finite, a difference above zero has its subtrahend below its
minuend. -/
theorem compare_lt_of_aboveZero_sub {a b : UnpackedFloat} (hfin : ¬(a.isFinite = true ∧ b.isFinite = true))
    (h : aboveZero (sub .binary64 a b) = true) : b.compare a = some .lt := by
  rcases a with ⟨_ | _⟩ | _ | ⟨_ | _⟩ | ⟨_ | _, m₁, e₁, h₁⟩ <;>
    rcases b with ⟨_ | _⟩ | _ | ⟨_ | _⟩ | ⟨_ | _, m₂, e₂, h₂⟩ <;>
    simp +decide [UnpackedFloat.isFinite, aboveZero, UnpackedFloat.sub, UnpackedFloat.compare] at hfin h ⊢

/-! ## Negative signs -/

theorem negSigned_normalize_of_nonneg {n e : ℤ} (hn : 0 ≤ n) :
    negSigned (normalize .binary64 n e .positive) = false := by
  unfold UnpackedFloat.normalize
  split
  · next hlt => exact absurd (Int.compare_eq_lt.mp hlt) (by omega)
  · rfl
  · rw [Bool.eq_false_iff]
    intro h
    cases sign_of_round (sign?_of_negSigned h)

theorem negSigned_of_mul {x y : UnpackedFloat} (h : negSigned (mul .binary64 x y) = true) :
    negSigned x = true ∨ negSigned y = true := by
  rcases x with ⟨_ | _⟩ | _ | ⟨_ | _⟩ | ⟨_ | _, m₁, e₁, h₁⟩ <;>
    rcases y with ⟨_ | _⟩ | _ | ⟨_ | _⟩ | ⟨_ | _, m₂, e₂, h₂⟩
  case finite.positive.finite.positive =>
    simp only [UnpackedFloat.mul] at h
    cases sign_of_roundWithAccuracy (sign?_of_negSigned h)
  all_goals simp [negSigned, UnpackedFloat.mul] at h ⊢

theorem negSigned_of_div {x y : UnpackedFloat} (h : negSigned (div .binary64 x y) = true) :
    negSigned x = true ∨ negSigned y = true := by
  rcases x with ⟨_ | _⟩ | _ | ⟨_ | _⟩ | ⟨_ | _, m₁, e₁, h₁⟩ <;>
    rcases y with ⟨_ | _⟩ | _ | ⟨_ | _⟩ | ⟨_ | _, m₂, e₂, h₂⟩
  case finite.positive.finite.positive =>
    simp only [UnpackedFloat.div] at h
    cases sign_of_roundWithAccuracy (sign?_of_negSigned h)
  all_goals simp [negSigned, UnpackedFloat.div] at h ⊢

theorem negSigned_ofScientific (m : ℕ) (e : ℤ) : negSigned (UnpackedFloat.ofScientific .binary64 m e) = false := by
  rw [Bool.eq_false_iff]
  intro h
  unfold UnpackedFloat.ofScientific at h
  split at h
  · exact absurd h (by decide)
  · split at h
    · exact absurd h (by decide)
    · split at h
      · exact absurd h (by decide)
      · split at h
        · rcases negSigned_of_mul h with h | h <;> simp [negSigned] at h
        · rcases negSigned_of_div h with h | h <;> simp [negSigned] at h

theorem negSigned_ofNat (n : ℕ) : negSigned (UnpackedFloat.ofNat .binary64 n) = false :=
  negSigned_normalize_of_nonneg (Int.natCast_nonneg n)

end UnpackedFloat
namespace Float

variable {x y : Float}

/-- **A float is above zero exactly when it unpacks to a positive number or to positive
infinity.** -/
theorem zero_lt_iff : 0 < x ↔ aboveZero x.toModel.unpack = true := by
  rw [lt_iff_compare, unpack_zero]
  generalize x.toModel.unpack = u
  rcases u with ⟨_ | _⟩ | _ | ⟨_ | _⟩ | ⟨_ | _, m, e, hm⟩ <;> simp [UnpackedFloat.compare, aboveZero]

theorem unpack_div : (x / y).toModel.unpack =
    unpack .binary64 (pack .binary64 (div .binary64 x.toModel.unpack y.toModel.unpack)) := rfl

theorem unpack_sub : (x - y).toModel.unpack =
    unpack .binary64 (pack .binary64 (sub .binary64 x.toModel.unpack y.toModel.unpack)) := rfl

/-- **A quotient above zero by a divisor that is not at most zero has its dividend above
zero.** -/
theorem pos_of_div_pos (h : 0 < x / y) (hy : ¬y ≤ 0) : 0 < x := by
  rw [zero_lt_iff, unpack_div] at h
  rw [le_iff_compare, unpack_zero, Bool.not_eq_true] at hy
  exact zero_lt_iff.mpr (aboveZero_of_div (aboveZero_of_unpack_pack h) hy)

/-- **A difference above zero has its subtrahend below its minuend.** -/
theorem lt_of_sub_pos (h : 0 < x - y) : y < x := by
  rw [zero_lt_iff, unpack_sub] at h
  replace h := aboveZero_of_unpack_pack h
  by_cases hfin : x.toModel.unpack.isFinite = true ∧ y.toModel.unpack.isFinite = true
  · have hx := canonical_unpack _ hfin.1
    have hy := canonical_unpack _ hfin.2
    exact (lt_iff_value hy hx).mpr (value_lt_of_aboveZero_sub hfin.1 hfin.2 h)
  · exact lt_iff_compare.mpr (compare_lt_of_aboveZero_sub hfin h)

theorem unpack_mul : (x * y).toModel.unpack =
    unpack .binary64 (pack .binary64 (mul .binary64 x.toModel.unpack y.toModel.unpack)) := rfl

/-- **A count as a float has no negative sign**, whether it is read exactly or rounded. -/
theorem negSigned_natCast (n : ℕ) : negSigned n.toFloat.toModel.unpack = false := by
  have hof : n.toFloat = Float.ofScientific n false 0 := rfl
  rw [Bool.eq_false_iff, hof, Float.ofScientific]
  intro h
  split at h
  · rw [if_neg Bool.false_ne_true, unpack_mul] at h
    have hword : (UInt64.toFloat n.toUInt64).toModel.unpack =
        unpack .binary64 (pack .binary64 (UnpackedFloat.ofNat .binary64 n.toUInt64.toNat)) := rfl
    have hone : (GetElem.getElem Float.exactlyRepresentablePowersOfTen 0 (by decide) : Float).toModel.unpack =
        .finite .positive (2 ^ 52) (-52) (by positivity) := rfl
    rw [hword, hone] at h
    rcases negSigned_of_mul (negSigned_of_unpack_pack h) with h | h
    · exact absurd (negSigned_of_unpack_pack h) (by rw [negSigned_ofNat]; decide)
    · exact absurd h (by decide)
  · exact absurd (negSigned_of_unpack_pack h) (by rw [negSigned_ofScientific]; decide)

theorem negSigned_natCast_div (n : ℕ) (hy : negSigned y.toModel.unpack = false) :
    negSigned (n.toFloat / y).toModel.unpack = false := by
  rw [Bool.eq_false_iff, unpack_div]
  intro h
  rcases negSigned_of_div (negSigned_of_unpack_pack h) with h | h
  · rw [negSigned_natCast] at h
    cases h
  · rw [hy] at h
    cases h

theorem isNaN_of_lt (h : x < y) : x.isNaN = false ∧ y.isNaN = false :=
  UnpackedFloat.isNaN_of_isLE (le_iff_compare.mp (le_of_lt h))

theorem isNaN_of_isFinite (h : x.isFinite = true) : x.isNaN = false := by
  change x.toModel.unpack.isFinite = true at h
  show x.toModel.unpack.isNaN = false
  generalize x.toModel.unpack = u at h
  rcases u with _ | _ | _ | _ <;> simp [UnpackedFloat.isFinite, UnpackedFloat.isNaN] at h ⊢

/-- **A float below another and of no negative sign is finite.** -/
theorem isFinite_of_lt (h : x < y) (hx : negSigned x.toModel.unpack = false) : x.isFinite = true := by
  rw [lt_iff_compare] at h
  show x.toModel.unpack.isFinite = true
  generalize x.toModel.unpack = u at h hx
  rcases u with ⟨_ | _⟩ | _ | ⟨_ | _⟩ | ⟨_ | _, m, e, hm⟩
  · cases hx
  · generalize y.toModel.unpack = v at h
    rcases v with ⟨_ | _⟩ | _ | ⟨_ | _⟩ | ⟨_ | _, m, e, hm⟩ <;> simp [UnpackedFloat.compare] at h
  · simp [UnpackedFloat.compare] at h
  all_goals rfl

/-- A float from zero to one, bounds not checked for a NaN, is finite unless it is NaN. -/
theorem isFinite_of_unit (h0 : ¬x < 0) (h1 : ¬x > 1) : x.isFinite = !x.isNaN := by
  rw [lt_iff_compare, unpack_zero] at h0
  rw [gt_iff_lt, lt_iff_compare, unpack_one] at h1
  show x.toModel.unpack.isFinite = !x.toModel.unpack.isNaN
  generalize x.toModel.unpack = u at h0 h1
  rcases u with ⟨_ | _⟩ | _ | ⟨_ | _⟩ | ⟨_ | _, m, e, hm⟩ <;>
    simp [UnpackedFloat.compare, UnpackedFloat.isFinite, UnpackedFloat.isNaN] at h0 h1 ⊢

end Float

end QueryAdvisor
