import Mathlib
/-!
# Rounding to nearest, ties to even

Every arithmetic operation of the logical model of floats computes a mantissa and an exponent,
shifts the mantissa onto the grid of 53 significant bits (never finer than `2^-1074`), keeping
what it shifts out in a round bit and a sticky bit, and rounds. This module says over the
rationals what that computes, and proves the model computes it.

* `roundEven`: the integer nearest a rational, the even one of two at a tie; monotone
  (`roundEven_mono`).
* `gridExponent`, `roundNearest`: binary64 rounding of a positive rational. It is monotone
  (`roundNearest_mono`), leaves what binary64 holds alone (`roundNearest_of_representable`) and
  never falls more than half a step below the rational (`lt_roundNearest`).
* `Represents`: what an extended mantissa of the model knows of the exact value it stands for.
  Every shift keeps it (`Represents.shiftRight`), and the rounded mantissa is the exact value
  rounded to an integer (`Represents.roundedMantissa_eq`).
* `nearest`: the unpacked float nearest a positive rational.
* `roundWithAccuracy_eq_nearest`: **the model's rounding gives the float nearest the exact
  value**, for an exponent no coarser than the grid.
-/

namespace QueryAdvisor

open Float.Model UnpackedFloat

namespace Binary64

/-! ## Rounding a rational to an integer -/

/-- The integer nearest `x`; of two at the same distance, the even one. -/
def roundEven (x : ℚ) : ℤ :=
  if x - ⌊x⌋ < 1 / 2 then ⌊x⌋
  else if 1 / 2 < x - ⌊x⌋ then ⌊x⌋ + 1
  else ⌊x⌋ + ⌊x⌋ % 2

theorem roundEven_of_lt {x : ℚ} (h : x - ⌊x⌋ < 1 / 2) : roundEven x = ⌊x⌋ := if_pos h

theorem roundEven_of_gt {x : ℚ} (h : 1 / 2 < x - ⌊x⌋) : roundEven x = ⌊x⌋ + 1 := by
  rw [roundEven, if_neg (by linarith), if_pos h]

theorem roundEven_of_eq {x : ℚ} (h : x - ⌊x⌋ = 1 / 2) : roundEven x = ⌊x⌋ + ⌊x⌋ % 2 := by
  rw [roundEven, if_neg (by linarith), if_neg (by linarith)]

theorem roundEven_bounds (x : ℚ) : ⌊x⌋ ≤ roundEven x ∧ roundEven x ≤ ⌊x⌋ + 1 := by
  unfold roundEven
  split_ifs <;> omega

@[simp] theorem roundEven_intCast (k : ℤ) : roundEven k = k := by
  simp [roundEven]

@[simp] theorem roundEven_natCast (n : ℕ) : roundEven n = n := by
  exact_mod_cast roundEven_intCast n

/-- **Rounding to an integer is monotone.** -/
theorem roundEven_mono {x y : ℚ} (h : x ≤ y) : roundEven x ≤ roundEven y := by
  have hfloor : ⌊x⌋ ≤ ⌊y⌋ := Int.floor_mono h
  rcases lt_or_eq_of_le hfloor with hlt | heq
  · have hx := (roundEven_bounds x).2
    have hy := (roundEven_bounds y).1
    omega
  · unfold roundEven
    rw [heq]
    split_ifs <;> first | omega | linarith

theorem roundEven_le_of_le {x : ℚ} {k : ℤ} (h : x ≤ k) : roundEven x ≤ k := by
  simpa using roundEven_mono h

theorem le_roundEven_of_le {x : ℚ} {k : ℤ} (h : (k : ℚ) ≤ x) : k ≤ roundEven x := by
  simpa using roundEven_mono h

theorem lt_roundEven {x : ℚ} {k : ℤ} (h : (k : ℚ) + 1 / 2 < x) : k < roundEven x := by
  have hk : k ≤ ⌊x⌋ := Int.le_floor.mpr (by linarith)
  rcases lt_or_eq_of_le hk with hlt | rfl
  · exact lt_of_lt_of_le hlt (roundEven_bounds x).1
  · unfold roundEven
    rw [if_neg (by linarith), if_pos (by linarith)]
    omega

/-! ## The binary64 grid -/

/-- The exponent of the grid binary64 rounds a positive `x` to: the place of its 53rd
significant bit, but never below `-1074`. -/
def gridExponent (x : ℚ) : ℤ := max (Int.log 2 x - 52) (-1074)

/-- Binary64 rounding of `x`, to nearest and ties to even, before any overflow. -/
def roundNearest (x : ℚ) : ℚ := roundEven (x / 2 ^ gridExponent x) * 2 ^ gridExponent x

theorem log_two_eq {x : ℚ} {n : ℤ} (hx : 0 < x) (h₁ : 2 ^ n ≤ x) (h₂ : x < 2 ^ (n + 1)) :
    Int.log 2 x = n := by
  have ha := (Int.zpow_le_iff_le_log (b := 2) (by norm_num) hx).mp (by exact_mod_cast h₁)
  have hb := (Int.lt_zpow_iff_log_lt (b := 2) (by norm_num) hx).mp (by exact_mod_cast h₂)
  omega

theorem gridExponent_mono {x y : ℚ} (hx : 0 < x) (h : x ≤ y) : gridExponent x ≤ gridExponent y := by
  have := Int.log_mono_right (b := 2) hx h
  unfold gridExponent
  omega

theorem div_grid_lt (x : ℚ) : x / 2 ^ gridExponent x < 2 ^ 53 := by
  have h := Int.lt_zpow_succ_log_self (b := 2) (by norm_num) x
  rw [div_lt_iff₀ (by positivity)]
  calc x < 2 ^ (Int.log 2 x + 1) := by exact_mod_cast h
    _ ≤ 2 ^ ((53 : ℤ) + gridExponent x) :=
        zpow_le_zpow_right₀ (by norm_num) (by unfold gridExponent; omega)
    _ = 2 ^ 53 * 2 ^ gridExponent x := by rw [zpow_add₀ (by norm_num)]; norm_num

theorem le_div_grid {x : ℚ} (hx : 0 < x) (hE : gridExponent x ≠ -1074) :
    2 ^ 52 ≤ x / 2 ^ gridExponent x := by
  have h := Int.zpow_log_le_self (b := 2) (by norm_num) hx
  have hE' : gridExponent x + 52 = Int.log 2 x := by
    unfold gridExponent at hE ⊢
    omega
  rw [le_div_iff₀ (by positivity)]
  calc (2 : ℚ) ^ 52 * 2 ^ gridExponent x = 2 ^ (gridExponent x + 52) := by
        rw [zpow_add₀ (by norm_num)]; norm_num; ring
    _ = 2 ^ Int.log 2 x := by rw [hE']
    _ ≤ x := by exact_mod_cast h

theorem roundNearest_le_top (x : ℚ) : roundNearest x ≤ 2 ^ (gridExponent x + 53) := by
  have hr : roundEven (x / 2 ^ gridExponent x) ≤ (2 ^ 53 : ℤ) :=
    roundEven_le_of_le (by push_cast; exact (div_grid_lt x).le)
  have hr' : (roundEven (x / 2 ^ gridExponent x) : ℚ) ≤ 2 ^ 53 := by exact_mod_cast hr
  unfold roundNearest
  calc (roundEven (x / 2 ^ gridExponent x) : ℚ) * 2 ^ gridExponent x ≤ 2 ^ 53 * 2 ^ gridExponent x :=
        mul_le_mul_of_nonneg_right hr' (by positivity)
    _ = 2 ^ (gridExponent x + 53) := by rw [zpow_add₀ (by norm_num)]; norm_num; ring

theorem bottom_le_roundNearest {x : ℚ} (hx : 0 < x) (hE : gridExponent x ≠ -1074) :
    2 ^ (gridExponent x + 52) ≤ roundNearest x := by
  have hr : (2 ^ 52 : ℤ) ≤ roundEven (x / 2 ^ gridExponent x) :=
    le_roundEven_of_le (by push_cast; exact le_div_grid hx hE)
  have hr' : (2 : ℚ) ^ 52 ≤ roundEven (x / 2 ^ gridExponent x) := by exact_mod_cast hr
  unfold roundNearest
  calc (2 : ℚ) ^ (gridExponent x + 52) = 2 ^ 52 * 2 ^ gridExponent x := by
        rw [zpow_add₀ (by norm_num)]; norm_num; ring
    _ ≤ (roundEven (x / 2 ^ gridExponent x) : ℚ) * 2 ^ gridExponent x :=
        mul_le_mul_of_nonneg_right hr' (by positivity)

/-- **Binary64 rounding is monotone.** -/
theorem roundNearest_mono {x y : ℚ} (hx : 0 < x) (h : x ≤ y) : roundNearest x ≤ roundNearest y := by
  rcases lt_or_eq_of_le (gridExponent_mono hx h) with hlt | heq
  · have hmin : -1074 ≤ gridExponent x := le_max_right _ _
    calc roundNearest x ≤ 2 ^ (gridExponent x + 53) := roundNearest_le_top x
      _ ≤ 2 ^ (gridExponent y + 52) := zpow_le_zpow_right₀ (by norm_num) (by omega)
      _ ≤ roundNearest y := bottom_le_roundNearest (lt_of_lt_of_le hx h) (by omega)
  · unfold roundNearest
    rw [heq]
    apply mul_le_mul_of_nonneg_right _ (by positivity)
    exact_mod_cast roundEven_mono (div_le_div_of_nonneg_right h (by positivity))

/-- **A rational that binary64 holds rounds to itself.** -/
theorem roundNearest_of_representable {m : ℕ} {e : ℤ} (hm : 0 < m) (hlt : m < 2 ^ 53)
    (he : -1074 ≤ e) : roundNearest (m * 2 ^ e) = m * 2 ^ e := by
  have hx : (0 : ℚ) < m * 2 ^ e := by positivity
  have hE : gridExponent (m * 2 ^ e) ≤ e := by
    have hlog : Int.log 2 ((m : ℚ) * 2 ^ e) < 53 + e := by
      apply (Int.lt_zpow_iff_log_lt (b := 2) (by norm_num) hx).mp
      rw [zpow_add₀ (by norm_num)]
      push_cast
      exact mul_lt_mul_of_pos_right (by exact_mod_cast hlt) (by positivity)
    unfold gridExponent
    omega
  have hint : (m : ℚ) * 2 ^ e / 2 ^ gridExponent (m * 2 ^ e) =
      ((m * 2 ^ (e - gridExponent (m * 2 ^ e)).toNat : ℕ) : ℤ) := by
    push_cast
    rw [← zpow_natCast, Int.toNat_of_nonneg (by omega), mul_div_assoc, ← zpow_sub₀ (by norm_num)]
  unfold roundNearest
  rw [hint, roundEven_intCast, ← hint]
  exact div_mul_cancel₀ _ (by positivity)

theorem lt_roundNearest {x : ℚ} {k : ℤ} (h : (k + 1 / 2) * 2 ^ gridExponent x < x) :
    k * 2 ^ gridExponent x < roundNearest x := by
  have hk : (k : ℚ) + 1 / 2 < x / 2 ^ gridExponent x := by
    rw [lt_div_iff₀ (by positivity)]
    exact h
  have hr : (k : ℚ) + 1 ≤ roundEven (x / 2 ^ gridExponent x) := by
    exact_mod_cast lt_roundEven hk
  unfold roundNearest
  calc (k : ℚ) * 2 ^ gridExponent x < (k + 1) * 2 ^ gridExponent x := by
        apply mul_lt_mul_of_pos_right (by linarith) (by positivity)
    _ ≤ roundEven (x / 2 ^ gridExponent x) * 2 ^ gridExponent x :=
        mul_le_mul_of_nonneg_right hr (by positivity)


/-! ## What the model's rounding knows -/

/-- What an extended mantissa of the model knows of the exact value `x` it stands for: its
mantissa is the whole part of `x`, its round bit says the rest is at least a half, its sticky
bit that the rest is neither nothing nor a half. -/
def Represents : ExtendedMantissa → ℚ → Prop
  | ⟨m, false, false⟩, x => x = m
  | ⟨m, false, true⟩, x => m < x ∧ x < m + 1 / 2
  | ⟨m, true, false⟩, x => x = m + 1 / 2
  | ⟨m, true, true⟩, x => m + 1 / 2 < x ∧ x < m + 1

namespace Represents

variable {em : ExtendedMantissa} {x : ℚ}

theorem floor_eq (h : Represents em x) : ⌊x⌋ = em.mantissa := by
  rcases em with ⟨m, _ | _, _ | _⟩ <;> simp only [Represents] at h <;>
    refine Int.floor_eq_iff.mpr ⟨?_, ?_⟩ <;> push_cast <;> linarith

/-- **The rounded mantissa is the exact value rounded to an integer.** -/
theorem roundedMantissa_eq (h : Represents em x) : (em.roundedMantissa : ℤ) = roundEven x := by
  have hfloor := h.floor_eq
  rcases em with ⟨m, _ | _, _ | _⟩ <;> simp only [Represents] at h <;> dsimp only at hfloor
  · rw [roundEven_of_lt (by rw [hfloor]; push_cast; linarith), hfloor]
    rfl
  · rw [roundEven_of_lt (by rw [hfloor]; push_cast; linarith), hfloor]
    rfl
  · rw [roundEven_of_eq (by rw [hfloor]; push_cast; linarith), hfloor]
    show ((m + m % 2 : ℕ) : ℤ) = _
    omega
  · rw [roundEven_of_gt (by rw [hfloor]; push_cast; linarith), hfloor]
    rfl

/-- Shifting right by one halves the value, the bit shifted out joining the round bit and the
round bit joining the sticky bit. -/
theorem shiftRightOne (h : Represents em x) : Represents em.shiftRightOne (x / 2) := by
  rcases em with ⟨m, r, s⟩
  have hm : (m : ℚ) = 2 * ((m / 2 : ℕ) : ℚ) + ((m % 2 : ℕ) : ℚ) := by
    exact_mod_cast (Nat.div_add_mod m 2).symm
  rcases Nat.mod_two_eq_zero_or_one m with hp | hp <;>
    simp only [hp, Nat.cast_zero, Nat.cast_one] at hm <;>
    cases r <;> cases s <;>
    simp only [Represents, ExtendedMantissa.shiftRightOne, hp, Bool.or_false, Bool.or_true,
      show ((0 : ℕ) != 0) = false from rfl, show ((1 : ℕ) != 0) = true from rfl] at h ⊢ <;>
    first | (constructor <;> linarith) | linarith

theorem shiftRight (h : Represents em x) (n : ℕ) : Represents (em >>> n) (x / 2 ^ n) := by
  induction n with
  | zero => simpa [HShiftRight.hShiftRight, Nat.repeat] using h
  | succ n ih =>
    have hstep := ih.shiftRightOne
    rw [pow_succ, ← div_div]
    exact hstep

end Represents

@[simp] theorem mantissa_ofMantissaAndAccuracy (m : ℕ) (acc : Accuracy) :
    (ExtendedMantissa.ofMantissaAndAccuracy m acc).mantissa = m := by
  rcases acc with _ | (_ | _ | _) <;> rfl

theorem represents_exact (m : ℕ) : Represents (.ofMantissaAndAccuracy m .exact) m := rfl

/-- The quotient of a division with the accuracy of its remainder stands for the exact
quotient. -/
theorem represents_fraction (q r d : ℕ) (hrd : r < d) :
    Represents (.ofMantissaAndAccuracy q (accuracyOfFraction r d)) (q + r / d) := by
  have hd : (0 : ℚ) < d := by exact_mod_cast (Nat.lt_of_le_of_lt (Nat.zero_le r) hrd)
  have hlt : (r : ℚ) / d < 1 := (div_lt_one hd).mpr (by exact_mod_cast hrd)
  unfold accuracyOfFraction
  split
  · next hr => simp [hr, Represents, ExtendedMantissa.ofMantissaAndAccuracy]
  · next hr =>
    have hpos : (0 : ℚ) < r / d := div_pos (by exact_mod_cast Nat.pos_of_ne_zero hr) hd
    rcases hc : compare (2 * r) d with _ | _ | _ <;>
      simp only [Represents, ExtendedMantissa.ofMantissaAndAccuracy]
    · have : 2 * r < d := Nat.compare_eq_lt.mp hc
      have : (r : ℚ) / d < 1 / 2 := by
        rw [div_lt_iff₀ hd]; have : (2 * r : ℚ) < d := by exact_mod_cast this
        linarith
      constructor <;> linarith
    · have : 2 * r = d := Nat.compare_eq_eq.mp hc
      have : (r : ℚ) / d = 1 / 2 := by
        rw [div_eq_iff hd.ne']; have : (2 * r : ℚ) = d := by exact_mod_cast this
        linarith
      linarith
    · have : d < 2 * r := Nat.compare_eq_gt.mp hc
      have : 1 / 2 < (r : ℚ) / d := by
        rw [lt_div_iff₀ hd]; have : (d : ℚ) < 2 * r := by exact_mod_cast this
        linarith
      constructor <;> linarith

/-! ## The model's rounding is rounding to nearest -/

/-- The unpacked binary64 float nearest to a positive rational `x`, ties to even, before any
overflow: its mantissa on the grid of `x`, carried into the next binade when it rounds up to
`2^53`. -/
def nearest (s : Sign) (x : ℚ) : UnpackedFloat :=
  let r := (roundEven (x / 2 ^ gridExponent x)).toNat
  if h : r = 0 then .zero s
  else if r < 2 ^ 53 then .finite s r (gridExponent x) (Nat.pos_of_ne_zero h)
  else .finite s (2 ^ 52) (gridExponent x + 1) (Nat.two_pow_pos 52)

theorem targetExponent_eq (m : ℕ) (e : ℤ) :
    Format.binary64.targetExponent (totalExponent m e) = max ((m.log2 : ℤ) + e - 52) (-1074) := by
  simp only [Format.targetExponent, totalExponent, Format.mantissaBits, Format.minExponent]
  norm_num
  omega

theorem log_two_mul_zpow {y : ℚ} {m : ℕ} (hm : 0 < m) (hfloor : ⌊y⌋ = m) (e : ℤ) :
    Int.log 2 (y * 2 ^ e) = m.log2 + e := by
  have hlo : (2 : ℚ) ^ m.log2 ≤ y := by
    have h₁ : 2 ^ m.log2 ≤ m := Nat.log2_self_le (Nat.pos_iff_ne_zero.mp hm)
    have h₂ : (m : ℚ) ≤ y := by exact_mod_cast (Int.floor_eq_iff.mp hfloor).1
    calc (2 : ℚ) ^ m.log2 ≤ m := by exact_mod_cast h₁
      _ ≤ y := h₂
  have hhi : y < (2 : ℚ) ^ (m.log2 + 1) := by
    have h₁ : m < 2 ^ (m.log2 + 1) := Nat.lt_log2_self
    have h₂ : y < (m : ℚ) + 1 := by exact_mod_cast (Int.floor_eq_iff.mp hfloor).2
    calc y < (m : ℚ) + 1 := h₂
      _ ≤ (2 : ℚ) ^ (m.log2 + 1) := by exact_mod_cast h₁
  have hy : 0 < y := lt_of_lt_of_le (by positivity) hlo
  apply log_two_eq (by positivity)
  · rw [zpow_add₀ (by norm_num)]
    exact mul_le_mul_of_nonneg_right (by exact_mod_cast hlo) (by positivity)
  · rw [show (m.log2 : ℤ) + e + 1 = (m.log2 + 1 : ℕ) + e by push_cast; ring, zpow_add₀ (by norm_num)]
    exact mul_lt_mul_of_pos_right (by exact_mod_cast hhi) (by positivity)

theorem shiftToTargetExponent_represents {m : ℕ} {e : ℤ} {acc : Accuracy} {y : ℚ}
    (hy : Represents (.ofMantissaAndAccuracy m acc) y) (hm : 0 < m)
    (he : e ≤ Format.binary64.targetExponent (totalExponent m e)) :
    (shiftToTargetExponent .binary64 m e acc).2 = gridExponent (y * 2 ^ e) ∧
      Represents (shiftToTargetExponent .binary64 m e acc).1 (y * 2 ^ e / 2 ^ gridExponent (y * 2 ^ e)) := by
  have hgrid : gridExponent (y * 2 ^ e) = Format.binary64.targetExponent (totalExponent m e) := by
    have hfloor : ⌊y⌋ = m := by rw [hy.floor_eq, mantissa_ofMantissaAndAccuracy]
    rw [gridExponent, log_two_mul_zpow hm hfloor e, targetExponent_eq]
  rw [hgrid]
  refine ⟨by simp only [shiftToTargetExponent, shiftToExponent]; omega, ?_⟩
  have hshift := hy.shiftRight (Format.binary64.targetExponent (totalExponent m e) - e).toNat
  have hval : y * 2 ^ e / 2 ^ Format.binary64.targetExponent (totalExponent m e) =
      y / 2 ^ (Format.binary64.targetExponent (totalExponent m e) - e).toNat := by
    rw [← zpow_natCast, Int.toNat_of_nonneg (by omega), zpow_sub₀ (by norm_num)]
    field_simp
  rw [hval]
  exact hshift

theorem shiftToTargetExponent_small {r : ℕ} {e : ℤ} (hr : r < 2 ^ 53) (he : -1074 ≤ e) :
    shiftToTargetExponent .binary64 r e .exact = (⟨r, false, false⟩, e) := by
  have hlog : r.log2 ≤ 52 := by
    rcases Nat.eq_zero_or_pos r with rfl | hpos
    · simp
    · have := (Nat.log2_lt (Nat.pos_iff_ne_zero.mp hpos)).mpr hr
      omega
  have hk : (Format.binary64.targetExponent (totalExponent r e) - e).toNat = 0 := by
    rw [targetExponent_eq]
    omega
  simp only [shiftToTargetExponent, shiftToExponent, hk]
  simp [HShiftRight.hShiftRight, Nat.repeat, ExtendedMantissa.ofMantissaAndAccuracy]

theorem shiftToTargetExponent_carry {e : ℤ} (he : -1074 ≤ e) :
    shiftToTargetExponent .binary64 (2 ^ 53) e .exact = (⟨2 ^ 52, false, false⟩, e + 1) := by
  have hk : (Format.binary64.targetExponent (totalExponent (2 ^ 53) e) - e).toNat = 1 := by
    rw [targetExponent_eq, Nat.log2_two_pow]
    omega
  simp only [shiftToTargetExponent, shiftToExponent, hk]
  simp [HShiftRight.hShiftRight, Nat.repeat, ExtendedMantissa.ofMantissaAndAccuracy,
    ExtendedMantissa.shiftRightOne]

/-- **The model's rounding gives the float nearest the exact value.** Rounding a mantissa `m`
at exponent `e` whose extended form stands for `y`, with `e` no coarser than the grid, is
`nearest` of `y * 2^e`. -/
theorem roundWithAccuracy_eq_nearest (s : Sign) {m : ℕ} {e : ℤ} {acc : Accuracy} {y : ℚ}
    (hy : Represents (.ofMantissaAndAccuracy m acc) y) (hm : 0 < m)
    (he : e ≤ Format.binary64.targetExponent (totalExponent m e)) :
    roundWithAccuracy .binary64 s m e acc = nearest s (y * 2 ^ e) := by
  obtain ⟨hE, hrep⟩ := shiftToTargetExponent_represents hy hm he
  have hround := hrep.roundedMantissa_eq
  have hmin : -1074 ≤ gridExponent (y * 2 ^ e) := le_max_right _ _
  have hle : roundEven (y * 2 ^ e / 2 ^ gridExponent (y * 2 ^ e)) ≤ (2 ^ 53 : ℤ) :=
    roundEven_le_of_le (by push_cast; exact (div_grid_lt _).le)
  unfold roundWithAccuracy nearest
  generalize shiftToTargetExponent .binary64 m e acc = first at hE hround
  obtain ⟨em, e₁⟩ := first
  dsimp only at hE hround ⊢
  subst hE
  rw [← hround, Int.toNat_natCast]
  rcases lt_or_eq_of_le (show em.roundedMantissa ≤ 2 ^ 53 by omega) with hlt | heq
  · rw [shiftToTargetExponent_small hlt hmin]
    simp only [hlt, ↓reduceIte]
  · rw [heq, shiftToTargetExponent_carry hmin]
    simp

end Binary64

end QueryAdvisor
