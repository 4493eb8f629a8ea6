import Mathlib
import QueryAdvisor.Predicate.Selectivity
/-!
# The order of floats away from NaN

Floats compare as IEEE says: a NaN compares with nothing, so `≤` and `<` are not the complement
of each other. Away from NaN they are. The comparison of the logical model is symmetric
(`UnpackedFloat.compare_swap`) and gives an answer whenever neither side is NaN
(`UnpackedFloat.compare_isSome`). So of two floats that are not NaN, one that is not at most the
other is above it (`Float.lt_of_not_le`), and one that is not above the other is at most it
(`Float.le_of_not_lt`).

The unit clamp sends what is below zero to zero and what is above one to one. It is
idempotent, and what it returns, when not NaN, is at most one.
-/

namespace QueryAdvisor

open Float.Model

/-! ## The comparison of the logical model -/

namespace UnpackedFloat

theorem compare_swap (a b : UnpackedFloat) : b.compare a = (a.compare b).map Ordering.swap := by
  rcases a with ⟨_ | _⟩ | _ | ⟨_ | _⟩ | ⟨_ | _, m₁, e₁, h₁⟩ <;>
    rcases b with ⟨_ | _⟩ | _ | ⟨_ | _⟩ | ⟨_ | _, m₂, e₂, h₂⟩ <;>
    first
    | rfl
    | dsimp only [UnpackedFloat.compare, Option.map]
      simp only [Ordering.swap_then, Int.compare_swap, Nat.compare_swap]

theorem compare_isSome {a b : UnpackedFloat} (ha : a.isNaN = false) (hb : b.isNaN = false) :
    (a.compare b).isSome := by
  rcases a with ⟨_ | _⟩ | _ | ⟨_ | _⟩ | ⟨_ | _, m₁, e₁, h₁⟩ <;>
    rcases b with ⟨_ | _⟩ | _ | ⟨_ | _⟩ | ⟨_ | _, m₂, e₂, h₂⟩ <;>
    first | rfl | exact absurd ha (by decide) | exact absurd hb (by decide)

/-! ## The order as a lexicographic order -/

/-- Where a float stands in the order of the model: its class (negative infinity, negative
numbers, zeros, positive numbers, positive infinity), then its exponent and its mantissa, both
negated for a negative number. -/
def place : UnpackedFloat → Int × Int × Int
  | .infinity .negative => (0, 0, 0)
  | .finite .negative m e _ => (1, -e, -(m : Int))
  | .zero _ | .notANumber => (2, 0, 0)
  | .finite .positive m e _ => (3, e, m)
  | .infinity .positive => (4, 0, 0)

/-- The lexicographic order of places. -/
def PlaceLE (p q : Int × Int × Int) : Prop :=
  p.1 < q.1 ∨ p.1 = q.1 ∧ (p.2.1 < q.2.1 ∨ p.2.1 = q.2.1 ∧ p.2.2 ≤ q.2.2)

theorem PlaceLE.trans {p q r : Int × Int × Int} (hpq : PlaceLE p q) (hqr : PlaceLE q r) : PlaceLE p r := by
  unfold PlaceLE at *
  omega

theorem isNaN_of_isLE {a b : UnpackedFloat} (h : (a.compare b).any Ordering.isLE = true) :
    a.isNaN = false ∧ b.isNaN = false := by
  cases a <;> cases b <;> first | exact ⟨rfl, rfl⟩ | simp [UnpackedFloat.compare] at h

/-- **Two floats that are not NaN compare as their places, lexicographically.** -/
theorem isLE_compare_iff {a b : UnpackedFloat} (ha : a.isNaN = false) (hb : b.isNaN = false) :
    (a.compare b).any Ordering.isLE = true ↔ PlaceLE (place a) (place b) := by
  rcases a with ⟨_ | _⟩ | _ | ⟨_ | _⟩ | ⟨_ | _, m₁, e₁, h₁⟩ <;>
    rcases b with ⟨_ | _⟩ | _ | ⟨_ | _⟩ | ⟨_ | _, m₂, e₂, h₂⟩ <;>
    simp_all [UnpackedFloat.compare, UnpackedFloat.isNaN, place, PlaceLE, Ordering.swap_then, Int.compare_swap,
      Nat.compare_swap, Ordering.isLE_then_iff_or, Int.compare_eq_lt, Nat.isLE_compare] <;>
    first | decide | omega

end UnpackedFloat

/-! ## Floats -/

namespace Float

variable {x y : Float}

theorem le_iff_compare : x ≤ y ↔ (x.toModel.unpack.compare y.toModel.unpack).any Ordering.isLE = true :=
  decide_eq_true_iff

theorem lt_iff_compare : x < y ↔ x.toModel.unpack.compare y.toModel.unpack = some .lt :=
  decide_eq_true_iff.trans beq_iff_eq

theorem exists_compare (hx : x.isNaN = false) (hy : y.isNaN = false) :
    ∃ o, x.toModel.unpack.compare y.toModel.unpack = some o :=
  Option.isSome_iff_exists.mp (UnpackedFloat.compare_isSome hx hy)

theorem lt_irrefl (x : Float) : ¬x < x := by
  rw [lt_iff_compare]
  intro h
  have hswap := UnpackedFloat.compare_swap x.toModel.unpack x.toModel.unpack
  rw [h] at hswap
  cases hswap

/-- **Away from NaN, a float that is not at most another is above it.** -/
theorem lt_of_not_le (hx : x.isNaN = false) (hy : y.isNaN = false) (h : ¬x ≤ y) : y < x := by
  obtain ⟨o, ho⟩ := exists_compare hx hy
  rw [le_iff_compare, ho] at h
  rw [lt_iff_compare, UnpackedFloat.compare_swap, ho]
  cases o <;> first | rfl | exact absurd rfl h

/-- **Away from NaN, a float that is not above another is at most it.** -/
theorem le_of_not_lt (hx : x.isNaN = false) (hy : y.isNaN = false) (h : ¬y < x) : x ≤ y := by
  obtain ⟨o, ho⟩ := exists_compare hx hy
  rw [lt_iff_compare, UnpackedFloat.compare_swap, ho] at h
  rw [le_iff_compare, ho]
  cases o <;> first | rfl | exact absurd rfl h

/-- **The order of floats is transitive.** -/
theorem le_trans {x y z : Float} (hxy : x ≤ y) (hyz : y ≤ z) : x ≤ z := by
  rw [le_iff_compare] at *
  obtain ⟨hx, hy⟩ := UnpackedFloat.isNaN_of_isLE hxy
  obtain ⟨-, hz⟩ := UnpackedFloat.isNaN_of_isLE hyz
  rw [UnpackedFloat.isLE_compare_iff hx hy] at hxy
  rw [UnpackedFloat.isLE_compare_iff hy hz] at hyz
  exact (UnpackedFloat.isLE_compare_iff hx hz).mpr (UnpackedFloat.PlaceLE.trans hxy hyz)

theorem le_of_lt (h : x < y) : x ≤ y := by
  rw [lt_iff_compare] at h
  rw [le_iff_compare, h]
  rfl

theorem not_le_of_lt {x y : Float} (h : x < y) : ¬y ≤ x := by
  rw [lt_iff_compare] at h
  rw [le_iff_compare, UnpackedFloat.compare_swap, h]
  decide

theorem le_refl_of_isNaN (hx : x.isNaN = false) : x ≤ x :=
  le_of_not_lt hx hx (lt_irrefl x)

/-- **A float below one at most a third is below the third.** Neither comparison holds of a
NaN, so the order is a strict one on what they compare. -/
theorem lt_of_lt_of_le {x y z : Float} (hxy : x < y) (hyz : y ≤ z) : x < z := by
  obtain ⟨hx, -⟩ := UnpackedFloat.isNaN_of_isLE (le_iff_compare.mp (le_of_lt hxy))
  obtain ⟨-, hz⟩ := UnpackedFloat.isNaN_of_isLE (le_iff_compare.mp hyz)
  by_contra hxz
  exact not_le_of_lt hxy (le_trans hyz (le_of_not_lt hz hx hxz))

theorem lt_of_le_of_lt {x y z : Float} (hxy : x ≤ y) (hyz : y < z) : x < z := by
  obtain ⟨hx, -⟩ := UnpackedFloat.isNaN_of_isLE (le_iff_compare.mp hxy)
  obtain ⟨-, hz⟩ := UnpackedFloat.isNaN_of_isLE (le_iff_compare.mp (le_of_lt hyz))
  by_contra hxz
  exact not_le_of_lt hyz (le_trans (le_of_not_lt hz hx hxz) hxy)

end Float

/-! ## The unit clamp -/

section Clamp

variable {x : Float}

theorem clampUnit_of_lt (h : x < 0) : clampUnit x = 0 := by
  simp [clampUnit, h]

theorem clampUnit_of_gt (h0 : ¬x < 0) (h1 : x > 1) : clampUnit x = 1 := by
  simp [clampUnit, h0, h1]

theorem clampUnit_of_unit (h0 : ¬x < 0) (h1 : ¬x > 1) : clampUnit x = x := by
  simp [clampUnit, h0, h1]

theorem clampUnit_clampUnit (x : Float) : clampUnit (clampUnit x) = clampUnit x := by
  by_cases h0 : x < 0
  · rw [clampUnit_of_lt h0]
    rfl
  · by_cases h1 : x > 1
    · rw [clampUnit_of_gt h0 h1]
      rfl
    · rw [clampUnit_of_unit h0 h1, clampUnit_of_unit h0 h1]

theorem clampUnit_le_one (h : (clampUnit x).isNaN = false) : clampUnit x ≤ 1 := by
  by_cases h0 : x < 0
  · rw [clampUnit_of_lt h0]
    decide
  · by_cases h1 : x > 1
    · rw [clampUnit_of_gt h0 h1]
      decide
    · rw [clampUnit_of_unit h0 h1] at h ⊢
      exact Float.le_of_not_lt h rfl h1

theorem pos_of_clampUnit_pos (h : 0 < clampUnit x) : 0 < x := by
  by_cases h0 : x < 0
  · rw [clampUnit_of_lt h0] at h
    exact absurd h (Float.lt_irrefl 0)
  · by_cases h1 : x > 1
    · exact Float.lt_of_le_of_lt (by decide) h1
    · rwa [clampUnit_of_unit h0 h1] at h

end Clamp

end QueryAdvisor
