import QueryAdvisor.Proofs.FloatOrder
import QueryAdvisor.Proofs.FloatRound
/-!
# The values of binary64 floats

The float model computes with unpacked floats: a sign, a mantissa and an exponent, or a zero, an
infinity or NaN. The finite ones that binary64 holds (`Canonical`) pack and unpack unchanged
(`unpack_pack_of_canonical`), every finite float unpacks to one (`canonical_unpack`), and each
has a rational `value`.

The product and the quotient of two positive floats, and the float of a count, are the floats
nearest the exact results (`mul_eq_nearest`, `div_eq_nearest`, `unpack_natCast`): the model
rounds with a sticky accuracy, which is rounding the exact rational (`FloatRound`). Floats that
binary64 holds are ordered as their values (`Float.le_iff_value`, `Float.lt_iff_value`).

So the share of a count `d` in a count `n < 2^53` is above one half exactly when `n < 2 * d`
(`Float.half_lt_div_natCast_iff`): below `2^53` no rounding moves a share across one half. And a
product of floats from zero to one is one too, no larger than either factor
(`Float.InUnit.mul`).
-/

namespace QueryAdvisor

open Float.Model UnpackedFloat

namespace Binary64

/-! ## What binary64 holds -/

/-- A finite unpacked float that binary64 holds: zero, or a mantissa of at most 53 bits, all 53
unless at the least exponent, at an exponent the format reaches. -/
def Canonical : UnpackedFloat → Prop
  | .zero _ => True
  | .finite _ m e _ => m < 2 ^ 53 ∧ -1074 ≤ e ∧ e ≤ 971 ∧ (2 ^ 52 ≤ m ∨ e = -1074)
  | _ => False

/-- The value of an unpacked float; the infinities and NaN count as zero. -/
def value : UnpackedFloat → ℚ
  | .finite .positive m e _ => m * 2 ^ e
  | .finite .negative m e _ => -(m * 2 ^ e)
  | _ => 0

theorem unpackSign_packComponents (s : Sign) (e : BitVec 11) (m : BitVec 52) :
    unpackSign (packComponents .binary64 s e m) = s.toBitVec := by
  simp only [unpackSign, packComponents, BitVec.extractLsb]
  rw [BitVec.extractLsb'_append_eq_of_le (by omega), BitVec.extractLsb'_append_eq_of_le (by omega)]
  cases s <;> rfl

@[simp] theorem ofBitVec_toBitVec (s : Sign) : Sign.ofBitVec s.toBitVec = s := by
  cases s <;> rfl

theorem toNat_one_append (v : BitVec 52) : (1#1 ++ v).toNat = 2 ^ 52 + v.toNat := by
  rw [BitVec.toNat_append, ← Nat.shiftLeft_add_eq_or_of_lt v.isLt]
  simp [Nat.shiftLeft_eq]

theorem biased_exponent (e : ℤ) : (e + (Format.binary64.exponentBias : ℤ) +
    (Format.binary64.mantissaBitsWithoutImplicit : ℤ)).toNat = (e + 1075).toNat := by
  show (e + ((2 ^ (11 - 1) - 1 : ℕ) : ℤ) + ((52 : ℕ) : ℤ)).toNat = (e + 1075).toNat
  omega

theorem exponent_offset :
    ((Format.binary64.exponentBias : ℕ) : ℤ) + (Format.binary64.mantissaBitsWithoutImplicit : ℕ) = 1075 :=
  rfl

theorem ofNat_ne {w n : ℕ} (k : BitVec w) (hn : n < 2 ^ w) (hk : n ≠ k.toNat) : BitVec.ofNat w n ≠ k := by
  intro h
  have := congrArg BitVec.toNat h
  rw [BitVec.toNat_ofNat, Nat.mod_eq_of_lt hn] at this
  exact hk this

theorem unpack_pack_normal (s : Sign) {m : ℕ} {e : ℤ} (hm : 0 < m) (hnormal : 2 ^ 52 ≤ m)
    (hlt : m < 2 ^ 53) (hlo : -1074 ≤ e) (hhi : e ≤ 971) :
    unpack .binary64 (pack .binary64 (.finite s m e hm)) = .finite s m e hm := by
  have hlog : m.log2 = 52 := (Nat.log2_eq_iff (by omega)).mpr ⟨hnormal, hlt⟩
  have hfield : (BitVec.ofNat 11 (e + 1075).toNat).toNat = (e + 1075).toNat := by
    rw [BitVec.toNat_ofNat]
    omega
  have hne1 : BitVec.ofNat 11 (e + 1075).toNat ≠ -1#11 :=
    ofNat_ne _ (by omega) (by rw [show (-1#11).toNat = 2047 by decide]; omega)
  have hne0 : BitVec.ofNat 11 (e + 1075).toNat ≠ 0#11 :=
    ofNat_ne _ (by omega) (by rw [BitVec.toNat_zero]; omega)
  have hmant : (1#1 ++ BitVec.ofNat 52 m).toNat = m := by
    rw [toNat_one_append, BitVec.toNat_ofNat]
    omega
  have hbias := biased_exponent e
  have hoffset := exponent_offset
  simp only [UnpackedFloat.pack, hbias, hlog]
  rw [if_neg (by omega), if_pos (show 52 + 1 = Format.binary64.mantissaBits from rfl)]
  simp only [UnpackedFloat.unpack, unpackMantissa_packComponents, unpackExponent_packComponents,
    unpackSign_packComponents, ofBitVec_toBitVec, hne1, hne0, if_false, hmant, hfield, hoffset]
  congr 1
  omega

theorem unpack_pack_subnormal (s : Sign) {m : ℕ} (hm : 0 < m) (hlt : m < 2 ^ 52) :
    unpack .binary64 (pack .binary64 (.finite s m (-1074) hm)) = .finite s m (-1074) hm := by
  have hlog : m.log2 < 52 := (Nat.log2_lt (by omega)).mpr hlt
  have hmant : (BitVec.ofNat 52 m).toNat = m := by
    rw [BitVec.toNat_ofNat]
    omega
  have hne0 : BitVec.ofNat 52 m ≠ 0#52 := ofNat_ne _ (by omega) (by rw [BitVec.toNat_zero]; omega)
  have hbias := biased_exponent (-1074)
  have hoffset := exponent_offset
  simp only [UnpackedFloat.pack, hbias]
  rw [if_neg (by decide), if_neg (show ¬(m.log2 + 1 = Format.binary64.mantissaBits) by
    show ¬(m.log2 + 1 = 1 + 52)
    omega)]
  simp only [UnpackedFloat.unpack, unpackMantissa_packComponents, unpackExponent_packComponents,
    unpackSign_packComponents, ofBitVec_toBitVec, hne0, hmant, hoffset]
  simp

/-- **Packing a float that binary64 holds and unpacking it gives it back.** -/
theorem unpack_pack_of_canonical {u : UnpackedFloat} (hc : Canonical u) :
    unpack .binary64 (pack .binary64 u) = u := by
  rcases u with s | _ | s | ⟨s, m, e, hm⟩
  · exact hc.elim
  · exact hc.elim
  · cases s <;> rfl
  · obtain ⟨hlt, hlo, hhi, hnorm⟩ := hc
    by_cases hnormal : 2 ^ 52 ≤ m
    · exact unpack_pack_normal s hm hnormal hlt hlo hhi
    · obtain rfl := hnorm.resolve_left hnormal
      exact unpack_pack_subnormal s hm (by omega)

/-- **What unpacking gives, when it is finite, binary64 holds.** -/
theorem canonical_unpack (b : BitVec Format.binary64.numBits) (hfin : (unpack .binary64 b).isFinite = true) :
    Canonical (unpack .binary64 b) := by
  have hmlt : (unpackMantissa b).toNat < 2 ^ 52 := (unpackMantissa b).isLt
  have helt : (unpackExponent b).toNat < 2 ^ 11 := (unpackExponent b).isLt
  have hb := exponent_offset
  unfold UnpackedFloat.unpack at hfin ⊢
  dsimp only at hfin ⊢
  by_cases hinf : unpackExponent b = -1#11
  · exfalso
    rw [if_pos hinf] at hfin
    split at hfin <;> simp [UnpackedFloat.isFinite] at hfin
  · rw [if_neg hinf]
    have hinf' : (unpackExponent b).toNat ≠ 2047 := by
      intro h
      exact hinf (BitVec.eq_of_toNat_eq (by rw [h]; rfl))
    by_cases hzero : unpackExponent b = 0#11
    · rw [if_pos hzero]
      have hzero' : (unpackExponent b).toNat = 0 := by rw [hzero]; rfl
      split
      · trivial
      · simp only [Canonical]
        refine ⟨by omega, ?_, ?_, .inr ?_⟩ <;> rw [hzero', hb] <;> decide
    · rw [if_neg hzero]
      have hzero' : (unpackExponent b).toNat ≠ 0 := by
        intro h
        exact hzero (BitVec.eq_of_toNat_eq (by rw [h]; rfl))
      have hmant := toNat_one_append (unpackMantissa b)
      simp only [Canonical]
      refine ⟨by omega, ?_, ?_, .inl (by omega)⟩ <;> rw [hb] <;> omega

/-! ## The nearest float -/

theorem roundEven_nonneg {x : ℚ} (hx : 0 ≤ x) : 0 ≤ roundEven x := by
  exact_mod_cast le_roundEven_of_le (k := 0) (by simpa using hx)

theorem canonical_nearest (s : Sign) {x : ℚ} (hx : 0 < x) (hE : gridExponent x ≤ 970) :
    Canonical (nearest s x) := by
  have hmin : -1074 ≤ gridExponent x := le_max_right _ _
  unfold nearest
  dsimp only
  split
  · trivial
  · next hr =>
    split
    · next hlt =>
      have hfull : gridExponent x ≠ -1074 → 2 ^ 52 ≤ (roundEven (x / 2 ^ gridExponent x)).toNat := by
        intro hne
        have h52 : ((2 ^ 52 : ℕ) : ℤ) ≤ roundEven (x / 2 ^ gridExponent x) :=
          le_roundEven_of_le (by push_cast; exact le_div_grid hx hne)
        omega
      refine ⟨hlt, hmin, by omega, ?_⟩
      by_cases hne : gridExponent x = -1074
      · exact .inr hne
      · exact .inl (hfull hne)
    · exact ⟨by norm_num, by omega, by omega, .inl le_rfl⟩

/-- **The value of the nearest float is the rational rounded to nearest.** -/
theorem value_nearest {x : ℚ} (hx : 0 < x) : value (nearest .positive x) = roundNearest x := by
  have hnonneg : 0 ≤ roundEven (x / 2 ^ gridExponent x) := roundEven_nonneg (by positivity)
  have hle : roundEven (x / 2 ^ gridExponent x) ≤ (2 ^ 53 : ℤ) :=
    roundEven_le_of_le (by push_cast; exact (div_grid_lt x).le)
  have hcast : ((roundEven (x / 2 ^ gridExponent x)).toNat : ℚ) = roundEven (x / 2 ^ gridExponent x) := by
    exact_mod_cast Int.toNat_of_nonneg hnonneg
  unfold nearest roundNearest
  dsimp only
  split
  · next hr =>
    have hzero : roundEven (x / 2 ^ gridExponent x) = 0 := by omega
    simp [value, hzero]
  · next hr =>
    split
    · simp only [value, hcast]
    · next hlt =>
      have hcarry : roundEven (x / 2 ^ gridExponent x) = 2 ^ 53 := by omega
      simp only [value, hcarry, zpow_add₀ (two_ne_zero : (2 : ℚ) ≠ 0)]
      push_cast
      ring

/-! ## Products and quotients -/

theorem eq_finite_of_pos {a : UnpackedFloat} (ha : Canonical a) (hpos : 0 < value a) :
    ∃ m e h, a = .finite .positive m e h := by
  rcases a with s | _ | s | ⟨_ | _, m, e, h⟩
  · exact ha.elim
  · exact ha.elim
  · simp [value] at hpos
  · simp only [value] at hpos
    have : (0 : ℚ) ≤ m * 2 ^ e := by positivity
    linarith
  · exact ⟨m, e, h, rfl⟩

/-- **The product of two positive floats is the float nearest their exact product.** -/
theorem mul_eq_nearest {a b : UnpackedFloat} (ha : Canonical a) (hb : Canonical b)
    (hpa : 0 < value a) (hpb : 0 < value b) :
    mul .binary64 a b = nearest .positive (value a * value b) := by
  obtain ⟨m₁, e₁, h₁, rfl⟩ := eq_finite_of_pos ha hpa
  obtain ⟨m₂, e₂, h₂, rfl⟩ := eq_finite_of_pos hb hpb
  obtain ⟨-, hlo₁, -, hn₁⟩ := ha
  obtain ⟨-, hlo₂, -, hn₂⟩ := hb
  have he : e₁ + e₂ ≤ Format.binary64.targetExponent (totalExponent (m₁ * m₂) (e₁ + e₂)) := by
    rw [targetExponent_eq]
    rcases hn₁ with hn₁ | hn₁
    · have : 52 ≤ (m₁ * m₂).log2 :=
        (Nat.le_log2 (by positivity)).mpr (le_trans hn₁ (Nat.le_mul_of_pos_right _ h₂))
      omega
    · rcases hn₂ with hn₂ | hn₂
      · have : 52 ≤ (m₁ * m₂).log2 :=
          (Nat.le_log2 (by positivity)).mpr (le_trans hn₂ (Nat.le_mul_of_pos_left _ h₁))
        omega
      · omega
  have hround := roundWithAccuracy_eq_nearest .positive (represents_exact (m₁ * m₂)) (Nat.mul_pos h₁ h₂) he
  show roundWithAccuracy .binary64 .positive (m₁ * m₂) (e₁ + e₂) .exact = _
  rw [hround]
  simp only [value]
  push_cast
  rw [zpow_add₀ (by norm_num)]
  ring_nf

/-- Dividing two normal mantissas shifts the dividend by 53 places, onto the grid of the
quotient, when that grid lies above the least exponent. -/
theorem divCore_normal {m₁ m₂ : ℕ} {e₁ e₂ : ℤ} (hlog₁ : m₁.log2 = 52) (hlog₂ : m₂.log2 = 52)
    (he : -1074 ≤ e₁ - e₂ - 53) :
    divCore .binary64 m₁ e₁ m₂ e₂ =
      ((m₁ * 2 ^ 53) / m₂, e₁ - e₂ - 53, accuracyOfFraction ((m₁ * 2 ^ 53) % m₂) m₂) := by
  have ht : Format.binary64.targetExponent (totalExponent m₁ e₁ - totalExponent m₂ e₂) =
      e₁ - e₂ - 53 := by
    simp only [Format.targetExponent, totalExponent, Format.mantissaBits, Format.minExponent,
      hlog₁, hlog₂]
    norm_num
    omega
  have hmin : min (e₁ - e₂) (e₁ - e₂ - 53) = e₁ - e₂ - 53 := by omega
  have hshift : (e₁ - e₂ - (e₁ - e₂ - 53)).toNat = 53 := by omega
  simp only [divCore, ht, hmin, hshift, Nat.shiftLeft_eq]

/-- The quotient of two normal floats, with a quotient no smaller than the least normal
exponent allows, is the float nearest the exact quotient. -/
theorem div_eq_nearest {m₁ m₂ : ℕ} {e₁ e₂ : ℤ} {h₁ : 0 < m₁} {h₂ : 0 < m₂}
    (hn₁ : 2 ^ 52 ≤ m₁) (hlt₁ : m₁ < 2 ^ 53) (hn₂ : 2 ^ 52 ≤ m₂) (hlt₂ : m₂ < 2 ^ 53)
    (he : -1074 ≤ e₁ - e₂ - 53) :
    div .binary64 (.finite .positive m₁ e₁ h₁) (.finite .positive m₂ e₂ h₂) =
      nearest .positive (m₁ * 2 ^ e₁ / (m₂ * 2 ^ e₂)) := by
  have hcore := divCore_normal
    ((Nat.log2_eq_iff (by omega)).mpr ⟨hn₁, hlt₁⟩) ((Nat.log2_eq_iff (by omega)).mpr ⟨hn₂, hlt₂⟩) he
  have hq : 2 ^ 52 ≤ (m₁ * 2 ^ 53) / m₂ := by
    rw [Nat.le_div_iff_mul_le (by omega)]
    calc 2 ^ 52 * m₂ ≤ 2 ^ 52 * 2 ^ 53 := Nat.mul_le_mul_left _ hlt₂.le
      _ = 2 ^ 53 * 2 ^ 52 := Nat.mul_comm _ _
      _ ≤ m₁ * 2 ^ 53 := by rw [Nat.mul_comm m₁]; exact Nat.mul_le_mul_left _ hn₁
  have hrep := represents_fraction ((m₁ * 2 ^ 53) / m₂) ((m₁ * 2 ^ 53) % m₂) m₂ (Nat.mod_lt _ h₂)
  have hge : e₁ - e₂ - 53 ≤
      Format.binary64.targetExponent (totalExponent ((m₁ * 2 ^ 53) / m₂) (e₁ - e₂ - 53)) := by
    rw [targetExponent_eq]
    have : 52 ≤ ((m₁ * 2 ^ 53) / m₂).log2 := (Nat.le_log2 (by omega)).mpr hq
    omega
  simp only [UnpackedFloat.div, hcore]
  rw [roundWithAccuracy_eq_nearest _ hrep (by omega) hge]
  congr 1
  have hsplit : (((m₁ * 2 ^ 53) / m₂ : ℕ) : ℚ) + (((m₁ * 2 ^ 53) % m₂ : ℕ) : ℚ) / m₂ =
      (m₁ * 2 ^ 53 : ℕ) / m₂ := by
    have h := Nat.div_add_mod (m₁ * 2 ^ 53) m₂
    have hm₂ : (m₂ : ℚ) ≠ 0 := by positivity
    field_simp
    exact_mod_cast (by rw [Nat.mul_comm]; exact h)
  rw [hsplit]
  push_cast
  rw [zpow_sub₀ (by norm_num), zpow_sub₀ (by norm_num)]
  field_simp
  norm_num

/-! ## Counts as floats -/

theorem log2_mul_two_pow {m : ℕ} (hm : 0 < m) (k : ℕ) : (m * 2 ^ k).log2 = m.log2 + k := by
  have h₁ : 2 ^ m.log2 ≤ m := Nat.log2_self_le hm.ne'
  have h₂ : m < 2 ^ (m.log2 + 1) := Nat.lt_log2_self
  refine (Nat.log2_eq_iff (by positivity)).mpr ⟨?_, ?_⟩
  · rw [Nat.pow_add]
    exact Nat.mul_le_mul_right _ h₁
  · rw [show m.log2 + k + 1 = (m.log2 + 1) + k by omega, Nat.pow_add]
    exact Nat.mul_lt_mul_of_pos_right h₂ (by positivity)

/-- Normalizing a mantissa shifts it left onto its grid and rounds there, which is rounding to
nearest. -/
theorem round_eq_nearest (s : Sign) {m : ℕ} (hm : 0 < m) (e : ℤ) :
    UnpackedFloat.round .binary64 s m e = nearest s (m * 2 ^ e) := by
  unfold UnpackedFloat.round decreaseExponent
  dsimp only
  generalize hk : (e - Format.binary64.targetExponent (totalExponent m e)).toNat = k
  have hlog : (m <<< k).log2 = m.log2 + k := by
    rw [Nat.shiftLeft_eq]
    exact log2_mul_two_pow hm k
  have he : e - k ≤ Format.binary64.targetExponent (totalExponent (m <<< k) (e - k)) := by
    rw [targetExponent_eq, hlog]
    rw [targetExponent_eq] at hk
    omega
  rw [roundWithAccuracy_eq_nearest s (represents_exact _) (by rw [Nat.shiftLeft_eq]; positivity) he]
  congr 1
  rw [Nat.shiftLeft_eq, zpow_sub₀ (by norm_num)]
  push_cast
  field_simp
  exact (zpow_natCast (2 : ℚ) k).symm

theorem gridExponent_le_of_le_one {x : ℚ} (hx : 0 < x) (h : x ≤ 1) : gridExponent x ≤ -52 := by
  have hlog := Int.log_mono_right (b := 2) hx h
  rw [Int.log_one_right] at hlog
  unfold gridExponent
  omega

theorem gridExponent_natCast (n : ℕ) : gridExponent (n : ℚ) = n.log2 - 52 := by
  rw [gridExponent, Int.log_natCast, ← Nat.log2_eq_log_two]
  omega

theorem normal_shift {k : ℕ} (hk : 0 < k) (hlt : k < 2 ^ 53) :
    2 ^ 52 ≤ k * 2 ^ (52 - k.log2) ∧ k * 2 ^ (52 - k.log2) < 2 ^ 53 := by
  have hlog : k.log2 < 53 := (Nat.log2_lt hk.ne').mpr hlt
  have h := log2_mul_two_pow hk (52 - k.log2)
  rw [show k.log2 + (52 - k.log2) = 52 by omega] at h
  exact (Nat.log2_eq_iff (by positivity)).mp h

theorem value_shift {k : ℕ} (hk : 0 < k) (hlt : k < 2 ^ 53) :
    ((k * 2 ^ (52 - k.log2) : ℕ) : ℚ) * 2 ^ ((k.log2 : ℤ) - 52) = k := by
  have hlog : k.log2 < 53 := (Nat.log2_lt hk.ne').mpr hlt
  push_cast
  rw [mul_assoc, ← zpow_natCast, ← zpow_add₀ (by norm_num), Nat.cast_sub (by omega)]
  simp

theorem nearest_natCast (s : Sign) {n : ℕ} (hn : 0 < n) (hlt : n < 2 ^ 53) :
    nearest s n = .finite s (n * 2 ^ (52 - n.log2)) (n.log2 - 52) (by positivity) := by
  have hlog : n.log2 < 53 := (Nat.log2_lt hn.ne').mpr hlt
  have hgrid := gridExponent_natCast n
  have hmant : (n : ℚ) / 2 ^ gridExponent (n : ℚ) = ((n * 2 ^ (52 - n.log2) : ℕ) : ℤ) := by
    rw [hgrid]
    push_cast
    rw [div_eq_mul_inv, ← zpow_neg, ← zpow_natCast, Nat.cast_sub (by omega)]
    congr 2
    ring
  have hbits := (normal_shift hn hlt).2
  unfold nearest
  dsimp only
  rw [hmant, roundEven_intCast, Int.toNat_natCast, dif_neg (by positivity), if_pos hbits, hgrid]

theorem ofNat_eq_nearest {n : ℕ} (hn : 0 < n) :
    UnpackedFloat.ofNat .binary64 n = nearest .positive n := by
  unfold UnpackedFloat.ofNat UnpackedFloat.ofInt UnpackedFloat.normalize
  rw [show compare (n : ℤ) 0 = .gt from Int.compare_eq_gt.mpr (by omega)]
  dsimp only
  rw [Int.toNat_natCast, round_eq_nearest _ hn]
  simp

/-- **A count below `2^53` is the float nearest it.** -/
theorem unpack_natCast {n : ℕ} (hn : 0 < n) (hlt : n < 2 ^ 53) :
    n.toFloat.toModel.unpack = nearest .positive n := by
  have hlog : n.log2 < 53 := (Nat.log2_lt hn.ne').mpr hlt
  have hcount : Canonical (nearest .positive (n : ℚ)) :=
    canonical_nearest _ (by positivity) (by rw [gridExponent_natCast n]; omega)
  have hexact : roundNearest (n : ℚ) = n := by
    simpa using roundNearest_of_representable (e := 0) hn hlt (by norm_num)
  have hword : (UInt64.toFloat n.toUInt64).toModel.unpack = nearest .positive n := by
    show unpack .binary64 (pack .binary64 (UnpackedFloat.ofNat .binary64 n.toUInt64.toNat)) = _
    have htoNat : n.toUInt64.toNat = n := UInt64.toNat_ofNat_of_lt' (by unfold UInt64.size; omega)
    rw [htoNat, ofNat_eq_nearest hn, unpack_pack_of_canonical hcount]
  have hone : (GetElem.getElem Float.exactlyRepresentablePowersOfTen 0 (by decide) : Float).toModel.unpack =
      .finite .positive (2 ^ 52) (-52) (by positivity) := rfl
  have hfast : n.toFloat =
      UInt64.toFloat n.toUInt64 * GetElem.getElem Float.exactlyRepresentablePowersOfTen 0 (by decide) := by
    show Float.ofScientific n false 0 = _
    rw [Float.ofScientific, dif_pos ⟨hlt, by decide⟩]
    rfl
  have hpos : 0 < value (nearest .positive (n : ℚ)) := by
    rw [value_nearest (by positivity), hexact]
    exact_mod_cast hn
  rw [hfast]
  show unpack .binary64 (pack .binary64 (mul .binary64 _ _)) = _
  rw [hword, hone, mul_eq_nearest hcount (by norm_num [Canonical]) hpos (by norm_num [value]),
    value_nearest (by positivity), hexact]
  simp only [value]
  norm_num
  exact unpack_pack_of_canonical hcount

/-- **The quotient of a count by a larger count below `2^53` is the float nearest the exact
quotient.** -/
theorem unpack_div_natCast {d n : ℕ} (hd : 0 < d) (hdn : d ≤ n) (hn : n < 2 ^ 53) :
    (d.toFloat / n.toFloat).toModel.unpack = nearest .positive (d / n) := by
  have hlogn : n.log2 < 53 := (Nat.log2_lt (by omega)).mpr hn
  obtain ⟨hd₁, hd₂⟩ := normal_shift hd (by omega)
  obtain ⟨hn₁, hn₂⟩ := normal_shift (by omega : 0 < n) hn
  have hq : (0 : ℚ) < d / n := by
    have : (0 : ℚ) < n := by exact_mod_cast (by omega : 0 < n)
    positivity
  have hq1 : (d : ℚ) / n ≤ 1 := (div_le_one (by exact_mod_cast (by omega : 0 < n))).mpr (by exact_mod_cast hdn)
  have hgrid : gridExponent ((d : ℚ) / n) ≤ 970 := by
    have := gridExponent_le_of_le_one hq hq1
    omega
  show unpack .binary64 (pack .binary64 (div .binary64 d.toFloat.toModel.unpack n.toFloat.toModel.unpack)) = _
  rw [unpack_natCast hd (by omega), unpack_natCast (by omega) hn, nearest_natCast _ hd (by omega),
    nearest_natCast _ (by omega) hn, div_eq_nearest hd₁ hd₂ hn₁ hn₂ (by omega)]
  rw [value_shift hd (by omega), value_shift (by omega) hn]
  exact unpack_pack_of_canonical (canonical_nearest _ hq hgrid)

/-! ## The order of floats is the order of their values -/

/-- Binary64 holds a number at a smaller exponent only below one with all 53 bits at a larger
exponent. -/
theorem value_lt_of_exponent_lt {m₁ m₂ : ℕ} {e₁ e₂ : ℤ} (hlt₁ : m₁ < 2 ^ 53) (hn₂ : 2 ^ 52 ≤ m₂)
    (he : e₁ < e₂) : (m₁ : ℚ) * 2 ^ e₁ < m₂ * 2 ^ e₂ := by
  calc (m₁ : ℚ) * 2 ^ e₁ < 2 ^ 53 * 2 ^ e₁ :=
        mul_lt_mul_of_pos_right (by exact_mod_cast hlt₁) (by positivity)
    _ = 2 ^ 52 * 2 ^ (e₁ + 1) := by rw [zpow_add₀ (by norm_num)]; ring
    _ ≤ 2 ^ 52 * 2 ^ e₂ :=
        mul_le_mul_of_nonneg_left (zpow_le_zpow_right₀ (by norm_num) (by omega)) (by positivity)
    _ ≤ m₂ * 2 ^ e₂ := mul_le_mul_of_nonneg_right (by exact_mod_cast hn₂) (by positivity)

/-- **Of two numbers binary64 holds, the order of exponents, then mantissas, is the order of
values.** -/
theorem lex_iff_value {s₁ s₂ : Sign} {m₁ m₂ : ℕ} {e₁ e₂ : ℤ} {h₁ : 0 < m₁} {h₂ : 0 < m₂}
    (hc₁ : Canonical (.finite s₁ m₁ e₁ h₁)) (hc₂ : Canonical (.finite s₂ m₂ e₂ h₂)) :
    (e₁ < e₂ ∨ e₁ = e₂ ∧ m₁ ≤ m₂) ↔ (m₁ : ℚ) * 2 ^ e₁ ≤ m₂ * 2 ^ e₂ := by
  obtain ⟨hlt₁, hlo₁, -, hn₁⟩ := hc₁
  obtain ⟨hlt₂, hlo₂, -, hn₂⟩ := hc₂
  constructor
  · rintro (he | ⟨rfl, hm⟩)
    · exact (value_lt_of_exponent_lt hlt₁ (hn₂.resolve_right (by omega)) he).le
    · exact mul_le_mul_of_nonneg_right (by exact_mod_cast hm) (by positivity)
  · intro hle
    by_contra hlex
    rcases lt_or_eq_of_le (not_lt.mp fun he => hlex (.inl he)) with he | rfl
    · exact absurd hle (not_le.mpr (value_lt_of_exponent_lt hlt₂ (hn₁.resolve_right (by omega)) he))
    · have hm : m₂ < m₁ := not_le.mp fun hm => hlex (.inr ⟨rfl, hm⟩)
      exact absurd hle (not_le.mpr (mul_lt_mul_of_pos_right (by exact_mod_cast hm) (by positivity)))

theorem placeLE_iff_value {a b : UnpackedFloat} (ha : Canonical a) (hb : Canonical b) :
    UnpackedFloat.PlaceLE (UnpackedFloat.place a) (UnpackedFloat.place b) ↔ value a ≤ value b := by
  rcases a with s₁ | _ | s₁ | ⟨_ | _, m₁, e₁, h₁⟩ <;> try exact ha.elim
  all_goals rcases b with s₂ | _ | s₂ | ⟨_ | _, m₂, e₂, h₂⟩ <;> try exact hb.elim
  all_goals simp only [UnpackedFloat.place, UnpackedFloat.PlaceLE, value, lt_self_iff_false,
    true_and, false_or, neg_lt_neg_iff, neg_inj, neg_le_neg_iff, Nat.cast_le]
  all_goals try (have : (0 : ℚ) < m₁ * 2 ^ e₁ := by positivity)
  all_goals try (have : (0 : ℚ) < m₂ * 2 ^ e₂ := by positivity)
  all_goals try (constructor <;> intro <;> first | omega | linarith)
  · rw [← lex_iff_value hb ha]
    omega
  · exact lex_iff_value ha hb

/-! ## Rounded shares against one half -/

@[simp] theorem roundNearest_zero : roundNearest 0 = 0 := by
  have h := roundEven_intCast 0
  push_cast at h
  simp [roundNearest, h]

theorem half_lt_roundNearest {x : ℚ} (h : 1 / 2 + 2 ^ (-54 : ℤ) < x) : 1 / 2 < roundNearest x := by
  have hx : 0 < x := lt_trans (by positivity) h
  by_cases hx1 : x < 1
  · have hlog : Int.log 2 x = -1 :=
      log_two_eq hx (by norm_num; linarith [show (0 : ℚ) < 2 ^ (-54 : ℤ) by positivity]) (by norm_num [hx1])
    have hgrid : gridExponent x = -53 := by
      unfold gridExponent
      omega
    have hk := lt_roundNearest (k := 2 ^ 52) (x := x) (by rw [hgrid]; norm_num at h ⊢; linarith)
    rw [hgrid] at hk
    norm_num at hk
    linarith
  · have hone : roundNearest 1 = 1 := by
      simpa using roundNearest_of_representable (m := 1) (e := 0) (by norm_num) (by norm_num) (by norm_num)
    have hmono := roundNearest_mono (by norm_num) (not_lt.mp hx1)
    linarith

/-- **The share of `d` in `n < 2^53`, rounded, is above one half exactly when `d` is more than
half of `n`.** -/
theorem half_lt_roundNearest_div_iff {d n : ℕ} (hdn : d ≤ n) (hn : 0 < n) (hlt : n < 2 ^ 53) :
    1 / 2 < roundNearest (d / n) ↔ n < 2 * d := by
  have hnq : (0 : ℚ) < n := by exact_mod_cast hn
  constructor
  · intro hhalf
    by_contra hle
    have hshare : (d : ℚ) / n ≤ 1 / 2 := by
      rw [div_le_iff₀ hnq]
      have : (2 * d : ℚ) ≤ n := by exact_mod_cast not_lt.mp hle
      linarith
    rcases Nat.eq_zero_or_pos d with rfl | hd
    · norm_num at hhalf
    · have hhalfExact : roundNearest (1 / 2) = 1 / 2 := by
        simpa using roundNearest_of_representable (m := 1) (e := -1) (by norm_num) (by norm_num) (by norm_num)
      have := roundNearest_mono (by positivity) hshare
      linarith
  · intro hmore
    apply half_lt_roundNearest
    have hnlt : (n : ℚ) < 2 ^ 53 := by exact_mod_cast hlt
    have hmore' : (n + 1 : ℚ) ≤ 2 * d := by exact_mod_cast hmore
    rw [lt_div_iff₀ hnq]
    norm_num
    nlinarith

end Binary64

namespace Float

open Binary64

theorem isNaN_eq_false_of_canonical {x : Float} (hx : Canonical x.toModel.unpack) : x.isNaN = false := by
  show x.toModel.unpack.isNaN = false
  revert hx
  cases x.toModel.unpack <;> intro hx <;> first | rfl | exact hx.elim

/-- **Of two floats that binary64 holds, one is at most the other exactly when its value is.** -/
theorem le_iff_value {x y : Float} (hx : Canonical x.toModel.unpack) (hy : Canonical y.toModel.unpack) :
    x ≤ y ↔ value x.toModel.unpack ≤ value y.toModel.unpack := by
  rw [le_iff_compare, UnpackedFloat.isLE_compare_iff (isNaN_eq_false_of_canonical hx)
    (isNaN_eq_false_of_canonical hy), placeLE_iff_value hx hy]

theorem lt_iff_value {x y : Float} (hx : Canonical x.toModel.unpack) (hy : Canonical y.toModel.unpack) :
    x < y ↔ value x.toModel.unpack < value y.toModel.unpack := by
  rw [← not_le, ← le_iff_value hy hx]
  exact ⟨not_le_of_lt, lt_of_not_le (isNaN_eq_false_of_canonical hy) (isNaN_eq_false_of_canonical hx)⟩

/-! ## A share of a count against one half -/

theorem unpack_zero : (0 : Float).toModel.unpack = .zero .positive := rfl

theorem unpack_half : (0.5 : Float).toModel.unpack = .finite .positive (2 ^ 52) (-53) (by positivity) := rfl

theorem unpack_zero_div_natCast {n : ℕ} (hn : 0 < n) (hlt : n < 2 ^ 53) :
    ((0 : ℕ).toFloat / n.toFloat).toModel.unpack = .zero .positive := by
  have hzero : (0 : ℕ).toFloat.toModel.unpack = .zero .positive := rfl
  show unpack .binary64 (pack .binary64 (div .binary64 (0 : ℕ).toFloat.toModel.unpack n.toFloat.toModel.unpack)) = _
  rw [hzero, unpack_natCast hn hlt, nearest_natCast _ hn hlt]
  exact unpack_pack_of_canonical (u := .zero .positive) trivial

/-- **A share of a count below `2^53` is a float that binary64 holds, of the value of the
rounded exact share.** -/
theorem canonical_div_natCast {d n : ℕ} (hdn : d ≤ n) (hn : 0 < n) (hlt : n < 2 ^ 53) :
    Canonical (d.toFloat / n.toFloat).toModel.unpack ∧
      value (d.toFloat / n.toFloat).toModel.unpack = roundNearest (d / n) := by
  rcases Nat.eq_zero_or_pos d with rfl | hd
  · rw [unpack_zero_div_natCast hn hlt]
    simp [Canonical, value]
  · have hq : (0 : ℚ) < d / n := by
      have : (0 : ℚ) < n := by exact_mod_cast hn
      positivity
    have hq1 : (d : ℚ) / n ≤ 1 := (div_le_one (by exact_mod_cast hn)).mpr (by exact_mod_cast hdn)
    rw [unpack_div_natCast hd hdn hlt]
    exact ⟨canonical_nearest _ hq (by have := gridExponent_le_of_le_one hq hq1; omega), value_nearest hq⟩

/-- **A share of `d` in `n < 2^53`, as a float, is above one half exactly when `d` is more than
half of `n`.** -/
theorem half_lt_div_natCast_iff {d n : ℕ} (hdn : d ≤ n) (hn : 0 < n) (hlt : n < 2 ^ 53) :
    0.5 < d.toFloat / n.toFloat ↔ n < 2 * d := by
  obtain ⟨hc, hv⟩ := canonical_div_natCast hdn hn hlt
  have hhalf : Canonical (0.5 : Float).toModel.unpack := by
    rw [unpack_half]
    norm_num [Canonical]
  rw [lt_iff_value hhalf hc, hv, unpack_half, ← half_lt_roundNearest_div_iff hdn hn hlt]
  norm_num [value]

theorem zero_div_natCast_le {n : ℕ} (hn : 0 < n) (hlt : n < 2 ^ 53) {t : Float} (ht : 0 ≤ t) :
    (0 : ℕ).toFloat / n.toFloat ≤ t := by
  have hzero : (0 : ℕ).toFloat / n.toFloat ≤ 0 := by
    obtain ⟨hc, -⟩ := canonical_div_natCast (Nat.zero_le n) hn hlt
    rw [le_iff_value hc (by rw [unpack_zero]; trivial), unpack_zero_div_natCast hn hlt, unpack_zero]
  exact le_trans hzero ht

end Float

namespace Binary64

/-! ## Products from zero to one -/

theorem roundNearest_nonneg {x : ℚ} (hx : 0 ≤ x) : 0 ≤ roundNearest x := by
  unfold roundNearest
  have : (0 : ℚ) ≤ roundEven (x / 2 ^ gridExponent x) := by
    exact_mod_cast roundEven_nonneg (by positivity)
  positivity

theorem eq_zero_of_value {a : UnpackedFloat} (ha : Canonical a) (h : value a = 0) : ∃ s, a = .zero s := by
  rcases a with s | _ | s | ⟨_ | _, m, e, hm⟩
  · exact ha.elim
  · exact ha.elim
  · exact ⟨s, rfl⟩
  · have : (0 : ℚ) < m * 2 ^ e := by positivity
    simp only [value] at h
    linarith
  · have : (0 : ℚ) < m * 2 ^ e := by positivity
    simp only [value] at h
    linarith

theorem roundNearest_value {a : UnpackedFloat} (ha : Canonical a) (hpos : 0 < value a) :
    roundNearest (value a) = value a := by
  obtain ⟨m, e, hm, rfl⟩ := eq_finite_of_pos ha hpos
  exact roundNearest_of_representable hm ha.1 ha.2.1

theorem mul_zero_left (s : Sign) {b : UnpackedFloat} (hb : Canonical b) :
    ∃ s', mul .binary64 (.zero s) b = .zero s' := by
  rcases b with t | _ | t | ⟨t, m, e, hm⟩
  · exact hb.elim
  · exact hb.elim
  · exact ⟨_, rfl⟩
  · exact ⟨_, rfl⟩

theorem mul_zero_right {a : UnpackedFloat} (ha : Canonical a) (s : Sign) :
    ∃ s', mul .binary64 a (.zero s) = .zero s' := by
  rcases a with t | _ | t | ⟨t, m, e, hm⟩
  · exact ha.elim
  · exact ha.elim
  · exact ⟨_, rfl⟩
  · exact ⟨_, rfl⟩

/-- **The product of two floats that binary64 holds between zero and one is one too, and at most
either factor.** -/
theorem mul_unit {a b : UnpackedFloat} (ha : Canonical a) (hb : Canonical b)
    (ha₀ : 0 ≤ value a) (hb₀ : 0 ≤ value b) (ha₁ : value a ≤ 1) (hb₁ : value b ≤ 1) :
    Canonical (mul .binary64 a b) ∧ 0 ≤ value (mul .binary64 a b) ∧
      value (mul .binary64 a b) ≤ value a ∧ value (mul .binary64 a b) ≤ value b := by
  rcases lt_or_eq_of_le ha₀ with hpa | hza
  · rcases lt_or_eq_of_le hb₀ with hpb | hzb
    · have hprod : 0 < value a * value b := mul_pos hpa hpb
      have hprod₁ : value a * value b ≤ 1 := mul_le_one₀ ha₁ hb₀ hb₁
      rw [mul_eq_nearest ha hb hpa hpb, value_nearest hprod]
      refine ⟨canonical_nearest _ hprod (by have := gridExponent_le_of_le_one hprod hprod₁; omega),
        roundNearest_nonneg hprod.le, ?_, ?_⟩
      · calc roundNearest (value a * value b) ≤ roundNearest (value a) :=
              roundNearest_mono hprod (mul_le_of_le_one_right ha₀ hb₁)
          _ = value a := roundNearest_value ha hpa
      · calc roundNearest (value a * value b) ≤ roundNearest (value b) :=
              roundNearest_mono hprod (mul_le_of_le_one_left hb₀ ha₁)
          _ = value b := roundNearest_value hb hpb
    · obtain ⟨s, rfl⟩ := eq_zero_of_value hb hzb.symm
      obtain ⟨s', hs'⟩ := mul_zero_right ha s
      rw [hs']
      exact ⟨trivial, le_rfl, ha₀, le_rfl⟩
  · obtain ⟨s, rfl⟩ := eq_zero_of_value ha hza.symm
    obtain ⟨s', hs'⟩ := mul_zero_left s hb
    rw [hs']
    exact ⟨trivial, le_rfl, le_rfl, hb₀⟩

end Binary64

namespace Float

open Binary64

/-- A float that binary64 holds, from zero to one. -/
structure InUnit (x : Float) : Prop where
  canonical : Canonical x.toModel.unpack
  nonneg : 0 ≤ value x.toModel.unpack
  le_one : value x.toModel.unpack ≤ 1

theorem unpack_one : (1 : Float).toModel.unpack = .finite .positive (2 ^ 52) (-52) (by positivity) := rfl

/-- **A product of floats from zero to one is one too, at most either factor.** -/
theorem InUnit.mul {x y : Float} (hx : InUnit x) (hy : InUnit y) :
    InUnit (x * y) ∧ value (x * y).toModel.unpack ≤ value x.toModel.unpack ∧
      value (x * y).toModel.unpack ≤ value y.toModel.unpack := by
  obtain ⟨hc, h₀, hlex, hley⟩ :=
    mul_unit hx.canonical hy.canonical hx.nonneg hy.nonneg hx.le_one hy.le_one
  have hunpack : (x * y).toModel.unpack = UnpackedFloat.mul .binary64 x.toModel.unpack y.toModel.unpack :=
    unpack_pack_of_canonical hc
  refine ⟨⟨?_, ?_, ?_⟩, ?_, ?_⟩ <;> rw [hunpack]
  exacts [hc, h₀, hlex.trans hx.le_one, hlex, hley]

theorem InUnit.one : InUnit 1 := by
  refine ⟨?_, ?_, ?_⟩ <;> rw [unpack_one] <;> norm_num [Canonical, value]

theorem InUnit.clampUnit_eq {x : Float} (hx : InUnit x) : clampUnit x = x := by
  have hzero : Canonical (0 : Float).toModel.unpack := by
    rw [unpack_zero]
    trivial
  have hone : Canonical (1 : Float).toModel.unpack := by
    rw [unpack_one]
    norm_num [Canonical]
  refine clampUnit_of_unit (fun hlt => ?_) (fun hgt => ?_)
  · rw [lt_iff_value hx.canonical hzero, unpack_zero] at hlt
    exact absurd hx.nonneg (not_le.mpr hlt)
  · rw [gt_iff_lt, lt_iff_value hone hx.canonical, unpack_one] at hgt
    norm_num [value] at hgt
    exact absurd hx.le_one (not_le.mpr hgt)

end Float

end QueryAdvisor
