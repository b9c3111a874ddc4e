import Mathlib.Algebra.Order.Field.Power
import Mathlib.Algebra.Field.Rat
import Mathlib.Algebra.Order.Ring.Rat
import Mathlib.Tactic.GCongr
import Mathlib.Tactic.Linarith
import Mathlib.Tactic.NormNum
import Mathlib.Tactic.Positivity
import Mathlib.Tactic.Ring
/-!
# Roundings of machine numbers

What rounding to a double can add to a number of at least one: no more than half a unit in the last of
its 53 places. Reading a numeral rounds three times on the way up, once for the word, once for the power
of ten and once for their product, so the product is finite as long as the exact one is `reachable`
(`isInf_word_mul_ten`).
-/

namespace RegionCapture

open Float.Model (Format UnpackedFloat totalExponent)
open Float.Model.UnpackedFloat

theorem finite_congr {s : Sign} {m m' : Nat} {e e' : Int} {h : 0 < m} (hm : m = m') (he : e = e') :
    finite s m e h = finite s m' e' (hm ▸ h) := by
  subst hm he
  rfl

/-! ## Mantissas -/

/-- A mantissa that loses bits keeps the whole part of the quotient. -/
theorem mantissa_shiftRight (m k : Nat) :
    (ExtendedMantissa.ofMantissaAndAccuracy m .exact >>> k).mantissa = m / 2 ^ k := by
  induction k with
  | zero => exact (Nat.div_one m).symm
  | succ k ih =>
    change (ExtendedMantissa.ofMantissaAndAccuracy m .exact >>> k).mantissa / 2 = m / 2 ^ (k + 1)
    rw [ih, Nat.div_div_eq_div_mul, Nat.pow_succ]

/-- A round bit says that half a unit or more is lost. -/
theorem roundBit_shiftRight {m k : Nat}
    (h : (ExtendedMantissa.ofMantissaAndAccuracy m .exact >>> k).roundBit = true) :
    (2 * (m / 2 ^ k) + 1) * 2 ^ k ≤ 2 * m := by
  cases k with
  | zero => cases h
  | succ k =>
    replace h : ((ExtendedMantissa.ofMantissaAndAccuracy m .exact >>> k).mantissa % 2 != 0) = true := h
    rw [mantissa_shiftRight, bne_iff_ne] at h
    have hodd : 2 * (m / 2 ^ (k + 1)) + 1 = m / 2 ^ k := by
      rw [Nat.pow_succ, ← Nat.div_div_eq_div_mul]
      omega
    have hle := Nat.div_mul_le_self m (2 ^ k)
    rw [hodd, Nat.pow_succ, ← Nat.mul_assoc]
    omega

theorem roundedMantissa_cases (em : ExtendedMantissa) :
    em.roundedMantissa = em.mantissa ∨ em.roundBit = true ∧
      em.mantissa ≤ em.roundedMantissa ∧ em.roundedMantissa ≤ em.mantissa + 1 := by
  obtain ⟨mantissa, round, sticky⟩ := em
  cases round <;> cases sticky <;>
    simp [ExtendedMantissa.roundedMantissa, ExtendedMantissa.accuracy, Accuracy.roundToNearestEven]
  omega

/-- Rounding goes up by no more than half a unit, and not below the whole part. -/
theorem roundedMantissa_le (m k : Nat) :
    let r := (ExtendedMantissa.ofMantissaAndAccuracy m .exact >>> k).roundedMantissa
    m / 2 ^ k ≤ r ∧ 2 * (r * 2 ^ k) ≤ 2 * m + 2 ^ k := by
  intro r
  have hle : m / 2 ^ k * 2 ^ k ≤ m := Nat.div_mul_le_self m (2 ^ k)
  rcases roundedMantissa_cases (ExtendedMantissa.ofMantissaAndAccuracy m .exact >>> k) with
    hr | ⟨hbit, hlow, hhigh⟩
  · rw [mantissa_shiftRight] at hr
    have hr : r = m / 2 ^ k := hr
    rw [hr]
    exact ⟨Nat.le_refl _, Nat.le_add_right_of_le (Nat.mul_le_mul_left 2 hle)⟩
  · rw [mantissa_shiftRight] at hlow hhigh
    refine ⟨hlow, ?_⟩
    have hhalf := roundBit_shiftRight hbit
    have hmul : r * 2 ^ k ≤ (m / 2 ^ k + 1) * 2 ^ k := Nat.mul_le_mul_right (2 ^ k) hhigh
    rw [Nat.add_mul] at hmul hhalf
    rw [Nat.mul_assoc] at hhalf
    omega

/-! ## Rounding -/

theorem mantissaBits_binary64 : Format.binary64.mantissaBits = 53 := rfl

/-- Half a unit in the last of 53 places, relative to the number. -/
def halfUnit : ℚ := 1 / 2 ^ 53

theorem one_le_one_add_halfUnit : 1 ≤ 1 + halfUnit := by
  rw [halfUnit]
  norm_num

theorem shiftToTargetExponent_eq {m k : Nat} {e : Int} (hm : m.log2 = 52 + k) (he : -1074 ≤ e + k) :
    shiftToTargetExponent .binary64 m e .exact =
      (ExtendedMantissa.ofMantissaAndAccuracy m .exact >>> k, e + k) := by
  have ht : Format.binary64.targetExponent (totalExponent m e) = e + k := by
    simp only [Format.targetExponent, totalExponent, hm, mantissaBits_binary64, Format.minExponent]
    omega
  have hk : (e + k - e).toNat = k := by omega
  rw [shiftToTargetExponent, ht, shiftToExponent, hk]

theorem ne_zero_of_le_log2 {m : Nat} (h : 52 ≤ m.log2) : m ≠ 0 := by
  rintro rfl
  simp at h

/-- Rounding a number to its first 53 bits. -/
theorem roundedMantissa_bounds {m k : Nat} (hm : m.log2 = 52 + k) :
    let r := (ExtendedMantissa.ofMantissaAndAccuracy m .exact >>> k).roundedMantissa
    2 ^ 52 ≤ r ∧ r ≤ 2 ^ 53 ∧ (r : ℚ) * 2 ^ k ≤ m * (1 + halfUnit) := by
  intro r
  have hm0 : m ≠ 0 := ne_zero_of_le_log2 (by omega)
  have hlow : 2 ^ 52 * 2 ^ k ≤ m := by
    rw [← Nat.pow_add, ← hm]
    exact Nat.log2_self_le hm0
  have hhigh : m < 2 ^ 53 * 2 ^ k := by
    rw [← Nat.pow_add, ← Nat.log2_lt hm0]
    omega
  obtain ⟨hfloor, herror⟩ : m / 2 ^ k ≤ r ∧ 2 * (r * 2 ^ k) ≤ 2 * m + 2 ^ k :=
    roundedMantissa_le m k
  refine ⟨((Nat.le_div_iff_mul_le (Nat.two_pow_pos k)).2 hlow).trans hfloor, ?_, ?_⟩
  · by_contra hlt
    have hmul := Nat.mul_le_mul_right (2 ^ k) (Nat.lt_of_not_le hlt)
    rw [Nat.succ_mul] at hmul
    omega
  · -- half a unit in the last place is at most that part of the number
    have hnat : 2 ^ 53 * (r * 2 ^ k) ≤ m * (2 ^ 53 + 1) := by omega
    have hrat : (2 : ℚ) ^ 53 * (r * 2 ^ k) ≤ m * (2 ^ 53 + 1) := by exact_mod_cast hnat
    rw [halfUnit]
    linarith

/-- Rounding shifts twice, as the first one may carry. -/
theorem roundWithAccuracy_eq (s : Sign) {m : Nat} {e e' e'' : Int} {em em' : ExtendedMantissa}
    (hfirst : shiftToTargetExponent .binary64 m e .exact = (em, e'))
    (hsecond : shiftToTargetExponent .binary64 em.roundedMantissa e' .exact = (em', e''))
    (h : em'.mantissa ≠ 0) : roundWithAccuracy .binary64 s m e .exact =
      .finite s em'.mantissa e'' (Nat.pos_of_ne_zero h) := by
  unfold roundWithAccuracy
  rw [hfirst]
  dsimp only
  rw [hsecond]
  exact dif_neg h

/-- A number of at least one is rounded to 53 bits, by no more than half a unit upward. -/
theorem exists_round {m : Nat} {e : Int} (hm : 52 ≤ m.log2) (he : 0 ≤ m.log2 + e) (s : Sign) :
    ∃ m' e' h, roundWithAccuracy .binary64 s m e .exact = .finite s m' e' h ∧ m'.log2 = 52 ∧
      -52 ≤ e' ∧ (m' : ℚ) * 2 ^ e' ≤ m * 2 ^ e * (1 + halfUnit) := by
  obtain ⟨k, hk⟩ := Nat.exists_eq_add_of_le hm
  obtain ⟨hq, hq', hmantissa⟩ := roundedMantissa_bounds hk
  have hfirst := shiftToTargetExponent_eq (e := e) hk (by omega)
  generalize ExtendedMantissa.ofMantissaAndAccuracy m .exact >>> k = em at hq hq' hmantissa hfirst
  have hvalue : (em.roundedMantissa : ℚ) * 2 ^ (e + k) ≤ m * 2 ^ e * (1 + halfUnit) := by
    rw [zpow_add₀ two_ne_zero, zpow_natCast]
    have hp : (0 : ℚ) ≤ 2 ^ e := (zpow_pos two_pos e).le
    linarith [mul_le_mul_of_nonneg_right hmantissa hp]
  rcases hq'.lt_or_eq with hr | hr
  · have hr0 : em.roundedMantissa ≠ 0 := by omega
    have hlog : em.roundedMantissa.log2 = 52 := (Nat.log2_eq_iff hr0).2 ⟨hq, hr⟩
    have hsecond := shiftToTargetExponent_eq (k := 0) (e := e + k) hlog (by omega)
    refine ⟨em.roundedMantissa, e + k, Nat.pos_of_ne_zero hr0, ?_, hlog, by omega, hvalue⟩
    have hexact : (ExtendedMantissa.ofMantissaAndAccuracy em.roundedMantissa .exact >>> 0).mantissa =
        em.roundedMantissa := by rw [mantissa_shiftRight, pow_zero, Nat.div_one]
    rw [roundWithAccuracy_eq s hfirst hsecond (by rwa [hexact])]
    exact finite_congr hexact (add_zero _)
  · -- the carry makes it a power of two, which loses no bit to the second shift
    have hsecond := shiftToTargetExponent_eq (k := 1) (e := e + k) (m := em.roundedMantissa)
      (by rw [hr, Nat.log2_two_pow]) (by omega)
    refine ⟨2 ^ 52, e + k + 1, Nat.two_pow_pos 52, ?_, Nat.log2_two_pow, by omega, ?_⟩
    · have hhalf : (ExtendedMantissa.ofMantissaAndAccuracy em.roundedMantissa .exact >>> 1).mantissa =
          2 ^ 52 := by rw [mantissa_shiftRight, hr, Nat.pow_div (by decide) two_pos]
      rw [roundWithAccuracy_eq s hfirst hsecond (by rw [hhalf]; decide)]
      exact finite_congr hhalf rfl
    · rw [hr] at hvalue
      rw [zpow_add_one₀ two_ne_zero]
      push_cast at hvalue ⊢
      linarith

/-! ## Doubles -/

theorem toNat_cons_pos {w : Nat} (x : BitVec w) : 0 < (1#1 ++ x).toNat := by
  have hlead : 0 < (1#1).toNat <<< w := by
    rw [Nat.shiftLeft_eq]
    exact Nat.mul_pos Nat.one_pos (Nat.two_pow_pos w)
  rw [BitVec.toNat_append]
  exact hlead.trans_le Nat.left_le_or

/-- The leading bit is put back. -/
theorem toNat_cons_one {m : Nat} (hm : m.log2 = 52) : (1#1 ++ BitVec.ofNat 52 m).toNat = m := by
  have hm0 : m ≠ 0 := ne_zero_of_le_log2 hm.ge
  obtain ⟨hlow, hhigh⟩ := (Nat.log2_eq_iff hm0).1 hm
  have hrest : (BitVec.ofNat 52 m).toNat = m % 2 ^ 52 := BitVec.toNat_ofNat m 52
  rw [BitVec.toNat_append, ← Nat.shiftLeft_add_eq_or_of_lt (BitVec.isLt _), hrest, Nat.shiftLeft_eq]
  change 1 * 2 ^ 52 + m % 2 ^ 52 = m
  omega

theorem pack_normal (s : Sign) {m b : Nat} {e : Int} (h : 0 < m) (hm : m.log2 = 52)
    (hb : e + 1075 = b) (hb' : b < 2047) : pack .binary64 (.finite s m e h) =
      packComponents .binary64 s (BitVec.ofNat 11 b) (BitVec.ofNat 52 m) := by
  have hbias : (e + Format.binary64.exponentBias + Format.binary64.mantissaBitsWithoutImplicit).toNat
      = b := by
    change (e + 1023 + 52).toNat = b
    omega
  have hroom : ¬ 2 ^ 11 ≤ b + 1 := by omega
  unfold pack
  dsimp only
  rw [hbias, if_neg hroom, if_pos (by rw [hm]; rfl)]

/-- A number is normal if its exponent is neither that of what is not finite nor that of the numbers
without a leading bit. -/
theorem unpack_normal {b : BitVec Format.binary64.numBits} (hinf : unpackExponent b ≠ -1#11)
    (hzero : unpackExponent b ≠ 0#11) : ∃ s h, unpack .binary64 b =
      .finite s (1#1 ++ unpackMantissa b).toNat ((unpackExponent b).toNat - (1023 + 52)) h := by
  unfold unpack
  dsimp only
  rw [if_neg hinf, if_neg hzero]
  exact ⟨Sign.ofBitVec (unpackSign b), toNat_cons_pos _, rfl⟩

/-- A number of 53 bits in range is packed without loss. -/
theorem unpack_pack (s : Sign) {m : Nat} {e : Int} (h : 0 < m) (hm : m.log2 = 52)
    (he : -1074 ≤ e) (he' : e ≤ 971) :
    ∃ s', (Float.Model.pack (.finite s m e h)).unpack = .finite s' m e h := by
  obtain ⟨b, hb⟩ : ∃ b : Nat, e + 1075 = b := Int.eq_ofNat_of_zero_le (by omega)
  have hfield : (BitVec.ofNat 11 b).toNat = b := by
    rw [BitVec.toNat_ofNat]
    omega
  have hne {field : BitVec 11} (hf : b ≠ field.toNat) : BitVec.ofNat 11 b ≠ field :=
    fun heq => hf (hfield.symm.trans (congrArg BitVec.toNat heq))
  have hexponent : unpackExponent (packComponents .binary64 s (BitVec.ofNat 11 b)
      (BitVec.ofNat 52 m)) = BitVec.ofNat 11 b := unpackExponent_packComponents ..
  have hmantissa : unpackMantissa (packComponents .binary64 s (BitVec.ofNat 11 b)
      (BitVec.ofNat 52 m)) = BitVec.ofNat 52 m := unpackMantissa_packComponents ..
  obtain ⟨s', h', hunpack⟩ := unpack_normal
    (b := packComponents .binary64 s (BitVec.ofNat 11 b) (BitVec.ofNat 52 m))
    (by rw [hexponent]; exact hne (show b ≠ 2047 by omega))
    (by rw [hexponent]; exact hne (show b ≠ 0 by omega))
  refine ⟨s', ?_⟩
  change unpack .binary64 (pack .binary64 (.finite s m e h)) = _
  rw [pack_normal s h hm hb (by omega), hunpack]
  refine finite_congr ?_ ?_
  · rw [hmantissa, toNat_cons_one hm]
  · rw [hexponent, hfield]
    omega

/-- A double of at least one, by its magnitude: `v` or `-v`. -/
def HasMagnitude (x : Float) (v : ℚ) : Prop :=
  ∃ s m e h, x.toModel.unpack = .finite s m e h ∧ m.log2 = 52 ∧ -52 ≤ e ∧ v = m * 2 ^ e

theorem HasMagnitude.isInf {x : Float} {v : ℚ} (h : HasMagnitude x v) : x.isInf = false := by
  obtain ⟨s, m, e, hm, hx, -⟩ := h
  change x.toModel.unpack.isInf = false
  rw [hx]
  rfl

theorem HasMagnitude.nonneg {x : Float} {v : ℚ} (h : HasMagnitude x v) : 0 ≤ v := by
  obtain ⟨s, m, e, -, -, -, -, rfl⟩ := h
  exact mul_nonneg (Nat.cast_nonneg m) (zpow_pos two_pos e).le

/-- Where the range of doubles ends. -/
def doubleLimit : ℚ := 2 ^ (1024 : ℤ)

theorem natCast_doubleLimit : ((2 ^ 1024 : Nat) : ℚ) = doubleLimit := Nat.cast_pow 2 1024

/-- A number of 53 bits below the end of the range is in range. -/
theorem exponent_le {m : Nat} {e : Int} (hm : m.log2 = 52) (h : (m : ℚ) * 2 ^ e < doubleLimit) :
    e ≤ 971 := by
  have hm0 : m ≠ 0 := ne_zero_of_le_log2 hm.ge
  have hlow : (2 : ℚ) ^ (52 : ℤ) ≤ m := by
    have hnat : 2 ^ 52 ≤ m := hm ▸ Nat.log2_self_le hm0
    exact_mod_cast hnat
  have hp : (0 : ℚ) ≤ 2 ^ e := (zpow_pos two_pos e).le
  have hlt : (2 : ℚ) ^ (52 + e) < 2 ^ (1024 : ℤ) := by
    rw [zpow_add₀ two_ne_zero]
    exact (mul_le_mul_of_nonneg_right hlow hp).trans_lt h
  have hexp := (zpow_lt_zpow_iff_right₀ one_lt_two).1 hlt
  omega

/-- A number of at least one that does not come near the end of the range is rounded to a double. -/
theorem exists_hasMagnitude_round {m : Nat} {e : Int} (hm : 52 ≤ m.log2) (he : 0 ≤ m.log2 + e)
    (s : Sign) (hmax : (m : ℚ) * 2 ^ e * (1 + halfUnit) < doubleLimit) :
    ∃ v, HasMagnitude ⟨.pack (roundWithAccuracy .binary64 s m e .exact)⟩ v ∧
      v ≤ m * 2 ^ e * (1 + halfUnit) := by
  obtain ⟨m', e', h, hround, hlog, he', hle⟩ := exists_round hm he s
  obtain ⟨s', hpack⟩ := unpack_pack s h hlog (by omega) (exponent_le hlog (hle.trans_lt hmax))
  rw [hround]
  exact ⟨_, ⟨s', m', e', h, hpack, hlog, he', rfl⟩, hle⟩

/-! ## Operations -/

theorem HasMagnitude.mul {x y : Float} {v w : ℚ} (hx : HasMagnitude x v) (hy : HasMagnitude y w)
    (hmax : v * w * (1 + halfUnit) < doubleLimit) : ∃ u, HasMagnitude (x * y) u := by
  obtain ⟨s, m, e, hm, hx, hlog, he, rfl⟩ := hx
  obtain ⟨s', m', e', hm', hy, hlog', he', rfl⟩ := hy
  have hmul : x * y = ⟨.pack (roundWithAccuracy .binary64 (s * s') (m * m') (e + e') .exact)⟩ := by
    change Float.ofModel (.pack (UnpackedFloat.mul .binary64 x.toModel.unpack y.toModel.unpack)) = _
    rw [hx, hy]
    rfl
  have hlow : 2 ^ (52 + 52) ≤ m * m' := by
    have h52 : 2 ^ 52 ≤ m := hlog ▸ Nat.log2_self_le hm.ne'
    have h52' : 2 ^ 52 ≤ m' := hlog' ▸ Nat.log2_self_le hm'.ne'
    rw [Nat.pow_add]
    exact Nat.mul_le_mul h52 h52'
  have hlog2 : 52 + 52 ≤ (m * m').log2 := (Nat.le_log2 (Nat.mul_pos hm hm').ne').2 hlow
  have hvalue : ((m * m' : Nat) : ℚ) * 2 ^ (e + e') = m * 2 ^ e * (m' * 2 ^ e') := by
    rw [zpow_add₀ two_ne_zero]
    push_cast
    ring
  rw [← hvalue] at hmax
  obtain ⟨u, hu, -⟩ := exists_hasMagnitude_round (by omega) (by omega) (s * s') hmax
  exact ⟨u, hmul ▸ hu⟩

/-- A whole number is rounded to a double, however many zero bits it is given at the end. -/
theorem exists_hasMagnitude_shiftLeft {n k : Nat} (hn : n ≠ 0) (hk : 52 ≤ n.log2 + k)
    (hmax : n * (1 + halfUnit) < doubleLimit) :
    ∃ v, HasMagnitude ⟨.pack (roundWithAccuracy .binary64 .positive (n <<< k) (-k) .exact)⟩ v ∧
      v ≤ n * (1 + halfUnit) := by
  have hlog : (n <<< k).log2 = n.log2 + k := by
    rw [Nat.shiftLeft_eq, Nat.log2_eq_iff (Nat.mul_ne_zero hn (Nat.two_pow_pos k).ne')]
    have hlow := Nat.log2_self_le hn
    have hhigh := Nat.lt_log2_self (n := n)
    constructor
    · rw [Nat.pow_add]
      exact Nat.mul_le_mul_right _ hlow
    · rw [Nat.add_right_comm, Nat.pow_add]
      exact Nat.mul_lt_mul_of_pos_right hhigh (Nat.two_pow_pos k)
  have hvalue : ((n <<< k : Nat) : ℚ) * 2 ^ (-k : ℤ) = n := by
    rw [Nat.shiftLeft_eq, zpow_neg, zpow_natCast]
    push_cast
    exact mul_inv_cancel_right₀ (pow_ne_zero k two_ne_zero) _
  have hround := exists_hasMagnitude_round (m := n <<< k) (e := -k) (by omega) (by omega) .positive
  rw [hvalue] at hround
  exact hround hmax

theorem exists_hasMagnitude_word {n : Nat} (hn : n ≠ 0) (h : n < 2 ^ 64)
    (hmax : n * (1 + halfUnit) < doubleLimit) :
    ∃ v, HasMagnitude n.toUInt64.toFloat v ∧ v ≤ n * (1 + halfUnit) := by
  obtain ⟨k, hk⟩ : ∃ k : Nat, (0 - Format.binary64.targetExponent (totalExponent n 0)).toNat = k :=
    ⟨_, rfl⟩
  have hfloat : n.toUInt64.toFloat =
      ⟨.pack (roundWithAccuracy .binary64 .positive (n <<< k) (-k) .exact)⟩ := by
    have hword : n.toUInt64.toNat = n := Nat.mod_eq_of_lt h
    have hpos : compare (n : Int) 0 = .gt := Int.compare_eq_gt.2 (by omega)
    change Float.ofModel
      (.pack (UnpackedFloat.normalize .binary64 (n.toUInt64.toNat : Int) 0 .positive)) = _
    rw [hword, UnpackedFloat.normalize, hpos]
    simp only [UnpackedFloat.round, decreaseExponent, Int.toNat_natCast, hk]
    rw [zero_sub]
  have hlarge : 52 ≤ n.log2 + k := by
    simp only [Format.targetExponent, totalExponent, mantissaBits_binary64, Format.minExponent] at hk
    omega
  rw [hfloat]
  exact exists_hasMagnitude_shiftLeft hn hlarge hmax

/-- The table of small powers of ten agrees with the rule for the others. -/
theorem ofScientific_one (k : Nat) : Float.ofScientific 1 false k = ⟨.ofScientific 1 k⟩ := by
  by_cases hk : k ≤ 22
  · revert k
    decide +kernel
  · rw [Float.ofScientific, dif_neg (by omega)]
    rfl

theorem ten_pow_rounded_lt {k : Nat} (hk : k ≤ 308) :
    (10 ^ k : Nat) * (1 + halfUnit) < doubleLimit := by
  have hnat : 10 ^ k * (2 ^ 53 + 1) < 2 ^ 53 * 2 ^ 1024 :=
    calc 10 ^ k * (2 ^ 53 + 1)
      _ ≤ 10 ^ 308 * (2 ^ 53 + 1) := Nat.mul_le_mul_right _ (Nat.pow_le_pow_right (by decide) hk)
      _ < 2 ^ 53 * 2 ^ 1024 := by decide +kernel
  have hrat : ((10 ^ k * (2 ^ 53 + 1) : Nat) : ℚ) < (2 ^ 53 * 2 ^ 1024 : Nat) := Nat.cast_lt.2 hnat
  rw [Nat.cast_mul, Nat.cast_mul, natCast_doubleLimit] at hrat
  push_cast at hrat ⊢
  rw [halfUnit]
  linarith

theorem exists_hasMagnitude_ten {k : Nat} (hk : k ≤ 308) :
    ∃ v, HasMagnitude (Float.ofScientific 1 false k) v ∧ v ≤ (10 ^ k : Nat) * (1 + halfUnit) := by
  have hfloat : Float.ofScientific 1 false k =
      ⟨.pack (roundWithAccuracy .binary64 .positive (10 ^ k <<< 53) (-(53 : Nat)) .exact)⟩ := by
    have hhigh : ¬ (k : Int) > 2 ^ Format.binary64.exponentBits := by
      change ¬ (k : Int) > 2048
      omega
    have hlow : ¬ (k : Int) < -((2 ^ Format.binary64.exponentBits : Int) + Nat.log2 1) := by
      change ¬ (k : Int) < -(2048 + 0)
      omega
    have hshift : 10 ^ k <<< 53 = 1 <<< Format.binary64.mantissaBits * 10 ^ k := by
      rw [Nat.shiftLeft_eq, Nat.mul_comm]
      rfl
    rw [ofScientific_one, Float.Model.ofScientific, UnpackedFloat.ofScientific, dif_neg one_ne_zero,
      if_neg hhigh, if_neg hlow, if_pos (Int.natCast_nonneg k), hshift]
    rfl
  rw [hfloat]
  exact exists_hasMagnitude_shiftLeft (Nat.pow_pos (by decide)).ne' (Nat.le_add_left _ _)
    (ten_pow_rounded_lt hk)

theorem HasMagnitude.isInf_zero_mul {x : Float} {v : ℚ} (h : HasMagnitude x v) :
    ((0 : Nat).toUInt64.toFloat * x).isInf = false := by
  obtain ⟨s, m, e, hm, hx, -⟩ := h
  have hzero : (0 : Nat).toUInt64.toFloat.toModel.unpack = .zero .positive := rfl
  have hmul : UnpackedFloat.mul .binary64 (.zero .positive) (.finite s m e hm) =
    .zero (.positive * s) := rfl
  change (Float.Model.pack (UnpackedFloat.mul .binary64 _ x.toModel.unpack)).unpack.isInf = false
  rw [hx, hzero, hmul]
  cases s <;> rfl

/-! ## Near the end of the range -/

/-- Three roundings upward from here stay in range. -/
def reachable : ℚ := (2 ^ 53 - 7 / 2) * 2 ^ (971 : ℤ)

theorem reachable_lt : reachable * (1 + halfUnit) ^ 3 < doubleLimit := by
  have hp : (0 : ℚ) < 2 ^ (971 : ℤ) := zpow_pos two_pos _
  have hnum : (2 ^ 53 - 7 / 2 : ℚ) * (1 + halfUnit) ^ 3 < 2 ^ (53 : ℤ) := by
    rw [halfUnit]
    norm_num
  rw [reachable, doubleLimit, show (1024 : ℤ) = 53 + 971 by norm_num, zpow_add₀ two_ne_zero,
    mul_right_comm]
  exact mul_lt_mul_of_pos_right hnum hp

/-- Up to three roundings upward do not leave the range. -/
theorem mul_roundings_lt {q : ℚ} (hq : 0 ≤ q) (h : q ≤ reachable) {j : Nat} (hj : j ≤ 3) :
    q * (1 + halfUnit) ^ j < doubleLimit := by
  have hunit := one_le_one_add_halfUnit
  calc q * (1 + halfUnit) ^ j
    _ ≤ q * (1 + halfUnit) ^ 3 := mul_le_mul_of_nonneg_left (pow_le_pow_right₀ hunit hj) hq
    _ ≤ reachable * (1 + halfUnit) ^ 3 :=
      mul_le_mul_of_nonneg_right h (pow_nonneg (zero_le_one.trans hunit) 3)
    _ < doubleLimit := reachable_lt

theorem le_308_of_mul_ten_le {n k : Nat} (hn : n ≠ 0)
    (h : (n : ℚ) * (10 ^ k : Nat) ≤ reachable) : k ≤ 308 := by
  by_contra hk
  have hlt := mul_roundings_lt (by positivity) h (Nat.zero_le 3)
  rw [pow_zero, mul_one] at hlt
  have hnat : 2 ^ 1024 ≤ n * 10 ^ k :=
    calc 2 ^ 1024
      _ ≤ 10 ^ 309 := by decide +kernel
      _ ≤ 10 ^ k := by
        rw [Nat.pow_le_pow_iff_right (by decide)]
        omega
      _ ≤ n * 10 ^ k := Nat.le_mul_of_pos_left _ (Nat.pos_of_ne_zero hn)
  have hrat : ((2 ^ 1024 : Nat) : ℚ) ≤ (n * 10 ^ k : Nat) := Nat.cast_le.2 hnat
  rw [natCast_doubleLimit, Nat.cast_mul] at hrat
  exact hlt.not_ge hrat

/-- A whole number in a word, times a power of ten, stays in range if the product does. -/
theorem isInf_word_mul_ten {n k : Nat} (hn : n < 2 ^ 64) (hk : k ≤ 308)
    (h : (n : ℚ) * (10 ^ k : Nat) ≤ reachable) :
    (n.toUInt64.toFloat * Float.ofScientific 1 false k).isInf = false := by
  obtain ⟨w, hw, hwle⟩ := exists_hasMagnitude_ten hk
  rcases Nat.eq_zero_or_pos n with rfl | hn0
  · exact hw.isInf_zero_mul
  have hn' : (n : ℚ) ≤ reachable := by
    have hten : (1 : ℚ) ≤ (10 ^ k : Nat) := by exact_mod_cast Nat.one_le_pow k 10 (by decide)
    exact (le_mul_of_one_le_right (Nat.cast_nonneg n) hten).trans h
  have hword := mul_roundings_lt (Nat.cast_nonneg n) hn' (j := 1) (by decide)
  rw [pow_one] at hword
  obtain ⟨v, hv, hvle⟩ := exists_hasMagnitude_word hn0.ne' hn hword
  have hproduct : v * w * (1 + halfUnit) < doubleLimit :=
    calc v * w * (1 + halfUnit)
      _ ≤ n * (1 + halfUnit) * ((10 ^ k : Nat) * (1 + halfUnit)) * (1 + halfUnit) := by
        have hunit := zero_le_one.trans one_le_one_add_halfUnit
        gcongr
        exact hw.nonneg
      _ = n * (10 ^ k : Nat) * (1 + halfUnit) ^ 3 := by ring
      _ < doubleLimit := mul_roundings_lt (by positivity) h le_rfl
  obtain ⟨u, hu⟩ := hv.mul hw hproduct
  exact hu.isInf

end RegionCapture
