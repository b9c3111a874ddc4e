import Mathlib.Algebra.Order.Field.Power
import Mathlib.Algebra.Field.Rat
import Mathlib.Algebra.Order.Ring.Rat
import Mathlib.Tactic.FieldSimp
import Mathlib.Tactic.Linarith
import Mathlib.Tactic.Ring
import RegionCapture.Proofs.Decimal.Numerals
/-!
# Magnitudes of numerals

How large the number is that a numeral stands for, its sign apart (`Numeral.magnitude`), and that laying
out a decimal does not change it. The numeral of a double is larger than the double by no more than half a
unit in the last place, whatever the style (`Style.magnitude_numeral_le`).
-/

namespace RegionCapture

/-- The number that a numeral stands for, its sign apart. -/
def Numeral.magnitude (n : Numeral) : ℚ :=
  Numeral.value (n.whole ++ n.fraction) * 10 ^ (n.exponentValue - n.fraction.length)

namespace Decimal

/-- The number that a decimal is. -/
def value (d : Decimal) : ℚ := d.digits * 10 ^ d.exp

/-! ## Decimals beside binary numbers -/

theorem zpow_eq_div {b : ℚ} (hb : b ≠ 0) (i : ℤ) : b ^ i = b ^ i.toNat / b ^ (-i).toNat := by
  rw [← zpow_natCast, ← zpow_natCast, ← zpow_sub₀ hb, Int.toNat_sub_toNat_neg]

theorem compareScaled_ne_gt {a b : Nat} {i j : Int} (h : compareScaled a i b j ≠ .gt) :
    (a : ℚ) * 10 ^ i ≤ b * 2 ^ j := by
  have hnat : a * 10 ^ i.toNat * 2 ^ (-j).toNat ≤ b * 10 ^ (-i).toNat * 2 ^ j.toNat := by
    rw [← Nat.shiftLeft_eq, ← Nat.shiftLeft_eq]
    exact Nat.compare_ne_gt.1 h
  have hrat : (a : ℚ) * 10 ^ i.toNat * 2 ^ (-j).toNat ≤ b * 10 ^ (-i).toNat * 2 ^ j.toNat := by
    exact_mod_cast hnat
  rw [zpow_eq_div (by norm_num), zpow_eq_div two_ne_zero, mul_div_assoc', mul_div_assoc',
    div_le_div_iff₀ (by positivity) (by positivity)]
  linarith

/-- What reads back is at most the midpoint to the next number. -/
theorem value_le_of_readsBack {x : Binary} {d : Decimal} (h : readsBack x d = true) :
    d.value ≤ (x.mantissa + 1 / 2) * 2 ^ x.exp := by
  have habove : compareScaled d.digits d.exp (4 * x.mantissa + 2) (x.exp - 2) ≠ .gt := by
    intro hgt
    simp [readsBack, hgt] at h
  have hle := compareScaled_ne_gt habove
  rw [zpow_sub₀ two_ne_zero] at hle
  push_cast at hle
  rw [value]
  linarith

theorem value_strip (fuel : Nat) (d : Decimal) : (strip fuel d).value = d.value := by
  induction fuel generalizing d with
  | zero => rfl
  | succ fuel ih =>
    rw [strip]
    split
    · next hzero =>
      have hdigits : (d.digits : ℚ) = 10 * (d.digits / 10 : Nat) := by
        exact_mod_cast (Nat.mul_div_cancel' (Nat.dvd_of_mod_eq_zero hzero.2)).symm
      rw [ih, value, value, hdigits, zpow_add_one₀ (by norm_num)]
      ring
    · rfl

theorem value_exact (x : Binary) : (exact x).value = x.mantissa * 2 ^ x.exp := by
  rw [exact, value, Nat.shiftLeft_eq]
  push_cast
  rcases Int.le_total 0 x.exp with hx | hx
  · obtain ⟨n, hn⟩ := Int.eq_ofNat_of_zero_le hx
    simp [hn]
  · obtain ⟨n, hn⟩ := Int.eq_ofNat_of_zero_le (Int.neg_nonneg_of_nonpos hx)
    obtain hn : x.exp = -n := by omega
    have hten : (10 : ℚ) ^ n = 5 ^ n * 2 ^ n := by
      rw [← mul_pow]
      norm_num
    simp [hn, hten]
    field_simp

theorem value_shortest_le (tie : Tie) (x : Binary) :
    (shortest tie x).value ≤ (x.mantissa + 1 / 2) * 2 ^ x.exp := by
  simp only [shortest, value_strip]
  cases hf : (List.range 17).findSome? fun (i : Nat) => onGrid tie x (scale x - 1 - i) with
  | none =>
    rw [Option.getD_none, value_exact]
    gcongr
    norm_num
  | some d =>
    obtain ⟨i, -, hi⟩ := List.exists_of_findSome?_eq_some hf
    exact value_le_of_readsBack (readsBack_of_onGrid hi)

/-! ## Layouts -/

open Numeral

/-- Zeros around the digits move the point. -/
theorem magnitude_padded {n : Numeral} (digits : List Char) (before behind : Nat)
    (h : n.whole ++ n.fraction =
      List.replicate before '0' ++ (digits ++ List.replicate behind '0')) :
    n.magnitude = Numeral.value digits * 10 ^ (n.exponentValue + behind - n.fraction.length) := by
  have hvalue : Numeral.value (n.whole ++ n.fraction) = 10 ^ behind * Numeral.value digits := by
    rw [h, Numeral.value, Nat.ofDigitChars_append, Nat.ofDigitChars_replicate_zero, Nat.mul_zero,
      Nat.ofDigitChars_append, Nat.ofDigitChars_replicate_zero]
    rfl
  rw [Numeral.magnitude, hvalue, add_sub_right_comm, zpow_add₀ (by norm_num), zpow_natCast]
  push_cast
  ring

theorem magnitude_layoutPositional (style : Style) (negative : Bool) {digits : List Char}
    (hd : digits ≠ []) (magnitude : Int) :
    (layoutPositional style negative digits magnitude).magnitude =
      Numeral.value digits * 10 ^ (magnitude + 1 - digits.length) := by
  rcases Int.lt_or_le magnitude 0 with hm | hm
  · rw [magnitude_padded digits ((-magnitude - 1).toNat + 1) 0
      (by simp [layoutPositional, hm, hd, List.replicate_succ])]
    simp only [layoutPositional, hm, exponentValue]
    congr 2
    simp [hd]
    omega
  obtain ⟨n, rfl⟩ := Int.eq_ofNat_of_zero_le hm
  have hn0 : ¬ (n : Int) < 0 := hm.not_gt
  rcases Nat.lt_or_ge (n + 1) digits.length with hn | hn
  · have hdrop : digits.drop (n + 1) ≠ [] := by simpa using hn
    rw [magnitude_padded digits 0 0
      (by simp [layoutPositional, hn0, hn.le, hdrop])]
    simp only [layoutPositional, exponentValue]
    congr 2
    simp [hn0, hdrop]
    omega
  · -- all digits stand before the point
    have hdrop : digits.drop (n + 1) = [] := List.drop_of_length_le hn
    have htake : digits.take (n + 1) = digits := List.take_of_length_le hn
    have hexp : (n : Int) + 1 - digits.length = (n + 1 - digits.length : Nat) := by omega
    rw [hexp]
    cases hpoint : style.keepsPoint with
    | true =>
      rw [magnitude_padded digits 0 (n + 1 - digits.length + 1)
        (by simp [layoutPositional, hpoint, hn0, hdrop, htake, List.replicate_succ'])]
      simp [layoutPositional, exponentValue, hpoint, hn0, hdrop]
    | false =>
      rw [magnitude_padded digits 0 (n + 1 - digits.length)
        (by simp [layoutPositional, hpoint, hn0, hdrop, htake])]
      simp [layoutPositional, exponentValue, hpoint, hn0, hdrop]

/-- The exponent that is written is the magnitude. -/
theorem exponentValue_layoutExponent (style : Style) (negative : Bool) (digits : List Char)
    (magnitude : Int) : (layoutExponent style negative digits magnitude).exponentValue = magnitude := by
  simp only [layoutExponent]
  by_cases hm : magnitude < 0
  · simp only [exponentValue, if_pos hm, value_toDigits]
    omega
  · cases hplus : style.showsPlus <;>
      simp only [exponentValue, if_neg hm, value_toDigits, Bool.false_eq_true, if_true, if_false] <;>
      omega

theorem magnitude_layoutExponent (style : Style) (negative : Bool) {digits : List Char}
    (hd : digits ≠ []) (magnitude : Int) :
    (layoutExponent style negative digits magnitude).magnitude =
      Numeral.value digits * 10 ^ (magnitude + 1 - digits.length) := by
  have hlength : 1 ≤ digits.length := List.length_pos_iff.2 hd
  rw [Numeral.magnitude, exponentValue_layoutExponent]
  simp only [layoutExponent, List.take_append_drop, List.length_drop]
  congr 2
  omega

/-! ## Doubles -/

/-- However a number is laid out, its numeral stands for its shortest decimal. -/
theorem Style.magnitude_numeral {style : Style} {x : Float}
    (hx : (Binary.ofBits x.toBits).mantissa ≠ 0) :
    (style.numeral x).magnitude = (shortest style.tie (Binary.ofBits x.toBits)).value := by
  have hd : Nat.toDigits 10 (shortest style.tie (Binary.ofBits x.toBits)).digits ≠ [] :=
    Nat.toDigits_ne_nil
  have hexp (exp : Int) (length : Nat) : exp + length - 1 + 1 - length = exp := by omega
  simp only [Style.numeral, if_neg hx]
  split
  · rw [magnitude_layoutPositional _ _ hd, value_toDigits, hexp, value]
  · split
    · rw [magnitude_layoutPositional _ _ hd, value_toDigits, hexp, value]
    · rw [magnitude_layoutExponent _ _ hd, value_toDigits, hexp, value]

theorem Style.magnitude_numeral_le (style : Style) (x : Float) :
    (style.numeral x).magnitude ≤
      ((Binary.ofBits x.toBits).mantissa + 1 / 2) * 2 ^ (Binary.ofBits x.toBits).exp := by
  by_cases hx : (Binary.ofBits x.toBits).mantissa = 0
  · have hzero : (style.numeral x).magnitude = 0 := by
      simp only [Style.numeral, if_pos hx]
      rw [magnitude_layoutPositional _ _ (List.cons_ne_nil _ _)]
      exact zero_mul _
    rw [hzero]
    positivity
  · rw [Style.magnitude_numeral hx]
    exact value_shortest_le _ _

theorem length_whole_layoutPositional (style : Style) (negative : Bool) (digits : List Char)
    (magnitude : Int) :
    (layoutPositional style negative digits magnitude).whole.length = magnitude.toNat + 1 := by
  simp only [layoutPositional]
  split
  · next hm =>
    rw [Int.toNat_of_nonpos hm.le]
    rfl
  · rw [List.length_append, List.length_take, List.length_replicate]
    omega

/-- No more digits stand before the point than the range of a style leaves room for. -/
theorem Style.length_whole_numeral_le {style : Style} {least greatest : Int}
    (h : style.positional = some (least, greatest)) (x : Float) :
    (style.numeral x).whole.length ≤ greatest.toNat + 1 := by
  simp only [Style.numeral, h]
  split
  · rw [length_whole_layoutPositional]
    omega
  · split
    · next hm =>
      rw [Bool.and_eq_true, decide_eq_true_eq, decide_eq_true_eq] at hm
      rw [length_whole_layoutPositional]
      omega
    · rw [layoutExponent, List.length_take]
      omega

open Float.Model Float.Model.UnpackedFloat in
/-- The largest exponent field is that of what is not finite. -/
theorem field_ne_of_isFinite {x : Float} (hx : x.isFinite = true) :
    x.toBits.toNat >>> 52 % 0x800 ≠ 2047 := by
  intro hfield
  have hexp : @unpackExponent .binary64 x.toBits.toBitVec = -1#11 := by
    apply BitVec.eq_of_toNat_eq
    rw [unpackExponent, BitVec.toNat_cast, BitVec.extractLsb_toNat]
    exact hfield
  have hinf : (UnpackedFloat.unpack .binary64 x.toBits.toBitVec).isFinite = false := by
    unfold UnpackedFloat.unpack
    dsimp only
    rw [if_pos hexp]
    split <;> rfl
  exact Bool.false_ne_true (hinf.symm.trans hx)

/-- A finite number has 53 bits, the last of them worth at most `2 ^ 971`. -/
theorem Binary.ofBits_bounds {x : Float} (hx : x.isFinite = true) :
    (Binary.ofBits x.toBits).mantissa < 2 ^ 53 ∧ (Binary.ofBits x.toBits).exp ≤ 971 := by
  have hfield := field_ne_of_isFinite hx
  have hfraction := Nat.mod_lt x.toBits.toNat (y := 0x10000000000000) (by decide)
  have hword := Nat.mod_lt (x.toBits.toNat >>> 52) (y := 0x800) (by decide)
  simp only [Binary.ofBits]
  split
  · dsimp only
    omega
  · dsimp only
    omega

end Decimal

end RegionCapture
