import RegionCapture.Json.Decode
import RegionCapture.Proofs.Decimal.Magnitudes
import RegionCapture.Proofs.Scalar.Rounding
import RegionCapture.Proofs.Text.Numerals
/-!
# Doubles read from documents

Reading a numeral may miss the nearest double, and near the end of the range it may miss all of them, as
when a numeral below the largest double is rounded up three times. What is written for a double is not
among those numerals: every finite double has a text that is read as some double
(`Json.isSome_double?_double`).
-/

namespace RegionCapture

/-! ## Digits in a word -/

theorem gatherDigits_fst_lt {word : Nat} (h : word < 2 ^ 64) (cs : List Char) :
    (gatherDigits word cs).1 < 2 ^ 64 := by
  induction cs generalizing word with
  | nil => exact h
  | cons c cs ih =>
    rw [gatherDigits]
    split
    · next hnext => exact ih hnext
    · exact h

theorem length_gatherDigits_snd_le (word : Nat) (cs : List Char) :
    (gatherDigits word cs).2.length ≤ cs.length := by
  induction cs generalizing word with
  | nil => exact Nat.le_refl _
  | cons c cs ih =>
    rw [gatherDigits]
    split
    · exact (ih _).trans (Nat.le_succ _)
    · exact Nat.le_refl _

/-- Digits that are left count as zeros. -/
theorem gatherDigits_mul_pow_le (word : Nat) (cs : List Char) :
    (gatherDigits word cs).1 * 10 ^ (gatherDigits word cs).2.length ≤ Nat.ofDigitChars 10 cs word := by
  induction cs generalizing word with
  | nil => simp [gatherDigits]
  | cons c cs ih =>
    rw [gatherDigits]
    split
    · rw [Nat.ofDigitChars_cons]
      exact ih _
    · rw [Nat.ofDigitChars_eq_ofDigitChars_zero, Nat.mul_comm]
      exact Nat.le_add_right _ _

/-- No digits are left of a number that fits. -/
theorem gatherDigits_of_lt {word : Nat} {cs : List Char} (h : Nat.ofDigitChars 10 cs word < 2 ^ 64) :
    gatherDigits word cs = (Nat.ofDigitChars 10 cs word, []) := by
  induction cs generalizing word with
  | nil => simp [gatherDigits]
  | cons c cs ih =>
    rw [Nat.ofDigitChars_cons] at h ⊢
    have hnext := (Text.le_ofDigitChars _ cs).trans_lt h
    rw [gatherDigits]
    split
    · exact ih h
    · next hfull => exact absurd hnext hfull

theorem ofDigitChars_lt {cs : List Char} (h : ∀ c ∈ cs, c.isDigit = true) (n : Nat) :
    Nat.ofDigitChars 10 cs n < (n + 1) * 10 ^ cs.length := by
  induction cs generalizing n with
  | nil => simp
  | cons c cs ih =>
    have hdigit : c.toNat - '0'.toNat < 10 := by
      have hbounds := Char.isDigit_iff_toNat.1 (h c List.mem_cons_self)
      have hnine : '9'.toNat = '0'.toNat + 9 := rfl
      omega
    have hrest := ih (fun d hd => h d (List.mem_cons_of_mem c hd)) (10 * n + (c.toNat - '0'.toNat))
    rw [Nat.ofDigitChars_cons, List.length_cons, Nat.pow_succ]
    refine hrest.trans_le ?_
    rw [← Nat.mul_assoc, Nat.mul_right_comm]
    exact Nat.mul_le_mul_right _ (by omega)

/-! ## Powers of ten -/

theorem isSome_scaleByTen_of_neg (steps : Nat) (f : Float) {exp : Int} (h : exp < 0) :
    (scaleByTen steps f exp).isSome = true := by
  induction steps generalizing f exp with
  | zero =>
    unfold scaleByTen
    simp only [if_neg h.not_ge]
    split
    · rfl
    · split <;> rfl
  | succ steps ih =>
    unfold scaleByTen
    simp only [if_neg h.not_ge]
    split
    · rfl
    · split
      · rfl
      · exact ih _ (by omega)

/-- A product in range is read. -/
theorem isSome_scaleByTen (steps : Nat) {word : Nat} (hword : word < 2 ^ 64) {exp : Int}
    (h : (word : ℚ) * 10 ^ exp ≤ reachable) :
    (scaleByTen steps word.toUInt64.toFloat exp).isSome = true := by
  rcases Int.lt_or_le exp 0 with hexp | hexp
  · exact isSome_scaleByTen_of_neg steps _ hexp
  obtain ⟨k, rfl⟩ := Int.eq_ofNat_of_zero_le hexp
  have hpow : (10 : ℚ) ^ (k : Int) = (10 ^ k : Nat) := (Nat.cast_pow 10 k).symm
  rw [hpow] at h
  unfold scaleByTen
  simp only [Int.natAbs_natCast, Int.toNat_natCast, if_pos hexp]
  by_cases hk : k ≤ 308
  · simp [hk, isInf_word_mul_ten hword hk h]
  · -- only zero is in range whatever it is multiplied by
    obtain rfl : word = 0 := by
      by_contra hne
      exact hk (le_308_of_mul_ten_le hne h)
    have hzero : ((0 : Nat).toUInt64.toFloat == 0) = true := rfl
    rw [if_neg hk, if_pos hzero]
    rfl

/-! ## Numerals -/

/-- A numeral is read if its magnitude is in range and its whole digits fit in a word. -/
theorem Numeral.isSome_double? {n : Numeral} (hdigits : ∀ c ∈ n.whole, c.isDigit = true)
    (hlength : n.whole.length ≤ 19) (h : n.magnitude ≤ reachable) : n.double?.isSome = true := by
  have hwhole : Nat.ofDigitChars 10 n.whole 0 < 2 ^ 64 :=
    calc Nat.ofDigitChars 10 n.whole 0
      _ < (0 + 1) * 10 ^ n.whole.length := ofDigitChars_lt hdigits 0
      _ ≤ (0 + 1) * 10 ^ 19 :=
        Nat.mul_le_mul_left _ (Nat.pow_le_pow_right (by decide) hlength)
      _ < 2 ^ 64 := by decide
  have hword := gatherDigits_fst_lt hwhole n.fraction
  have hle := gatherDigits_mul_pow_le (Nat.ofDigitChars 10 n.whole 0) n.fraction
  have hleft := length_gatherDigits_snd_le (Nat.ofDigitChars 10 n.whole 0) n.fraction
  rw [← Nat.ofDigitChars_append] at hle
  rw [double?, gatherDigits_of_lt hwhole]
  dsimp only
  generalize gatherDigits _ n.fraction = gathered at hword hle hleft
  obtain ⟨word, left⟩ := gathered
  dsimp only at hword hle hleft ⊢
  rw [Option.isSome_map]
  refine isSome_scaleByTen 3 hword (le_trans ?_ h)
  have hexp : (([] : List Char).length : Int) - (n.fraction.length - left.length : Nat)
      + n.exponentValue = left.length + (n.exponentValue - n.fraction.length) := by
    rw [List.length_nil]
    omega
  have hrat : (word : ℚ) * 10 ^ left.length ≤ Numeral.value (n.whole ++ n.fraction) := by
    exact_mod_cast hle
  rw [hexp, zpow_add₀ (by norm_num), zpow_natCast, ← mul_assoc, Numeral.magnitude]
  exact mul_le_mul_of_nonneg_right hrat (by positivity)

/-! ## Finite doubles -/

/-- All but the three largest doubles stay in reach with half a unit more. -/
theorem add_half_mul_le_reachable {m : Nat} {e : Int} (hm : m < 2 ^ 53) (he : e ≤ 971)
    (h : e = 971 → m + 4 ≤ 2 ^ 53) : ((m : ℚ) + 1 / 2) * 2 ^ e ≤ reachable := by
  rcases he.lt_or_eq with he | rfl
  · have hm : (m : ℚ) + 1 ≤ 2 ^ 53 := by exact_mod_cast hm
    calc ((m : ℚ) + 1 / 2) * 2 ^ e
      _ ≤ 2 ^ 53 * 2 ^ (970 : ℤ) := by
        gcongr
        · linarith
        · exact one_le_two
        · omega
      _ ≤ reachable := by
        rw [reachable, show (971 : ℤ) = 970 + 1 by norm_num, zpow_add_one₀ two_ne_zero]
        have hp : (0 : ℚ) < 2 ^ (970 : ℤ) := zpow_pos two_pos _
        generalize (2 : ℚ) ^ (970 : ℤ) = p at hp ⊢
        linarith
  · have hm : (m : ℚ) + 4 ≤ 2 ^ 53 := by exact_mod_cast h rfl
    rw [reachable]
    gcongr
    linarith

namespace Json

/-- The bits of the three largest doubles and of their negatives. -/
def largestBits : List UInt64 :=
  [0x7fefffffffffffff, 0x7feffffffffffffe, 0x7feffffffffffffd,
    0xffefffffffffffff, 0xffeffffffffffffe, 0xffeffffffffffffd]

open Decimal in
theorem mem_largestBits {x : Float} (hexp : (Binary.ofBits x.toBits).exp = 971)
    (h : 2 ^ 53 < (Binary.ofBits x.toBits).mantissa + 4) : x.toBits ∈ largestBits := by
  have hword : x.toBits.toNat < 2 ^ 64 := x.toBits.toNat_lt
  have hbits : x.toBits.toNat ∈ largestBits.map UInt64.toNat := by
    simp only [Binary.ofBits] at hexp h
    split at hexp
    · cases hexp
    · next hfield =>
      rw [if_neg hfield] at h
      dsimp only at hexp h
      simp [largestBits]
      omega
  obtain ⟨b, hb, heq⟩ := List.mem_map.1 hbits
  exact UInt64.toNat_inj.1 heq ▸ hb

theorem all_largestBits : (largestBits.all fun b => (Float.ofBits b).toBits == b &&
    (Decimal.document.numeral (Float.ofBits b)).double?.isSome) = true := by
  decide +kernel

/-- A numeral is made from the bits of a double. -/
theorem numeral_congr {x y : Float} (h : x.toBits = y.toBits) :
    Decimal.document.numeral x = Decimal.document.numeral y := by
  simp only [Decimal.Style.numeral, h]

/-- What is written for a finite double is read as a double. -/
theorem isSome_double?_double {x : Float} (hx : x.isFinite = true) :
    (double x).double?.isSome = true := by
  obtain ⟨hm, he⟩ := Decimal.Binary.ofBits_bounds hx
  rw [double, if_pos hx, double?]
  by_cases hlarge : (Decimal.Binary.ofBits x.toBits).exp = 971 →
      (Decimal.Binary.ofBits x.toBits).mantissa + 4 ≤ 2 ^ 53
  · refine Numeral.isSome_double? (Decimal.document.proper_numeral x).whole.digits ?_ ?_
    · exact (Decimal.Style.length_whole_numeral_le rfl x).trans (by decide)
    · exact (Decimal.document.magnitude_numeral_le x).trans (add_half_mul_le_reachable hm he hlarge)
  · -- the three largest doubles are read one by one
    rw [Classical.not_imp, Nat.not_le] at hlarge
    have hread := List.all_eq_true.1 all_largestBits _ (mem_largestBits hlarge.1 hlarge.2)
    rw [Bool.and_eq_true, beq_iff_eq] at hread
    rw [← numeral_congr hread.1]
    exact hread.2

end Json

end RegionCapture
