import RegionCapture.Size
/-!
# Sizes in words

`Size.limit` computes with whole numbers of any size. In words of 32 bits the product takes 64 bits, and
the quotient is cut back to 32 (`WordSize.limit`). No bit is lost on the way (`limits_exactly`).
-/

namespace RegionCapture

namespace Size

/-- The longer side. -/
def longSide (s : Size) : Nat := max s.width s.height

/-- The shorter side. -/
def shortSide (s : Size) : Nat := min s.width s.height

theorem shortSide_le_longSide (s : Size) : s.shortSide ≤ s.longSide :=
  Nat.le_trans (Nat.min_le_left _ _) (Nat.le_max_left _ _)

@[simp] theorem longSide_rotate (s : Size) : s.rotate.longSide = s.longSide :=
  Nat.max_comm _ _

@[simp] theorem shortSide_rotate (s : Size) : s.rotate.shortSide = s.shortSide :=
  Nat.min_comm _ _

/-- What is left of a shorter side is not above the cap. -/
theorem mul_div_le_cap (cap : Nat) {short long : Nat} (h : short ≤ long) :
    cap * short / long ≤ cap := by
  refine Nat.div_le_of_le_mul ?_
  rw [Nat.mul_comm]
  exact Nat.mul_le_mul_right cap h

/-- A cap below the longer side takes its place, and the shorter side is scaled down with it. -/
theorem limit_eq (s : Size) (cap : Nat) : s.limit cap =
    if cap = 0 ∨ s.longSide ≤ cap then s
    else if s.width < s.height then ⟨cap * s.shortSide / s.longSide, cap⟩
    else ⟨cap, cap * s.shortSide / s.longSide⟩ := by
  unfold limit longSide shortSide
  by_cases hc : cap = 0
  · simp [hc]
  by_cases hp : s.width < s.height
  · have hle := Nat.le_of_lt hp
    simp [hc, hp, Nat.max_eq_right hle, Nat.min_eq_left hle]
  · have hle := Nat.le_of_not_lt hp
    simp [hc, hp, Nat.max_eq_left hle, Nat.min_eq_right hle]

end Size

/-- A size in words of 32 bits. -/
structure WordSize where
  width : UInt32
  height : UInt32
  deriving DecidableEq, Repr

namespace WordSize

/-- The size that the words stand for. -/
def toSize (s : WordSize) : Size := ⟨s.width.toNat, s.height.toNat⟩

/-- The longer side, found by one comparison. -/
def longSide (s : WordSize) : UInt32 := if s.width < s.height then s.height else s.width

/-- The other side. -/
def shortSide (s : WordSize) : UInt32 := if s.width < s.height then s.width else s.height

/-- The shorter side, scaled down as far as the longer one down to the cap: a product and a quotient in
64 bits. -/
def scaled (s : WordSize) (cap : UInt32) : UInt64 :=
  cap.toUInt64 * s.shortSide.toUInt64 / s.longSide.toUInt64

/-- The size with its longer side capped, where a cap of zero is no cap. What is left of the shorter side
is cut back to 32 bits. -/
def limit (s : WordSize) (cap : UInt32) : WordSize :=
  if cap = 0 then s
  else if s.longSide ≤ cap then s
  else if s.width < s.height then ⟨(s.scaled cap).toUInt32, cap⟩
  else ⟨cap, (s.scaled cap).toUInt32⟩

theorem toNat_longSide (s : WordSize) : s.longSide.toNat = s.toSize.longSide := by
  simp only [longSide, Size.longSide, toSize, UInt32.lt_iff_toNat_lt]
  split <;> omega

theorem toNat_shortSide (s : WordSize) : s.shortSide.toNat = s.toSize.shortSide := by
  simp only [shortSide, Size.shortSide, toSize, UInt32.lt_iff_toNat_lt]
  split <;> omega

/-- The product of two words of 32 bits fits into 64. -/
theorem toNat_product (a b : UInt32) : (a.toUInt64 * b.toUInt64).toNat = a.toNat * b.toNat := by
  rw [UInt64.toNat_mul, UInt32.toNat_toUInt64, UInt32.toNat_toUInt64]
  refine Nat.mod_eq_of_lt ?_
  calc a.toNat * b.toNat < 2 ^ 32 * 2 ^ 32 := Nat.mul_lt_mul'' a.toNat_lt b.toNat_lt
    _ = 2 ^ 64 := (Nat.pow_add 2 32 32).symm

theorem toNat_scaled (s : WordSize) (cap : UInt32) :
    (s.scaled cap).toNat = cap.toNat * s.shortSide.toNat / s.longSide.toNat := by
  rw [scaled, UInt64.toNat_div, toNat_product, UInt32.toNat_toUInt64]

theorem toNat_toUInt32_scaled (s : WordSize) (cap : UInt32) :
    (s.scaled cap).toUInt32.toNat = cap.toNat * s.shortSide.toNat / s.longSide.toNat := by
  have hle : s.shortSide.toNat ≤ s.longSide.toNat := by
    rw [toNat_shortSide, toNat_longSide]
    exact s.toSize.shortSide_le_longSide
  -- the cap is a word of 32 bits, and what is left of the shorter side is not above it
  have hcap := Size.mul_div_le_cap cap.toNat hle
  rw [UInt64.toNat_toUInt32, toNat_scaled]
  exact Nat.mod_eq_of_lt (Nat.lt_of_le_of_lt hcap cap.toNat_lt)

theorem toSize_limit (s : WordSize) (cap : UInt32) :
    (s.limit cap).toSize = s.toSize.limit cap.toNat := by
  have hscaled := toNat_toUInt32_scaled s cap
  rw [toNat_shortSide, toNat_longSide] at hscaled
  rw [Size.limit_eq, ← hscaled, ← toNat_longSide]
  by_cases hc : cap = 0
  · simp [limit, hc]
  have hc' : cap.toNat ≠ 0 := fun h => hc (UInt32.toNat_inj.1 h)
  have hlt : s.toSize.width < s.toSize.height ↔ s.width < s.height := UInt32.lt_iff_toNat_lt.symm
  simp only [limit, hc, hc', hlt, UInt32.le_iff_toNat_le, false_or, if_false]
  split
  · rfl
  · split <;> rfl

/-- A size is limited without loss: the product is the product of the numbers, the quotient is the same
in 32 bits, and what comes out is the limited size. -/
structure LimitsExactly (s : WordSize) (cap : UInt32) : Prop where
  product : (cap.toUInt64 * s.shortSide.toUInt64).toNat = cap.toNat * s.shortSide.toNat
  quotient : (s.scaled cap).toUInt32.toUInt64 = s.scaled cap
  limit : (s.limit cap).toSize = s.toSize.limit cap.toNat

theorem limits_exactly (s : WordSize) (cap : UInt32) : s.LimitsExactly cap where
  product := toNat_product cap s.shortSide
  quotient := by
    rw [← UInt64.toNat_inj, UInt32.toNat_toUInt64, toNat_toUInt32_scaled, toNat_scaled]
  limit := toSize_limit s cap

end WordSize

/-- Clearing the three lowest bits of a word rounds it down to a multiple of 8. -/
theorem toNat_clear_low (n : UInt32) : (n &&& ~~~7).toNat = roundDown8 n.toNat := by
  have hmask : (~~~(7 : UInt32)).toNat = (2 ^ 29 - 1) <<< 3 := by decide
  have hround : roundDown8 n.toNat = (n.toNat >>> 3) <<< 3 := by
    simp [roundDown8, Nat.shiftRight_eq_div_pow, Nat.shiftLeft_eq]
  rw [UInt32.toNat_and, hmask, hround]
  -- bit by bit: below 3 both are clear, from 32 on there is nothing to clear
  refine Nat.eq_of_testBit_eq fun i => ?_
  rw [Nat.testBit_and, Nat.testBit_shiftLeft, Nat.testBit_shiftLeft, Nat.testBit_two_pow_sub_one,
    Nat.testBit_shiftRight]
  by_cases hlow : 3 ≤ i
  · by_cases hhigh : i < 32
    · have h29 : i - 3 < 29 := by omega
      simp [hlow, h29]
    · have hpow : 2 ^ 32 ≤ 2 ^ i := Nat.pow_le_pow_right (by decide) (Nat.le_of_not_lt hhigh)
      have hzero : n.toNat.testBit i = false :=
        Nat.testBit_lt_two_pow (Nat.lt_of_lt_of_le n.toNat_lt hpow)
      simp [hlow, hzero]
  · simp [hlow]

end RegionCapture
