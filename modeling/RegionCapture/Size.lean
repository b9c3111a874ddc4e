/-!
# Sizes

Pixel dimensions of a display, a region or an output. A size with a zero side marks something that
holds no pixel and is never drawn.
-/

namespace RegionCapture

/-- Width and height in pixels. -/
structure Size where
  width : Nat
  height : Nat
  deriving DecidableEq, Repr

/-- Round up to the next multiple of 8. -/
def roundUp8 (n : Nat) : Nat := (n + 7) / 8 * 8

/-- Round down to a multiple of 8. -/
def roundDown8 (n : Nat) : Nat := n / 8 * 8

namespace Size

/-- The size without any pixel. -/
def zero : Size := ⟨0, 0⟩

/-- A side is zero. -/
def isEmpty (s : Size) : Bool := s.width == 0 || s.height == 0

/-- Width and height exchanged, as a quarter turn does. -/
def rotate (s : Size) : Size := ⟨s.height, s.width⟩

/-- Both sides are multiples of 8. -/
def isAligned (s : Size) : Bool := s.width % 8 == 0 && s.height % 8 == 0

/-- Both sides rounded up to a multiple of 8, as codecs and surfaces ask for. -/
def align (s : Size) : Size := ⟨roundUp8 s.width, roundUp8 s.height⟩

/-- The size with its longer side capped at `cap` and its aspect ratio kept: the shorter side is
scaled down and truncated. A cap of zero is no cap. -/
def limit (s : Size) (cap : Nat) : Size :=
  if cap = 0 then s
  else if s.width < s.height then
    if s.height ≤ cap then s else ⟨cap * s.width / s.height, cap⟩
  else
    if s.width ≤ cap then s else ⟨cap, cap * s.height / s.width⟩

/-- The bytes of a picture, four for each pixel. They are counted in a word of 64 bits, so a picture
that is too large comes out with too few. -/
def bytes (s : Size) : Nat := s.width * s.height * 4 % 0x10000000000000000

/-- Written `WIDTHxHEIGHT`. -/
def text (s : Size) : String := toString s.width ++ "x" ++ toString s.height

/-! ## Small facts -/

@[simp] theorem rotate_rotate (s : Size) : s.rotate.rotate = s := rfl

@[simp] theorem isEmpty_rotate (s : Size) : s.rotate.isEmpty = s.isEmpty := by
  simp [isEmpty, rotate, Bool.or_comm]

theorem isEmpty_eq_false_iff {s : Size} : s.isEmpty = false ↔ 0 < s.width ∧ 0 < s.height := by
  simp only [isEmpty, Bool.or_eq_false_iff, beq_eq_false_iff_ne]
  omega

end Size

theorem le_roundUp8 (n : Nat) : n ≤ roundUp8 n := by
  unfold roundUp8; omega

theorem roundUp8_lt (n : Nat) : roundUp8 n < n + 8 := by
  unfold roundUp8; omega

theorem roundUp8_eq_zero_iff {n : Nat} : roundUp8 n = 0 ↔ n = 0 := by
  unfold roundUp8; omega

@[simp] theorem Size.isEmpty_align (s : Size) : s.align.isEmpty = s.isEmpty := by
  rw [Bool.eq_iff_iff]
  simp [isEmpty, align, roundUp8_eq_zero_iff]

end RegionCapture
