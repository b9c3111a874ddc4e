import Mathlib.Data.Nat.Cast.Order.Field
import Mathlib.Tactic.Linarith
import RegionCapture.Options
import RegionCapture.Proofs.Layout.Tiling
import RegionCapture.Proofs.Size.Words
import RegionCapture.Scalar.Exact
/-!
# One region under a cap

What a cap leaves of a region that stands by itself. The longer side comes out at the cap and the shorter
one in proportion, each rounded up to a whole multiple of 8 and still within the cap (`alone_capped`). The
proportion is rounded down before that, so a shorter side that would be less than one pixel is gone
altogether. A region is drawn exactly if this does not happen to it (`drawn_whole_iff`).
-/

namespace RegionCapture

namespace Size

/-! ## Limits -/

theorem isEmpty_eq_false_iff_shortSide {s : Size} : s.isEmpty = false ↔ 0 < s.shortSide :=
  isEmpty_eq_false_iff.trans Nat.lt_min.symm

theorem limit_of_le {s : Size} {cap : Nat} (h : s.longSide ≤ cap) : s.limit cap = s := by
  rw [limit_eq, if_pos (.inr h)]

theorem limit_of_lt {s : Size} {cap : Nat} (hc : 0 < cap) (hs : s.height ≤ s.width)
    (h : cap < s.width) : s.limit cap = ⟨cap, cap * s.height / s.width⟩ := by
  unfold limit
  rw [if_neg hc.ne', if_neg hs.not_gt, if_neg h.not_ge]

theorem limit_rotate (s : Size) (cap : Nat) : s.rotate.limit cap = (s.limit cap).rotate := by
  have hturned : s.rotate.width < s.rotate.height ↔ s.height < s.width := Iff.rfl
  rw [limit_eq, limit_eq, longSide_rotate, shortSide_rotate]
  simp only [hturned]
  split
  · rfl
  · next hcut =>
    have hlong : cap < s.longSide := Nat.lt_of_not_le fun h => hcut (.inr h)
    rcases Nat.lt_trichotomy s.width s.height with hlt | heq | hgt
    · rw [if_neg hlt.not_gt, if_pos hlt]
      rfl
    · -- both sides of a square come out at the cap, whichever counts as the longer one
      have hsides : s.shortSide = s.longSide := by simp [shortSide, longSide, heq]
      have hfull : cap * s.longSide / s.longSide = cap := Nat.mul_div_cancel _ (Nat.zero_lt_of_lt hlong)
      rw [if_neg heq.not_gt, if_neg heq.not_lt, hsides, hfull]
      rfl
    · rw [if_pos hgt, if_neg hgt.not_gt]
      rfl

theorem align_rotate (s : Size) : s.rotate.align = s.align.rotate := rfl

/-- A size keeps pixels under a cap exactly if the longer side is not so many times as long as the
shorter one as there are pixels in the cap. -/
theorem isEmpty_limit_iff {s : Size} (hs : s.isEmpty = false) (cap : Nat) :
    (s.limit cap).isEmpty = false ↔ cap = 0 ∨ s.longSide ≤ cap * s.shortSide := by
  have hshort := isEmpty_eq_false_iff_shortSide.1 hs
  have hlong := hshort.trans_le s.shortSide_le_longSide
  rw [limit_eq]
  split
  · next hkept =>
    have hle : s.longSide ≤ cap → s.longSide ≤ cap * s.shortSide := fun h =>
      h.trans (Nat.le_mul_of_pos_right cap hshort)
    exact iff_of_true hs (hkept.imp_right hle)
  · next hcut =>
    obtain ⟨hcap, -⟩ := not_or.1 hcut
    have hscaled : 0 < cap * s.shortSide / s.longSide ↔ s.longSide ≤ cap * s.shortSide := by
      rw [Nat.div_pos_iff]
      exact and_iff_right hlong
    split <;> simp only [isEmpty_eq_false_iff, hscaled, Nat.pos_of_ne_zero hcap, hcap, true_and,
      and_true, false_or]

/-! ## Rounded limits -/

/-- A whole number that misses an exact one by less than 1 downwards and by less than 8 upwards. -/
def Near (n : Nat) (q : Rat) : Prop := -1 < n - q ∧ n - q < 8

/-- A proportion that is rounded down to a whole number and then up to a multiple of 8. -/
theorem near_roundUp8_div (cap n : Nat) {b : Nat} (hb : 0 < b) :
    Near (roundUp8 (cap * n / b)) ((cap : Rat) * n / b) := by
  have hpos : (0 : Rat) < b := by exact_mod_cast hb
  rw [← Nat.cast_mul]
  generalize cap * n = a
  have hfloor : ((a / b : Nat) : Rat) ≤ a / b := Nat.cast_div_le
  have hceil : (a : Rat) / b < (a / b : Nat) + 1 := by
    rw [div_lt_iff₀ hpos, mul_comm]
    exact_mod_cast Nat.lt_mul_div_succ a hb
  have hup : ((a / b : Nat) : Rat) ≤ roundUp8 (a / b) := by exact_mod_cast le_roundUp8 _
  have hdown : (roundUp8 (a / b) : Rat) < (a / b : Nat) + 8 := by exact_mod_cast roundUp8_lt _
  exact ⟨by linarith, by linarith⟩

/-- What a cap leaves of a size, in whole multiples of 8. -/
structure Capped (s : Size) (cap : Nat) (out : Size) : Prop where
  aligned : 8 ∣ out.width ∧ 8 ∣ out.height
  within : out.width ≤ cap ∧ out.height ≤ cap
  kept : s.longSide ≤ cap → (s.width ≤ out.width ∧ out.width < s.width + 8) ∧
    s.height ≤ out.height ∧ out.height < s.height + 8
  /-- The width is the longer side, or as long as the height. -/
  wide : s.height ≤ s.width → cap < s.width →
    out.width = cap ∧ Near out.height ((cap : Rat) * s.height / s.width)
  /-- The height is the longer side, or as long as the width. -/
  high : s.width ≤ s.height → cap < s.height →
    out.height = cap ∧ Near out.width ((cap : Rat) * s.width / s.height)

theorem Capped.rotate {s out : Size} {cap : Nat} (h : Capped s cap out) :
    Capped s.rotate cap out.rotate where
  aligned := h.aligned.symm
  within := h.within.symm
  kept hle := (h.kept (by rwa [longSide_rotate] at hle)).symm
  wide := h.high
  high := h.wide

theorem capped_align {s : Size} {cap : Nat} (h8 : 8 ∣ cap) (h : s.longSide ≤ cap) :
    Capped s cap s.align := by
  obtain ⟨hw, hh⟩ := Nat.max_le.1 h
  refine ⟨Layout.eight_dvd_align s, ⟨roundUp8_le hw h8, roundUp8_le hh h8⟩, ?_, ?_, ?_⟩
  · exact fun _ => ⟨⟨le_roundUp8 _, roundUp8_lt _⟩, le_roundUp8 _, roundUp8_lt _⟩
  · exact fun _ hcut => absurd hw hcut.not_ge
  · exact fun _ hcut => absurd hh hcut.not_ge

theorem capped_of_wide {s : Size} {cap : Nat} (hc : 0 < cap) (h8 : 8 ∣ cap)
    (hs : s.height ≤ s.width) (hcut : cap < s.width) : Capped s cap (s.limit cap).align := by
  have hwidth : 0 < s.width := Nat.zero_lt_of_lt hcut
  have hnear := near_roundUp8_div cap s.height hwidth
  rw [limit_of_lt hc hs hcut, align, roundUp8_eq_self h8]
  refine ⟨⟨h8, eight_dvd_roundUp8 _⟩, ⟨Nat.le_refl _, roundUp8_le (mul_div_le_cap cap hs) h8⟩, ?_,
    fun _ _ => ⟨rfl, hnear⟩, ?_⟩
  · intro hkept
    exact absurd ((Nat.le_max_left _ _).trans hkept) hcut.not_ge
  · intro hs' _
    -- a square comes out as a square
    have hsquare : s.height = s.width := Nat.le_antisymm hs hs'
    have hfull : cap * s.width / s.width = cap := Nat.mul_div_cancel _ hwidth
    rw [hsquare, hfull, roundUp8_eq_self h8] at hnear
    rw [hsquare, hfull, roundUp8_eq_self h8]
    exact ⟨rfl, hnear⟩

theorem capped_align_limit (s : Size) {cap : Nat} (hc : 0 < cap) (h8 : 8 ∣ cap) :
    Capped s cap (s.limit cap).align := by
  rcases Nat.lt_or_ge cap s.longSide with hcut | hkept
  · rcases Nat.le_total s.height s.width with hs | hs
    · exact capped_of_wide hc h8 hs (hcut.trans_eq (Nat.max_eq_left hs))
    · -- turned on its side, a size that is higher than wide is wider than high
      have hturned : Capped s.rotate cap (s.rotate.limit cap).align :=
        capped_of_wide hc h8 hs (hcut.trans_eq (Nat.max_eq_right hs))
      rw [limit_rotate, align_rotate] at hturned
      exact hturned.rotate
  · rw [limit_of_le hkept]
    exact capped_align h8 hkept

end Size

/-! ## Layouts of one region -/

theorem roundDown8_cases (n : Nat) :
    8 ∣ roundDown8 n ∧ roundDown8 n ≤ n ∧ n < roundDown8 n + 8 := by
  unfold roundDown8
  omega

namespace Layout

variable {K : Type} [Scalar K]

/-- Under any cap, a region with pixels is drawn over the whole output exactly if the cap is none or
leaves its shorter side a pixel; otherwise there is no output, and nothing is drawn. -/
theorem drawn_whole_iff {r : RegionInput K} (hr : r.size.isEmpty = false) (cap : Nat) :
    let l := arrange (some r) none cap
    (l.combined.isEmpty = false ∧
        l.viewports = [⟨0, 0, l.combined.width, l.combined.height⟩] ↔
      cap = 0 ∨ r.size.longSide ≤ cap * r.size.shortSide) ∧
    (¬ (cap = 0 ∨ r.size.longSide ≤ cap * r.size.shortSide) →
      l.combined.isEmpty = true ∧ l.viewports = []) := by
  intro l
  have hempty : l.combined.isEmpty = (r.size.limit cap).isEmpty := Size.isEmpty_align _
  have hdrawn : l.viewports = strip l.combined 0 := viewports_single_eq r cap
  rw [← Size.isEmpty_limit_iff hr cap, ← hempty, hdrawn, Bool.not_eq_false]
  refine ⟨and_iff_left_of_imp fun h => ?_, fun h => ⟨h, ?_⟩⟩
  · simp [strip, h]
  · simp [strip, h]

/-- A region of 2 by 16 pixels. -/
def slender : RegionInput Rat := ⟨⟨2, 16⟩, Affine.identity⟩

theorem drawn_whole_iff_slender : slender.size.isEmpty = false ∧
    (arrange (some slender) none 8).combined.isEmpty = false ∧
    (arrange (some slender) none 8).viewports = [⟨0, 0, 8, 8⟩] := by
  have hfull : slender.size.isEmpty = false := rfl
  obtain ⟨hempty, hdrawn⟩ := (drawn_whole_iff hfull 8).1.2 (.inr (by decide))
  exact ⟨hfull, hempty, hdrawn⟩

/-- A region of 1 by 100 pixels is gone under a cap of 8. -/
theorem thin_region_vanishes : ¬ ∀ (r : RegionInput Rat) (cap : Nat), r.size.isEmpty = false →
    (arrange (some r) none cap).combined.isEmpty = false ∧
      (arrange (some r) none cap).viewports = [⟨0, 0, (arrange (some r) none cap).combined.width,
        (arrange (some r) none cap).combined.height⟩] := by
  intro h
  obtain ⟨hempty, -⟩ := h ⟨⟨1, 100⟩, Affine.identity⟩ 8 rfl
  exact absurd hempty (by decide)

/-- A region by itself, under a cap that is brought down to a multiple of 8: neither side of the output is
above the cap, a region within the cap is only rounded up, and one that reaches beyond it comes out in
proportion. Turned on its side, the region gives the output turned on its side. In words of 32 bits the cap
and the limited size come out the same, without a bit lost. -/
theorem alone_capped (o : Options K) (ho : 8 ≤ o.maxSize) (r : RegionInput K) :
    (8 ∣ o.cap ∧ o.cap ≤ o.maxSize ∧ o.maxSize < o.cap + 8) ∧
    r.size.Capped o.cap (arrange (some r) none o.cap).combined ∧
    (∀ r' : RegionInput K, r'.size = r.size.rotate →
      (arrange (some r') none o.cap).combined = (arrange (some r) none o.cap).combined.rotate) ∧
    (∀ n : UInt32, n.toNat = o.maxSize → (n &&& ~~~7).toNat = o.cap) ∧
    ∀ (s : WordSize) (cap : UInt32), s.LimitsExactly cap := by
  obtain ⟨h8, hle, hlt⟩ := roundDown8_cases o.maxSize
  have hpos : 0 < roundDown8 o.maxSize := by omega
  refine ⟨⟨h8, hle, hlt⟩, Size.capped_align_limit r.size hpos h8, ?_, ?_, WordSize.limits_exactly⟩
  · intro r' hr'
    show (r'.size.limit o.cap).align = ((r.size.limit o.cap).align).rotate
    rw [hr', Size.limit_rotate, Size.align_rotate]
  · intro n hn
    rw [toNat_clear_low, hn, Options.cap]

/-- A cap that is no multiple of 8. -/
def roughOptions : Options Rat := { Options.standard with maxSize := 45 }

/-- A region of 100 by 23 pixels. -/
def banner : RegionInput Rat := ⟨⟨100, 23⟩, Affine.identity⟩

theorem alone_capped_banner : 8 ≤ roughOptions.maxSize ∧ roughOptions.cap = 40 ∧
    banner.size.Capped 40 ⟨40, 16⟩ ∧
    (arrange (some ⟨⟨23, 100⟩, banner.inverse⟩) none roughOptions.cap).combined = ⟨16, 40⟩ ∧
    ((45 : UInt32) &&& ~~~7).toNat = 40 ∧ (⟨100, 23⟩ : WordSize).LimitsExactly 40 := by
  have hmax : 8 ≤ roughOptions.maxSize := by decide
  obtain ⟨-, hcapped, hturned, hword, hexact⟩ := alone_capped roughOptions hmax banner
  exact ⟨hmax, rfl, hcapped, hturned _ rfl, hword 45 rfl, hexact _ 40⟩

end Layout

end RegionCapture
