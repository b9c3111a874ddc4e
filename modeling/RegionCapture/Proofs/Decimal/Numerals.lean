import RegionCapture.Decimal.Style
import RegionCapture.Proofs.Json.Numerals
/-!
# Doubles as numerals

Whatever the style, a double is laid out as a numeral that the grammar of documents has a place for
(`Decimal.Style.proper_numeral`). For that its shortest decimal may not begin with a zero, so it may
not be zero itself.
-/

namespace RegionCapture.Decimal

/-! ## Shortest decimals are not zero -/

/-- Zero lies below all reals that round to a positive number. -/
theorem readsBack_zero {x : Binary} (h : x.mantissa ≠ 0) (k : Int) : readsBack x ⟨0, k⟩ = false := by
  have hbelow (low : Nat) (hlow : low ≠ 0) : compareScaled 0 k low (x.exp - 2) = .lt := by
    have hpos : 0 < (low * Nat.pow 10 (-k).toNat) <<< (x.exp - 2).toNat := by
      rw [Nat.shiftLeft_eq]
      exact Nat.mul_pos (Nat.mul_pos (Nat.pos_of_ne_zero hlow) (Nat.pow_pos (by decide)))
        (Nat.pow_pos (by decide))
    rw [compareScaled, Nat.zero_mul, Nat.zero_shiftLeft]
    exact Nat.compare_eq_lt.2 hpos
  have hlow : (if x.closeBelow then 4 * x.mantissa - 1 else 4 * x.mantissa - 2) ≠ 0 := by
    split <;> omega
  simp [readsBack, hbelow _ hlow]

theorem readsBack_of_onGrid {tie : Tie} {x : Binary} {k : Int} {d : Decimal}
    (h : onGrid tie x k = some d) : readsBack x d = true := by
  simp only [onGrid] at h
  split at h
  · cases h
  · next hbelow _ =>
    obtain rfl := Option.some.inj h
    exact hbelow
  · next habove =>
    obtain rfl := Option.some.inj h
    exact habove
  · next hbelow habove =>
    -- whichever is nearer, both read back
    split at h
    · obtain rfl := Option.some.inj h
      exact hbelow
    · obtain rfl := Option.some.inj h
      exact habove
    · cases tie with
      | up =>
        obtain rfl := Option.some.inj h
        exact habove
      | even =>
        obtain rfl := Option.some.inj h
        split
        · exact hbelow
        · exact habove

theorem digits_exact {x : Binary} (h : x.mantissa ≠ 0) : (exact x).digits ≠ 0 := by
  have hpos : 0 < (exact x).digits := by
    rw [exact, Nat.shiftLeft_eq]
    exact Nat.mul_pos (Nat.mul_pos (Nat.pos_of_ne_zero h) (Nat.pow_pos (by decide)))
      (Nat.pow_pos (by decide))
  exact Nat.ne_of_gt hpos

theorem digits_strip {d : Decimal} (h : d.digits ≠ 0) (fuel : Nat) : (strip fuel d).digits ≠ 0 := by
  induction fuel generalizing d with
  | zero => exact h
  | succ fuel ih =>
    rw [strip]
    split
    · exact ih (by dsimp only; omega)
    · exact h

theorem digits_shortest (tie : Tie) {x : Binary} (h : x.mantissa ≠ 0) :
    (shortest tie x).digits ≠ 0 := by
  refine digits_strip ?_ _
  cases hf : (List.range 17).findSome? fun (i : Nat) => onGrid tie x (scale x - 1 - i) with
  | none => exact digits_exact h
  | some d =>
    obtain ⟨i, -, hi⟩ := List.exists_of_findSome?_eq_some hf
    rintro hzero
    obtain ⟨digits, exp⟩ := d
    obtain rfl : digits = 0 := hzero
    simpa [readsBack_zero h] using readsBack_of_onGrid hi

/-! ## Layouts -/

open Numeral

variable {digits : List Char}

theorem isDigit_replicate {n : Nat} : ∀ c ∈ List.replicate n '0', c.isDigit = true := by
  intro c hc
  rw [List.eq_of_mem_replicate hc]
  rfl

theorem proper_layoutPositional (style : Style) (negative : Bool) (hd : Leading digits)
    (hfirst : digits.head? ≠ some '0') (magnitude : Int) :
    Proper (layoutPositional style negative digits magnitude) where
  whole := by
    simp only [layoutPositional]
    split
    · exact ⟨List.cons_ne_nil _ _, by simp, fun _ => rfl⟩
    · obtain ⟨d, ds, rfl, -⟩ := hd.exists_cons
      refine ⟨by simp, fun c hc => ?_, fun hlead => absurd hlead hfirst⟩
      rcases List.mem_append.1 hc with hc | hc
      · exact hd.digits c (List.mem_of_mem_take hc)
      · exact isDigit_replicate c hc
  fraction := by
    have hfraction : ∀ c ∈ (if magnitude < 0 then
        List.replicate (-magnitude - 1).toNat '0' ++ digits
        else digits.drop (magnitude.toNat + 1)), c.isDigit = true := by
      intro c hc
      split at hc
      · rcases List.mem_append.1 hc with hc | hc
        · exact isDigit_replicate c hc
        · exact hd.digits c hc
      · exact hd.digits c (List.mem_of_mem_drop hc)
    simp only [layoutPositional]
    generalize (if magnitude < 0 then _ else digits.drop _) = fraction at hfraction ⊢
    split
    · simp
    · exact hfraction
  exponent := nofun

theorem proper_layoutExponent (style : Style) (negative : Bool) (hd : Leading digits)
    (magnitude : Int) : Proper (layoutExponent style negative digits magnitude) where
  whole := by
    obtain ⟨d, ds, rfl, hdigit⟩ := hd.exists_cons
    exact ⟨List.cons_ne_nil _ _, by simpa [layoutExponent] using hdigit, fun _ => rfl⟩
  fraction := fun c hc => hd.digits c (List.mem_of_mem_drop hc)
  exponent := by
    rintro sign ds ⟨⟩
    exact ⟨Nat.toDigits_ne_nil, (leading_toDigits _).digits⟩

/-- Every double is laid out as a proper numeral. -/
theorem Style.proper_numeral (style : Style) (x : Float) : Proper (style.numeral x) := by
  simp only [Style.numeral]
  split
  · -- zero is the only number that begins with a zero
    refine ⟨⟨by simp [layoutPositional], by simp [layoutPositional], fun _ => rfl⟩, ?_, nofun⟩
    simp only [layoutPositional]
    split <;> simp
  · next hx =>
    have hdigits := digits_shortest style.tie hx
    have hlead := leading_toDigits (shortest style.tie (Binary.ofBits x.toBits)).digits
    have hfirst := head?_toDigits (Nat.pos_of_ne_zero hdigits)
    split
    · exact proper_layoutPositional _ _ hlead hfirst _
    · split
      · exact proper_layoutPositional _ _ hlead hfirst _
      · exact proper_layoutExponent _ _ hlead _

end RegionCapture.Decimal
