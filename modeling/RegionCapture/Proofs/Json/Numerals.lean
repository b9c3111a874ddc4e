import RegionCapture.Json.Token
/-!
# Numerals read back

A numeral that the grammar of documents has a place for (`Numeral.Proper`) is read back as it was
written (`Numeral.read?_chars`). Whole numbers are written as such numerals.
-/

namespace RegionCapture.Numeral

/-- One or more digits, the first of them no zero unless it is alone. -/
structure Leading (ds : List Char) : Prop where
  ne_nil : ds ≠ []
  digits : ∀ c ∈ ds, c.isDigit = true
  lone : ds.head? = some '0' → ds.length = 1

/-- A numeral of the grammar. -/
structure Proper (n : Numeral) : Prop where
  whole : Leading n.whole
  fraction : ∀ c ∈ n.fraction, c.isDigit = true
  exponent : ∀ sign ds, n.exponent = some (sign, ds) → ds ≠ [] ∧ ∀ c ∈ ds, c.isDigit = true

/-! ## Reading -/

theorem takeWhile_digits {ds rest : List Char} (hd : ∀ c ∈ ds, c.isDigit = true)
    (hr : ∀ c, rest.head? = some c → c.isDigit = false) :
    (ds ++ rest).takeWhile Char.isDigit = ds ∧ (ds ++ rest).dropWhile Char.isDigit = rest := by
  rw [List.takeWhile_append_of_pos hd, List.dropWhile_append_of_pos hd]
  cases rest with
  | nil => simp
  | cons c rest => simp [hr c rfl]

/-- The exponent as it is written. -/
def exponentChars : Option (ExponentSign × List Char) → List Char
  | none => []
  | some (sign, ds) => 'e' :: signChars sign ++ ds

/-- The fraction as it is written. -/
def fractionChars (ds : List Char) : List Char := if ds.isEmpty then [] else '.' :: ds

theorem chars_eq (n : Numeral) : n.chars =
    (if n.negative then ['-'] else []) ++ (n.whole ++ (fractionChars n.fraction ++
      exponentChars n.exponent)) := by
  obtain ⟨negative, whole, fraction, exponent⟩ := n
  cases exponent <;> simp only [chars, fractionChars, exponentChars, List.append_assoc]

theorem exponent?_exponentChars {e : Option (ExponentSign × List Char)}
    (h : ∀ sign ds, e = some (sign, ds) → ds ≠ [] ∧ ∀ c ∈ ds, c.isDigit = true) :
    read?.exponent? (exponentChars e) = some e := by
  rcases e with _ | ⟨sign, ds⟩
  · rfl
  obtain ⟨hne, hd⟩ := h sign ds rfl
  have hdigits : read?.digits? sign ds = some (some (sign, ds)) := by
    simp [read?.digits?, hne, List.all_eq_true.2 hd]
  cases sign with
  | plus => simpa [exponentChars, signChars, read?.exponent?] using hdigits
  | minus => simpa [exponentChars, signChars, read?.exponent?] using hdigits
  | none =>
    -- a digit is no sign
    cases ds with
    | nil => exact absurd rfl hne
    | cons d ds =>
      have hdigit : d.isDigit = true := hd d List.mem_cons_self
      have hplus : d ≠ '+' := by rintro rfl; exact absurd hdigit (by decide)
      have hminus : d ≠ '-' := by rintro rfl; exact absurd hdigit (by decide)
      simp only [exponentChars, signChars, read?.exponent?, List.cons_append, List.nil_append]
      simpa [hplus, hminus] using hdigits

theorem head?_exponentChars {e : Option (ExponentSign × List Char)} {c : Char}
    (h : (exponentChars e).head? = some c) : c = 'e' := by
  rcases e with _ | ⟨sign, ds⟩
  · cases h
  · exact (Option.some.inj h).symm

theorem Leading.exists_cons {ds : List Char} (h : Leading ds) :
    ∃ d rest, ds = d :: rest ∧ d.isDigit = true := by
  cases ds with
  | nil => exact absurd rfl h.ne_nil
  | cons d rest => exact ⟨d, rest, rfl, h.digits d List.mem_cons_self⟩

theorem unsigned_eq (negative : Bool) {ds : List Char} (h : Leading ds) (rest : List Char) :
    let cs := (if negative then ['-'] else []) ++ (ds ++ rest)
    (cs.head? = some '-' ↔ negative = true) ∧
      (if cs.head? = some '-' then cs.tail else cs) = ds ++ rest := by
  obtain ⟨d, ds, rfl, hd⟩ := h.exists_cons
  have hminus : d ≠ '-' := by rintro rfl; exact absurd hd (by decide)
  cases negative <;> simp [hminus]

theorem fraction_eq {fraction : List Char} (h : ∀ c ∈ fraction, c.isDigit = true)
    {rest : List Char} (hr : ∀ c, rest.head? = some c → c = 'e') :
    let cs := fractionChars fraction ++ rest
    (cs.head? = some '.' ↔ fraction ≠ []) ∧
      (if cs.head? = some '.' then cs.tail.takeWhile Char.isDigit else []) = fraction ∧
      (if cs.head? = some '.' then cs.tail.dropWhile Char.isDigit else cs) = rest := by
  have hnone : ∀ c, rest.head? = some c → c.isDigit = false := fun c hc => hr c hc ▸ rfl
  cases fraction with
  | nil =>
    have hpoint : rest.head? ≠ some '.' := fun hp => absurd (hr _ hp) (by decide)
    simp [fractionChars, hpoint]
  | cons d ds =>
    obtain ⟨ht, hw⟩ := takeWhile_digits h hnone
    simp only [List.cons_append] at ht hw
    simp [fractionChars, ht, hw]

theorem read?_chars {n : Numeral} (h : Proper n) : read? n.chars = some n := by
  have hmark : ∀ c, (exponentChars n.exponent).head? = some c → c = 'e' :=
    fun c => head?_exponentChars
  obtain ⟨hpoint, hfraction, hexponent⟩ := fraction_eq h.fraction hmark
  -- what follows the digits in front is a point or an exponent
  have hbreak : ∀ c, (fractionChars n.fraction ++ exponentChars n.exponent).head? = some c →
      c.isDigit = false := by
    intro c hc
    cases hf : n.fraction with
    | nil =>
      rw [hf] at hc
      exact hmark c hc ▸ rfl
    | cons d ds =>
      rw [hf] at hc
      exact Option.some.inj hc ▸ rfl
  obtain ⟨hwhole, hafter⟩ := takeWhile_digits h.whole.digits hbreak
  obtain ⟨hsign, hunsigned⟩ := unsigned_eq n.negative h.whole
    (fractionChars n.fraction ++ exponentChars n.exponent)
  have hlone : (n.whole.isEmpty || (n.whole.head? = some '0' && 1 < n.whole.length)) = false := by
    have hone := h.whole.lone
    have hne := h.whole.ne_nil
    simp_all
  rw [chars_eq, read?]
  simp only [hunsigned]
  simp only [hwhole, hafter]
  simp only [hfraction, hexponent, hlone, exponent?_exponentChars h.exponent]
  simp only [hpoint, hsign]
  cases hf : n.fraction <;> simp [← hf]

/-! ## Whole numbers -/

/-- A positive number does not begin with a zero. -/
theorem head?_toDigits {n : Nat} (h : 0 < n) : (Nat.toDigits 10 n).head? ≠ some '0' := by
  induction n using Nat.strongRecOn with
  | _ n ih =>
    rw [Nat.toDigits_eq_if (by decide)]
    split
    · simpa using Nat.ne_of_gt h
    · have hrest := ih (n / 10) (by omega) (by omega)
      cases hd : Nat.toDigits 10 (n / 10) with
      | nil => exact absurd hd Nat.toDigits_ne_nil
      | cons d ds => rwa [hd] at hrest

theorem leading_toDigits (n : Nat) : Leading (Nat.toDigits 10 n) where
  ne_nil := Nat.toDigits_ne_nil
  digits c hc := Nat.isDigit_of_mem_toDigits (by decide) (by decide) hc
  lone h := by
    have hn : n = 0 := Nat.eq_zero_of_not_pos fun hpos => head?_toDigits hpos h
    rw [hn]
    rfl

theorem proper_ofNat (n : Nat) : Proper (ofNat n) :=
  ⟨leading_toDigits n, nofun, nofun⟩

theorem proper_ofInt (n : Int) : Proper (ofInt n) :=
  ⟨leading_toDigits n.natAbs, nofun, nofun⟩

theorem value_toDigits (n : Nat) : value (Nat.toDigits 10 n) = n := Nat.ofDigitChars_ten_toDigits

end RegionCapture.Numeral
