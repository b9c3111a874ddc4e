import RegionCapture.Fault
import RegionCapture.Proofs.Json.Decoding
import RegionCapture.Text.Blank
import RegionCapture.Text.Numeral
/-!
# Whole numbers in text

The signed numbers of 32 bits are read from exactly their numerals (`Text.readInt32_eq_ok_iff`): digits
with or without a sign, with as many leading zeros as one likes. How a number is printed is one of them.
-/

namespace RegionCapture.Text

/-- One or more decimal digits. -/
def Digits (cs : List Char) : Prop := cs ≠ [] ∧ ∀ c ∈ cs, c.isDigit = true

instance (cs : List Char) : Decidable (Digits cs) :=
  @instDecidableAnd _ _ inferInstance (List.decidableBAll _ cs)

/-- The text is a decimal numeral of the number. -/
inductive Spells : List Char → Int → Prop
  | bare {ds} (digits : Digits ds) : Spells ds (Numeral.value ds)
  | plus {ds} (digits : Digits ds) : Spells ('+' :: ds) (Numeral.value ds)
  | minus {ds} (digits : Digits ds) : Spells ('-' :: ds) (-Numeral.value ds)

theorem le_ofDigitChars (n : Nat) (cs : List Char) : n ≤ Nat.ofDigitChars 10 cs n := by
  rw [Nat.ofDigitChars_eq_ofDigitChars_zero]
  have hpos : n * 1 ≤ n * 10 ^ cs.length := Nat.mul_le_mul_left n (Nat.pow_pos (by decide))
  rw [Nat.mul_comm (10 ^ cs.length)]
  omega

/-- Digits are appended one by one, and the bound is looked at every time. As numbers only grow, it is
enough to look at it in the end. -/
theorem appendDigits_eq_ok_iff {largest n m : Nat} {cs : List Char} (h : n ≤ largest) :
    appendDigits largest n cs = .ok m ↔
      (∀ c ∈ cs, c.isDigit = true) ∧ m = Nat.ofDigitChars 10 cs n ∧ m ≤ largest := by
  induction cs generalizing n with
  | nil =>
    rw [appendDigits, Nat.ofDigitChars_nil]
    constructor
    · rintro ⟨⟩
      exact ⟨nofun, rfl, h⟩
    · rintro ⟨-, rfl, -⟩
      rfl
  | cons c cs ih =>
    rw [appendDigits, List.forall_mem_cons, Nat.ofDigitChars_cons, ← digitValue]
    by_cases hc : c.isDigit = true
    · by_cases hlarge : largest < 10 * n + digitValue c
      · have hgrown := le_ofDigitChars (10 * n + digitValue c) cs
        simp only [hc, hlarge, Bool.not_true, Bool.false_eq_true, if_false, if_true, reduceCtorEq,
          false_iff]
        omega
      · simp [hc, hlarge, ih (Nat.not_lt.1 hlarge)]
    · simp [hc]

theorem readDigits_eq_ok_iff {largest n : Nat} {cs : List Char} :
    readDigits largest cs = .ok n ↔ Digits cs ∧ n = Numeral.value cs ∧ n ≤ largest := by
  unfold readDigits Digits
  cases cs with
  | nil => simp
  | cons c cs =>
    simp only [List.isEmpty_cons, Bool.false_eq_true, if_false,
      appendDigits_eq_ok_iff (Nat.zero_le largest)]
    simp [Numeral.value]

theorem Digits.ne_sign {c : Char} {cs : List Char} (h : Digits (c :: cs)) : c ≠ '-' ∧ c ≠ '+' := by
  have hdigit := h.2 c List.mem_cons_self
  constructor <;> rintro rfl <;> exact absurd hdigit (by decide)

theorem spells_minus_iff {cs : List Char} {n : Int} :
    Spells ('-' :: cs) n ↔ Digits cs ∧ n = -Numeral.value cs := by
  constructor
  · generalize hcs : '-' :: cs = cs'
    rintro (hd | _ | hd)
    · exact absurd rfl (hcs ▸ hd).ne_sign.1
    · cases hcs
    · cases hcs
      exact ⟨hd, rfl⟩
  · rintro ⟨hd, rfl⟩
    exact .minus hd

theorem spells_plus_iff {cs : List Char} {n : Int} :
    Spells ('+' :: cs) n ↔ Digits cs ∧ n = Numeral.value cs := by
  constructor
  · generalize hcs : '+' :: cs = cs'
    rintro (hd | hd | _)
    · exact absurd rfl (hcs ▸ hd).ne_sign.2
    · cases hcs
      exact ⟨hd, rfl⟩
    · cases hcs
  · rintro ⟨hd, rfl⟩
    exact .plus hd

theorem spells_unsigned_iff {cs : List Char} {n : Int} (hminus : cs.head? ≠ some '-')
    (hplus : cs.head? ≠ some '+') : Spells cs n ↔ Digits cs ∧ n = Numeral.value cs := by
  constructor
  · rintro (hd | hd | hd)
    · exact ⟨hd, rfl⟩
    · exact absurd rfl hplus
    · exact absurd rfl hminus
  · rintro ⟨hd, rfl⟩
    exact .bare hd

theorem map_readDigits_eq_ok_iff {largest : Nat} {cs : List Char} {n : Int} (f : Int → Int) :
    ((readDigits largest cs >>= fun m => pure (m : Int)).map f) = .ok n ↔
      ∃ m : Nat, (Digits cs ∧ m = Numeral.value cs ∧ m ≤ largest) ∧ f m = n := by
  simp only [map_eq_ok, bind_eq_ok, readDigits_eq_ok_iff]
  constructor
  · rintro ⟨_, ⟨m, hm, ⟨⟩⟩, rfl⟩
    exact ⟨m, hm, rfl⟩
  · rintro ⟨m, hm, rfl⟩
    exact ⟨m, ⟨m, hm, rfl⟩, rfl⟩

theorem unsigned_bounds_iff {cs : List Char} {n : Int} :
    (∃ m : Nat, (Digits cs ∧ m = Numeral.value cs ∧ m ≤ maxInt32) ∧ (m : Int) = n) ↔
      (Digits cs ∧ n = Numeral.value cs) ∧ Json.IsInt32 n := by
  unfold Json.IsInt32
  constructor
  · rintro ⟨m, ⟨hd, rfl, hm⟩, rfl⟩
    exact ⟨⟨hd, rfl⟩, by omega, by omega⟩
  · rintro ⟨⟨hd, rfl⟩, -, hn⟩
    exact ⟨_, ⟨hd, rfl, by omega⟩, rfl⟩

theorem minus_bounds_iff {cs : List Char} {n : Int} :
    (∃ m : Nat, (Digits cs ∧ m = Numeral.value cs ∧ m ≤ maxInt32 + 1) ∧ -(m : Int) = n) ↔
      (Digits cs ∧ n = -Numeral.value cs) ∧ Json.IsInt32 n := by
  unfold Json.IsInt32
  constructor
  · rintro ⟨m, ⟨hd, rfl, hm⟩, rfl⟩
    exact ⟨⟨hd, rfl⟩, by omega, by omega⟩
  · rintro ⟨⟨hd, rfl⟩, hn, -⟩
    exact ⟨_, ⟨hd, rfl, by omega⟩, rfl⟩

/-- Numbers of 32 bits are read from their numerals and from nothing else. -/
theorem readInt32_eq_ok_iff {cs : List Char} {n : Int} :
    readInt32 cs = .ok n ↔ Spells cs n ∧ Json.IsInt32 n := by
  unfold readInt32
  split
  · have hempty : ¬ Spells [] n := by
      rw [spells_unsigned_iff (by simp) (by simp)]
      exact fun h => h.1.1 rfl
    simp [hempty]
  · rw [map_readDigits_eq_ok_iff (fun m => -m), minus_bounds_iff, spells_minus_iff]
  · rw [map_readDigits_eq_ok_iff fun m => m, unsigned_bounds_iff, spells_plus_iff]
  · next hminus hplus =>
    have hnone {sign : Char} (h : ∀ rest, cs ≠ sign :: rest) : cs.head? ≠ some sign := by
      rintro hhead
      obtain ⟨rest, hrest⟩ := List.head?_eq_some_iff.1 hhead
      exact h rest hrest
    rw [map_readDigits_eq_ok_iff fun m => m, unsigned_bounds_iff,
      spells_unsigned_iff (hnone hminus) (hnone hplus)]

/-! ## Writing -/

theorem Spells.mem {cs : List Char} {n : Int} (h : Spells cs n) {c : Char} (hc : c ∈ cs) :
    c.isDigit = true ∨ c = '+' ∨ c = '-' := by
  cases h with
  | bare digits => exact .inl (digits.2 c hc)
  | plus digits => exact (List.mem_cons.1 hc).elim (fun h => .inr (.inl h)) fun h => .inl (digits.2 c h)
  | minus digits => exact (List.mem_cons.1 hc).elim (fun h => .inr (.inr h)) fun h => .inl (digits.2 c h)

theorem Spells.not_isBlank {cs : List Char} {n : Int} (h : Spells cs n) {c : Char} (hc : c ∈ cs) :
    isBlank c = false := by
  rcases h.mem hc with hdigit | rfl | rfl
  · obtain ⟨hlow, hhigh⟩ := Char.isDigit_iff_toNat.1 hdigit
    have hzero : '0'.toNat = 48 := rfl
    have hnine : '9'.toNat = 57 := rfl
    simp [isBlank, blankRanges]
    omega
  · rfl
  · rfl

theorem spells_toString (n : Int) : Spells (toString n).toList n := by
  have hdigits (m : Nat) : Digits (Nat.toDigits 10 m) :=
    ⟨Nat.toDigits_ne_nil, (Numeral.leading_toDigits m).digits⟩
  rw [Int.toString_eq_repr, Int.repr_eq_if]
  split
  · have hspells := Spells.bare (hdigits n.toNat)
    have hvalue : (n.toNat : Int) = n := by omega
    rw [Numeral.value_toDigits, hvalue] at hspells
    rwa [Nat.toList_repr]
  · have hspells := Spells.minus (hdigits (-n).toNat)
    have hvalue : -((-n).toNat : Int) = n := by omega
    rw [Numeral.value_toDigits, hvalue] at hspells
    simpa [String.toList_append] using hspells

end RegionCapture.Text
