import Mathlib.Data.List.Forall2
import RegionCapture.Json.Token
import RegionCapture.Json.Writer
import RegionCapture.Proofs.Json.Numerals
/-!
# Cutting written documents into tokens

What is written in pieces is cut into tokens piece by piece, as long as no piece goes on where a word
or a number has just ended (`Scans.append`). So each literal is looked at by itself: words, numbers and
strings are one token each.
-/

namespace RegionCapture.Json

/-- The text is cut into these tokens. -/
def Scans (cs : List Char) (ts : List Token) : Prop := tokens? (cs.map some) = some ts

/-- The text does not go on with a word or a number. -/
def Delimits (cs : List Char) : Prop :=
  ∀ c, cs.head? = some c → c.isLower = false ∧ isNumeric c = false

/-! ## Pieces -/

theorem Mode.step_eq_endWith {m : Mode} (hm : m.finish ≠ none) {c : Char}
    (hc : c.isLower = false ∧ isNumeric c = false) : m.step (some c) = m.endWith c := by
  cases m with
  | between => cases hs : stepBetween c <;> simp [step, endWith, finish, hs]
  | word chars => simp [step, hc.1]
  | number chars => simp [step, hc.2]
  | string pieces => simp [finish] at hm
  | escape pieces => simp [finish] at hm
  | unit pieces missing code => simp [finish] at hm

theorem Mode.tokens?_append {m : Mode} {symbols : List Symbol} {ts : List Token}
    (h : m.tokens? symbols = some ts) {rest : List Char} {ts' : List Token} (hr : Scans rest ts')
    (hd : Delimits rest) : m.tokens? (symbols ++ rest.map some) = some (ts ++ ts') := by
  induction symbols generalizing m ts with
  | nil =>
    have hfinish : m.finish = some ts := h
    cases rest with
    | nil =>
      obtain rfl : ts' = [] := (Option.some.inj hr).symm
      simpa [tokens?] using hfinish
    | cons c rest =>
      have hstep := m.step_eq_endWith (by simp [hfinish]) (hd c rfl)
      simp only [Scans, Json.tokens?, List.map_cons, tokens?, step] at hr
      simp only [List.nil_append, List.map_cons, tokens?, hstep, endWith, hfinish]
      cases hs : stepBetween c with
      | none => simp [hs] at hr
      | some out =>
        obtain ⟨next, now⟩ := out
        simp only [hs, Option.map_eq_some_iff] at hr
        obtain ⟨later, hlater, rfl⟩ := hr
        simp [hlater]
  | cons s symbols ih =>
    simp only [tokens?, List.cons_append] at h ⊢
    cases hs : m.step s with
    | none => simp [hs] at h
    | some out =>
      obtain ⟨next, now⟩ := out
      simp only [hs, Option.map_eq_some_iff] at h
      obtain ⟨later, hlater, rfl⟩ := h
      simp [ih hlater]

namespace Scans

variable {cs rest : List Char} {ts ts' : List Token}

theorem append (h : Scans cs ts) (hr : Scans rest ts') (hd : Delimits rest) :
    Scans (cs ++ rest) (ts ++ ts') := by
  rw [Scans, List.map_append]
  exact Mode.tokens?_append h hr hd

theorem mark {c : Char} {t : Token} (hc : Mode.stepBetween c = some (.between, [t]))
    (h : Scans rest ts') : Scans (c :: rest) (t :: ts') := by
  simp only [Scans, tokens?, List.map_cons, Mode.tokens?, Mode.step, hc] at h ⊢
  simp [h]

theorem blank {c : Char} (hc : isSpace c = true) (h : Scans rest ts') : Scans (c :: rest) ts' := by
  have hstep : Mode.stepBetween c = some (.between, []) := by simp [Mode.stepBetween, hc]
  simp only [Scans, tokens?, List.map_cons, Mode.tokens?, Mode.step, hstep] at h ⊢
  simp [h]

theorem nil : Scans [] [] := rfl

end Scans

theorem delimits_cons {c : Char} (hc : c.isLower = false ∧ isNumeric c = false) (rest : List Char) :
    Delimits (c :: rest) := by
  rintro _ ⟨⟩
  exact hc

/-! ## Words and numbers -/

theorem scans_null : Scans "null".toList [.null] := rfl

theorem scans_bool (b : Bool) : Scans (scalarChars (.bool b)) [.bool b] := by
  cases b <;> rfl

theorem tokens?_number {cs gathered : List Char} (h : ∀ c ∈ cs, isNumeric c = true) :
    (Mode.number gathered).tokens? (cs.map some) =
      (Numeral.read? (gathered.reverse ++ cs)).map fun n => [.number n] := by
  induction cs generalizing gathered with
  | nil => simp [Mode.tokens?, Mode.finish]
  | cons c cs ih =>
    rw [List.forall_mem_cons] at h
    simp only [List.map_cons, Mode.tokens?, Mode.step, h.1, if_true, ih h.2]
    simp [Function.comp_def]

theorem stepBetween_of_isDigit {c : Char} (h : c.isDigit = true) :
    Mode.stepBetween c = some (.number [c], []) := by
  have hne (x : Char) (hx : x.isDigit = false) : c ≠ x := by
    rintro rfl
    simp [h] at hx
  simp [Mode.stepBetween, isSpace, h, hne ' ' rfl, hne '\n' rfl, hne '\t' rfl, hne '\r' rfl,
    hne '\x7b' rfl, hne '\x7d' rfl, hne '[' rfl, hne ']' rfl, hne ':' rfl, hne ',' rfl, hne '"' rfl]

theorem isNumeric_chars {n : Numeral} (h : n.Proper) : ∀ c ∈ n.chars, isNumeric c = true := by
  have hdigit (c : Char) (hc : c.isDigit = true) : isNumeric c = true := by
    simp [isNumeric, hc]
  intro c hc
  simp only [Numeral.chars_eq, List.mem_append] at hc
  rcases hc with hc | hc | hc | hc
  · split at hc
    · obtain rfl := List.mem_singleton.1 hc
      rfl
    · cases hc
  · exact hdigit c (h.whole.digits c hc)
  · unfold Numeral.fractionChars at hc
    split at hc
    · cases hc
    · rcases List.mem_cons.1 hc with rfl | hc
      · rfl
      · exact hdigit c (h.fraction c hc)
  · rcases he : n.exponent with _ | ⟨sign, ds⟩
    · rw [he] at hc
      cases hc
    · rw [he] at hc
      simp only [Numeral.exponentChars, List.cons_append, List.mem_cons, List.mem_append] at hc
      rcases hc with rfl | hc | hc
      · rfl
      · cases sign with
        | none => cases hc
        | plus =>
          obtain rfl := List.mem_singleton.1 hc
          rfl
        | minus =>
          obtain rfl := List.mem_singleton.1 hc
          rfl
      · exact hdigit c ((h.exponent sign ds he).2 c hc)

theorem scans_number {n : Numeral} (h : n.Proper) : Scans n.chars [.number n] := by
  obtain ⟨d, ds, hwhole, hd⟩ := h.whole.exists_cons
  -- the first character is a sign or a digit
  have hfirst : ∃ c rest, n.chars = c :: rest ∧ Mode.stepBetween c = some (.number [c], []) := by
    rw [Numeral.chars_eq, hwhole]
    cases n.negative with
    | true => exact ⟨_, _, rfl, rfl⟩
    | false => exact ⟨_, _, rfl, stepBetween_of_isDigit hd⟩
  obtain ⟨c, rest, hchars, hstep⟩ := hfirst
  have hall := isNumeric_chars h
  have hread := Numeral.read?_chars h
  rw [hchars] at hall hread ⊢
  have hrest : (Mode.number [c]).tokens? (rest.map some) = _ :=
    tokens?_number fun c hc => hall c (List.mem_cons_of_mem _ hc)
  rw [List.reverse_singleton, List.singleton_append, hread] at hrest
  simp only [Scans, tokens?, List.map_cons, Mode.tokens?, Mode.step, hstep, hrest]
  rfl

/-! ## Strings -/

/-- The piece of a literal that a character is read as. -/
inductive Stands : Piece → Char → Prop where
  | char (c : Char) : Stands (.char c) c
  | unit {c : Char} (h : c.toNat < 0x20) : Stands (.unit c.toNat) c

theorem joinPieces_unit {code : Nat} (h : code < 0x20) (ps : List Piece) :
    joinPieces (.unit code :: ps) = (joinPieces ps).map (Char.ofNat code :: ·) := by
  have hlead : isLead code = false := by simp [isLead]; omega
  have htrail : isTrail code = false := by simp [isTrail]; omega
  rcases ps with _ | ⟨p, ps⟩
  · simp [joinPieces, hlead, htrail]
  · cases p <;> simp [joinPieces, hlead, htrail]

theorem joinPieces_eq {ps : List Piece} {cs : List Char} (h : List.Forall₂ Stands ps cs) :
    joinPieces ps = some cs := by
  induction h with
  | nil => rfl
  | cons hp _ ih =>
    cases hp with
    | char c => simp [joinPieces, ih]
    | unit hc => simp [joinPieces_unit hc, ih]

theorem hexValue?_digitChar : ∀ d < 16, hexValue? (Nat.digitChar d) = some d := by decide

/-- A hexadecimal digit of a code, the last one or another. -/
theorem tokens?_hexDigit {d : Nat} (hd : d < 16) (pieces : List Piece) (missing code : Nat)
    (rest : List Symbol) :
    (Mode.unit pieces missing code).tokens? (some (Nat.digitChar d) :: rest) =
      if missing ≤ 1 then (Mode.string (.unit (16 * code + d) :: pieces)).tokens? rest
      else (Mode.unit pieces (missing - 1) (16 * code + d)).tokens? rest := by
  simp only [Mode.tokens?, Mode.step, hexValue?_digitChar d hd, Option.map_some]
  split <;> simp

/-- Inside a literal, what a character is written as is one piece. -/
theorem tokens?_quoteChar (c : Char) (gathered : List Piece) (rest : List Symbol) :
    ∃ p, Stands p c ∧ (Mode.string gathered).tokens? ((quoteChar c).map some ++ rest) =
      (Mode.string (p :: gathered)).tokens? rest := by
  unfold quoteChar
  split
  case h_8 hquote hback _ _ _ _ _ =>
    have hplain : c ≠ '"' ∧ c ≠ '\\' := ⟨hquote, hback⟩
    by_cases hc : c.toNat < 0x20
    · refine ⟨.unit c.toNat, .unit hc, ?_⟩
      have hcode : 16 * (c.toNat / 16) + c.toNat % 16 = c.toNat := by omega
      have hopen (symbols : List Symbol) :
          (Mode.string gathered).tokens? (some '\\' :: some 'u' :: symbols) =
            (Mode.unit gathered 4 0).tokens? symbols := by
        simp [Mode.tokens?, Mode.step]
      rw [if_pos hc]
      simp only [List.map_cons, List.map_nil, List.cons_append, List.nil_append, hopen]
      have hzero : '0' = Nat.digitChar 0 := rfl
      have hhigh : c.toNat / 16 < 16 := by omega
      have hlow : c.toNat % 16 < 16 := by omega
      simp only [hzero, tokens?_hexDigit, hhigh, hlow, Nat.zero_lt_succ]
      simp [hcode]
    · refine ⟨.char c, .char c, ?_⟩
      rw [if_neg hc]
      simp [Mode.tokens?, Mode.step, hc, hplain]
  all_goals exact ⟨_, .char _, by simp [Mode.tokens?, Mode.step, escaped?]⟩

theorem tokens?_quoted (cs : List Char) (gathered : List Piece) :
    ∃ ps, List.Forall₂ Stands ps cs ∧
      (Mode.string gathered).tokens? ((cs.flatMap quoteChar ++ ['"']).map some) =
        some [.string ((joinPieces (gathered.reverse ++ ps)).map String.ofList)] := by
  induction cs generalizing gathered with
  | nil => exact ⟨[], .nil, by simp [Mode.tokens?, Mode.step, Mode.finish]⟩
  | cons c cs ih =>
    obtain ⟨p, hp, hstep⟩ := tokens?_quoteChar c gathered ((cs.flatMap quoteChar ++ ['"']).map some)
    obtain ⟨ps, hps, hrest⟩ := ih (p :: gathered)
    refine ⟨p :: ps, .cons hp hps, ?_⟩
    rw [List.flatMap_cons, List.append_assoc, List.map_append, hstep, hrest, List.reverse_cons,
      List.append_assoc, List.singleton_append]

theorem scans_quote (s : String) : Scans (quote (some s)) [.string (some s)] := by
  obtain ⟨ps, hps, hquoted⟩ := tokens?_quoted s.toList []
  rw [List.reverse_nil, List.nil_append, joinPieces_eq hps, Option.map_some,
    String.ofList_toList] at hquoted
  simp only [Scans, tokens?, quote, Option.getD_some, List.cons_append, List.map_cons,
    Mode.tokens?, Mode.step]
  rw [show Mode.stepBetween '"' = some (.string [], []) from rfl]
  simpa using hquoted

end RegionCapture.Json
