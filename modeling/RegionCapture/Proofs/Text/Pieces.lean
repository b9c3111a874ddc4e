import Mathlib.Data.List.DropRight
import Mathlib.Data.List.TakeWhile
import RegionCapture.Text.Blank
/-!
# Pieces of a text

Cutting a text at separators and trimming its ends, said without scanning: pieces are those of
`List.splitOnP`, and a trimmed text is what is left between white space (`Text.trim_eq_iff`).
-/

namespace RegionCapture.Text

variable {p : Char → Bool} {c : Char} {cs : List Char}

/-! ## Cutting -/

theorem split_eq_splitOnP (p : Char → Bool) (cs : List Char) : split p cs = cs.splitOnP p := by
  induction cs with
  | nil => rfl
  | cons c cs ih =>
    rw [split_cons, List.splitOnP_cons_eq_if_modifyHead, ih]
    unfold putBefore
    split
    · rfl
    · cases hs : cs.splitOnP p with
      | nil => exact absurd hs (List.splitOnP_ne_nil p cs)
      | cons piece rest => rfl

theorem split_eq_splitOn (c : Char) (cs : List Char) : split (· == c) cs = cs.splitOn c := by
  rw [split_eq_splitOnP, List.splitOn_eq_splitOnP]

theorem split_append_cons (hc : p c = true) (cs cs' : List Char) :
    split p (cs ++ c :: cs') = split p cs ++ split p cs' := by
  simp only [split_eq_splitOnP, List.splitOnP_append_cons _ _ hc]

theorem split_eq_singleton (h : ∀ c ∈ cs, p c = false) : split p cs = [cs] := by
  rw [split_eq_splitOnP, List.splitOnP_eq_singleton h]

/-! ## Trimming -/

theorem trimEnd_append (p : Char → Bool) (cs tail : List Char) :
    trimEnd p (cs ++ tail) = if tail.all p then trimEnd p cs else cs ++ trimEnd p tail := by
  have hall : tail.all p = (tail.reverse.dropWhile p).isEmpty := by
    rw [Bool.eq_iff_iff, List.isEmpty_iff, List.dropWhile_eq_nil_iff, List.all_eq_true]
    simp
  rw [trimEnd, List.reverse_append, List.dropWhile_append, hall]
  split
  · rfl
  · simp [trimEnd]

theorem dropWhile_eq_iff {rest : List Char} : cs.dropWhile p = rest ↔
    ∃ lead, cs = lead ++ rest ∧ (∀ c ∈ lead, p c = true) ∧
      ∀ c, rest.head? = some c → p c = false := by
  constructor
  · rintro rfl
    refine ⟨cs.takeWhile p, List.takeWhile_append_dropWhile.symm, fun c => List.mem_takeWhile_imp,
      fun c hc => ?_⟩
    have hstop := List.head?_dropWhile_not p cs
    rwa [hc] at hstop
  · rintro ⟨lead, rfl, hlead, hhead⟩
    rw [List.dropWhile_append_of_pos hlead]
    cases rest with
    | nil => rfl
    | cons c rest => simp [hhead c rfl]

theorem trimEnd_eq_iff {body : List Char} : trimEnd p cs = body ↔
    ∃ tail, cs = body ++ tail ∧ (∀ c ∈ tail, p c = true) ∧
      ∀ c, body.getLast? = some c → p c = false := by
  rw [trimEnd, List.reverse_eq_iff, dropWhile_eq_iff]
  constructor
  · rintro ⟨lead, hcs, hlead, hhead⟩
    refine ⟨lead.reverse, ?_, by simpa using hlead, by simpa using hhead⟩
    rw [← cs.reverse_reverse, hcs, List.reverse_append, List.reverse_reverse]
  · rintro ⟨tail, rfl, htail, hlast⟩
    exact ⟨tail.reverse, List.reverse_append, by simpa using htail, by simpa using hlast⟩

theorem trimEnd_eq_self (h : ∀ c, cs.getLast? = some c → p c = false) : trimEnd p cs = cs :=
  trimEnd_eq_iff.2 ⟨[], (List.append_nil cs).symm, nofun, h⟩

theorem exists_trimEnd (p : Char → Bool) (cs : List Char) : ∃ tail, cs = trimEnd p cs ++ tail ∧
    (∀ c ∈ tail, p c = true) ∧ ∀ c, (trimEnd p cs).getLast? = some c → p c = false :=
  trimEnd_eq_iff.1 rfl

theorem trimEnd_eq_nil_iff : trimEnd p cs = [] ↔ cs.all p = true := by
  rw [trimEnd, List.reverse_eq_nil_iff, List.dropWhile_eq_nil_iff, List.all_eq_true]
  simp only [List.mem_reverse]

theorem mem_of_mem_trimEnd (h : c ∈ trimEnd p cs) : c ∈ cs := by
  obtain ⟨tail, hcs, -⟩ := exists_trimEnd p cs
  rw [hcs]
  exact List.mem_append_left tail h

/-- Nothing but white space. -/
def AllBlank (cs : List Char) : Prop := ∀ c ∈ cs, isBlank c = true

instance (cs : List Char) : Decidable (AllBlank cs) :=
  List.decidableBAll _ cs

/-- No white space at either end. -/
def Snug (cs : List Char) : Prop :=
  (∀ c, cs.head? = some c → isBlank c = false) ∧ ∀ c, cs.getLast? = some c → isBlank c = false

theorem trim_eq_iff {core : List Char} : trim cs = core ↔
    ∃ lead trail, cs = lead ++ core ++ trail ∧ AllBlank lead ∧ AllBlank trail ∧ Snug core := by
  rw [trim, trimEnd_eq_iff]
  constructor
  · rintro ⟨trail, hrest, htrail, hlast⟩
    obtain ⟨lead, hcs, hlead, hhead⟩ := dropWhile_eq_iff.1 hrest
    refine ⟨lead, trail, by rw [hcs, List.append_assoc], hlead, htrail, fun c hc => ?_, hlast⟩
    exact hhead c (by rw [List.head?_append, hc]; rfl)
  · rintro ⟨lead, trail, rfl, hlead, htrail, hhead, hlast⟩
    rw [List.append_assoc, List.dropWhile_append_of_pos hlead]
    cases core with
    | nil => exact ⟨[], List.dropWhile_eq_nil_iff.2 htrail, nofun, nofun⟩
    | cons c core => exact ⟨trail, by simp [hhead c rfl], htrail, hlast⟩

theorem exists_trim (cs : List Char) : ∃ lead trail, cs = lead ++ trim cs ++ trail ∧ AllBlank lead ∧
    AllBlank trail ∧ Snug (trim cs) :=
  trim_eq_iff.1 rfl

/-! ## Words -/

theorem words_append_cons (hc : isBlank c = true) (cs cs' : List Char) :
    words (cs ++ c :: cs') = words cs ++ words cs' := by
  rw [words, split_append_cons hc, List.filter_append]
  rfl

theorem words_cons (hc : isBlank c = true) (cs : List Char) : words (c :: cs) = words cs :=
  words_append_cons hc [] cs

/-- White space at the beginning of what follows keeps the words apart. -/
theorem words_append_of_head {cs' : List Char} (h : ∀ c, cs'.head? = some c → isBlank c = true) :
    words (cs ++ cs') = words cs ++ words cs' := by
  cases cs' with
  | nil => simp [words, split]
  | cons c cs' => rw [words_append_cons (h c rfl), words_cons (h c rfl)]

theorem words_append_of_last {cs' : List Char} (h : ∀ c, cs.getLast? = some c → isBlank c = true) :
    words (cs ++ cs') = words cs ++ words cs' := by
  rcases cs.eq_nil_or_concat' with rfl | ⟨cs, c, rfl⟩
  · rfl
  · have hc := h c List.getLast?_concat
    have hfirst : words (cs ++ [c]) = words cs := by
      rw [words_append_cons hc]
      exact List.append_nil _
    rw [hfirst, List.append_assoc]
    exact words_append_cons hc cs cs'

theorem words_eq_singleton (hne : cs ≠ []) (h : ∀ c ∈ cs, isBlank c = false) : words cs = [cs] := by
  rw [words, split_eq_singleton h]
  simp [hne]

theorem words_eq_nil (h : AllBlank cs) : words cs = [] := by
  induction cs with
  | nil => rfl
  | cons c cs ih =>
    rw [words_cons (h c List.mem_cons_self)]
    exact ih fun c hc => h c (List.mem_cons_of_mem _ hc)

/-- What stands behind the last white space. -/
theorem exists_last_word (cs : List Char) : ∃ before last, cs = before ++ last ∧
    (∀ c ∈ last, isBlank c = false) ∧ ∀ c, before.getLast? = some c → isBlank c = true := by
  obtain ⟨last, hcs, hsolid, hbefore⟩ := exists_trimEnd (fun c => !isBlank c) cs
  refine ⟨_, last, hcs, fun c hc => ?_, fun c hc => ?_⟩
  · simpa using hsolid c hc
  · simpa using hbefore c hc

theorem words_trim (cs : List Char) : words (trim cs) = words cs := by
  obtain ⟨lead, trail, hcs, hlead, htrail, -⟩ := exists_trim cs
  conv_rhs => rw [hcs]
  rw [words_append_of_head fun c hc => htrail c (List.mem_of_mem_head? hc),
    words_append_of_last fun c hc => hlead c (List.mem_of_getLast? hc), words_eq_nil hlead,
    words_eq_nil htrail, List.nil_append, List.append_nil]

/-- The text is these words with white space between them, and perhaps around them. -/
inductive Spaced : List (List Char) → List Char → Prop
  | nil : Spaced [] []
  | blank {c ws cs} (hc : isBlank c = true) (rest : Spaced ws cs) : Spaced ws (c :: cs)
  | word {w ws cs} (hne : w ≠ []) (solid : ∀ c ∈ w, isBlank c = false)
      (ends : ∀ c, cs.head? = some c → isBlank c = true) (rest : Spaced ws cs) :
      Spaced (w :: ws) (w ++ cs)

theorem Spaced.words_eq {ws : List (List Char)} (h : Spaced ws cs) : words cs = ws := by
  induction h with
  | nil => rfl
  | blank hc _ ih => exact (words_cons hc _).trans ih
  | word hne solid ends _ ih =>
    rw [words_append_of_head ends, ih, words_eq_singleton hne solid]
    rfl

theorem exists_spaced (cs : List Char) : ∃ ws, Spaced ws cs := by
  induction cs with
  | nil => exact ⟨[], .nil⟩
  | cons c cs ih =>
    obtain ⟨ws, hws⟩ := ih
    by_cases hc : isBlank c = true
    · exact ⟨ws, .blank hc hws⟩
    · have hsolid : ∀ d ∈ [c], isBlank d = false := by simpa using hc
      -- the character begins a word, or is put in front of the one that follows
      cases hws with
      | nil => exact ⟨[[c]], .word (List.cons_ne_nil c []) hsolid nofun .nil⟩
      | @blank d ws cs hd rest =>
        refine ⟨[c] :: ws, .word (List.cons_ne_nil c []) hsolid ?_ (.blank hd rest)⟩
        rintro _ ⟨⟩
        exact hd
      | @word w ws cs hne solid ends rest =>
        exact ⟨(c :: w) :: ws, .word (List.cons_ne_nil c w)
          (List.forall_mem_cons.2 ⟨hsolid c List.mem_cons_self, solid⟩) ends rest⟩

theorem words_eq_iff {ws : List (List Char)} : words cs = ws ↔ Spaced ws cs := by
  refine ⟨?_, Spaced.words_eq⟩
  rintro rfl
  obtain ⟨ws, hws⟩ := exists_spaced cs
  rwa [hws.words_eq]

end RegionCapture.Text
