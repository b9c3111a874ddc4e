import RegionCapture.Json.Reader
import RegionCapture.Proofs.Json.Tokens
/-!
# Documents read back

A value whose numerals are proper and whose strings are texts is read back from what is written of it,
on one line (`read?_compact`) or over several (`read?_pretty`). Both ways of writing it are cut into the
same tokens, and the reader builds the value from these.
-/

namespace RegionCapture.Json

/-- Numbers are proper, and strings and names are texts. -/
inductive Legible : Json → Prop where
  | null : Legible .null
  | bool (b : Bool) : Legible (.bool b)
  | number {n : Numeral} (h : n.Proper) : Legible (.number n)
  | text (s : String) : Legible (.string (some s))
  | array {l : List Json} (h : ∀ v ∈ l, Legible v) : Legible (.array l)
  | object {l : List (Option String × Json)} (hnames : ∀ m ∈ l, ∃ s, m.1 = some s)
    (h : ∀ m ∈ l, Legible m.2) : Legible (.object l)

/-- Parts one after the other, with a separator between two of them. -/
def separated {α β : Type} (sep : β) (part : α → List β) : List α → List β
  | [] => []
  | [a] => part a
  | a :: b :: rest => part a ++ sep :: separated sep part (b :: rest)

mutual

/-- The tokens of a value. -/
def tokens : Json → List Token
  | .null => [.null]
  | .bool b => [.bool b]
  | .number n => [.number n]
  | .string s => [.string s]
  | .array l => .arrayStart :: itemTokens l ++ [.arrayEnd]
  | .object l => .objectStart :: memberTokens l ++ [.objectEnd]

def itemTokens : List Json → List Token
  | [] => []
  | [v] => tokens v
  | v :: w :: rest => tokens v ++ .comma :: itemTokens (w :: rest)

def memberTokens : List (Option String × Json) → List Token
  | [] => []
  | [(name, v)] => .string name :: .colon :: tokens v
  | (name, v) :: m :: rest => .string name :: .colon :: tokens v ++ .comma :: memberTokens (m :: rest)

end

/-- The tokens of one member. -/
def tokensOfMember (m : Option String × Json) : List Token := .string m.1 :: .colon :: tokens m.2

/-! ## Parts -/

/-- Whatever puts the separator between two parts is the same. -/
theorem eq_separated {α β : Type} {sep : β} {part : α → List β} {write : List α → List β}
    (hnil : write [] = []) (hone : ∀ a, write [a] = part a)
    (hmore : ∀ a b rest, write (a :: b :: rest) = part a ++ sep :: write (b :: rest)) (l : List α) :
    write l = separated sep part l := by
  induction l using separated.induct with
  | case1 => exact hnil
  | case2 a => exact hone a
  | case3 a b rest ih => rw [hmore, separated, ih]

theorem itemTokens_eq (l : List Json) : itemTokens l = separated .comma tokens l :=
  eq_separated rfl (fun _ => rfl) (fun _ _ _ => rfl) l

theorem memberTokens_eq (l : List (Option String × Json)) :
    memberTokens l = separated .comma tokensOfMember l :=
  eq_separated rfl (fun _ => rfl) (fun _ _ _ => rfl) l

theorem compactItems_eq (l : List Json) : compactItems l = separated ',' compactChars l :=
  eq_separated rfl (fun _ => rfl) (fun _ _ _ => rfl) l

theorem compactMembers_eq (l : List (Option String × Json)) :
    compactMembers l = separated ',' (fun m => quote m.1 ++ ':' :: compactChars m.2) l :=
  eq_separated rfl (fun _ => rfl) (by simp [compactMembers]) l

theorem prettyItems_eq (level : Nat) (l : List Json) : prettyItems level l =
    separated ',' (fun v => newLine level ++ prettyChars level v) l :=
  eq_separated rfl (fun _ => rfl) (fun _ _ _ => rfl) l

theorem prettyMembers_eq (level : Nat) (l : List (Option String × Json)) : prettyMembers level l =
    separated ',' (fun m => newLine level ++ quote m.1 ++ ':' :: ' ' :: prettyChars level m.2) l :=
  eq_separated rfl (fun _ => rfl) (by simp [prettyMembers]) l

/-! ## What is written is cut into tokens -/

theorem scans_separated {α : Type} {part : α → List Char} {partTokens : α → List Token} {l : List α}
    (h : ∀ a ∈ l, Scans (part a) (partTokens a)) :
    Scans (separated ',' part l) (separated .comma partTokens l) := by
  induction l using separated.induct with
  | case1 => exact .nil
  | case2 a => exact h a List.mem_cons_self
  | case3 a b rest ih =>
    rw [List.forall_mem_cons] at h
    exact h.1.append (Scans.mark rfl (ih h.2)) (delimits_cons ⟨rfl, rfl⟩ _)

theorem scans_enclosed {opening : Char} {first last : Token}
    (ho : Mode.stepBetween opening = some (.between, [first])) {cs tail : List Char} {ts : List Token}
    (h : Scans cs ts) (ht : Scans tail [last]) (hd : Delimits tail) :
    Scans (opening :: cs ++ tail) (first :: ts ++ [last]) :=
  (Scans.mark ho h).append ht hd

theorem scans_newLine (level : Nat) {cs : List Char} {ts : List Token} (h : Scans cs ts) :
    Scans (newLine level ++ cs) ts := by
  have hblank (n : Nat) : Scans (List.replicate n ' ' ++ cs) ts := by
    induction n with
    | zero => exact h
    | succ n ih => exact Scans.blank rfl ih
  exact Scans.blank rfl (hblank (2 * level))

theorem scans_member {s : Option String} {cs : List Char} {ts : List Token}
    (hs : ∃ name, s = some name) (h : Scans cs ts) :
    Scans (quote s ++ ':' :: cs) (.string s :: .colon :: ts) := by
  obtain ⟨name, rfl⟩ := hs
  exact (scans_quote name).append (Scans.mark rfl h) (delimits_cons ⟨rfl, rfl⟩ _)

theorem scans_compact {v : Json} (h : Legible v) : Scans (compactChars v) (tokens v) := by
  induction h with
  | null => exact scans_null
  | bool b => exact scans_bool b
  | number h => exact scans_number h
  | text s => exact scans_quote s
  | array h ih =>
    rw [compactChars, tokens, compactItems_eq, itemTokens_eq]
    exact scans_enclosed rfl (scans_separated ih) rfl (delimits_cons ⟨rfl, rfl⟩ _)
  | object hnames h ih =>
    rw [compactChars, tokens, compactMembers_eq, memberTokens_eq]
    exact scans_enclosed rfl
      (scans_separated fun m hm => scans_member (hnames m hm) (ih m hm)) rfl
      (delimits_cons ⟨rfl, rfl⟩ _)

theorem scans_pretty {v : Json} (h : Legible v) (level : Nat) :
    Scans (prettyChars level v) (tokens v) := by
  induction h generalizing level with
  | null => exact scans_null
  | bool b => exact scans_bool b
  | number h => exact scans_number h
  | text s => exact scans_quote s
  | @array l h ih =>
    cases l with
    | nil => rfl
    | cons v rest =>
      rw [prettyChars, tokens, prettyItems_eq, itemTokens_eq, List.append_assoc]
      · exact scans_enclosed rfl
          (scans_separated fun v hv => scans_newLine (level + 1) (ih v hv (level + 1)))
          (scans_newLine level rfl) (delimits_cons ⟨rfl, rfl⟩ _)
      · simp
  | @object l hnames h ih =>
    cases l with
    | nil => rfl
    | cons m rest =>
      rw [prettyChars, tokens, prettyMembers_eq, memberTokens_eq, List.append_assoc]
      · refine scans_enclosed rfl (scans_separated fun m hm => ?_) (scans_newLine level rfl)
          (delimits_cons ⟨rfl, rfl⟩ _)
        rw [List.append_assoc]
        exact scans_newLine (level + 1)
          (scans_member (hnames m hm) (Scans.blank rfl (ih m hm (level + 1))))
      · simp

/-! ## The value is built from the tokens -/

theorem tokens_eq_cons (v : Json) : ∃ t ts, tokens v = t :: ts ∧ t ≠ .arrayEnd := by
  cases v <;> exact ⟨_, _, rfl, by simp⟩

/-- The reader reads the value back from its tokens. -/
def ReadsBack (v : Json) : Prop :=
  ∀ fuel rest, (tokens v).length ≤ fuel → readValue fuel (tokens v ++ rest) = some (v, rest)

theorem readItems_separated {l : List Json} (hne : l ≠ []) (h : ∀ v ∈ l, ReadsBack v) {fuel : Nat}
    (hf : (separated .comma tokens l).length < fuel) (rest : List Token) :
    readItems fuel (separated .comma tokens l ++ .arrayEnd :: rest) = some (l, rest) := by
  induction l using separated.induct generalizing fuel with
  | case1 => exact absurd rfl hne
  | case2 v =>
    obtain ⟨fuel, rfl⟩ := Nat.exists_eq_add_one_of_ne_zero (Nat.ne_zero_of_lt hf)
    have hv := h v List.mem_cons_self fuel (.arrayEnd :: rest) (Nat.le_of_lt_succ hf)
    simp only [separated, readItems, hv]
  | case3 v w l ih =>
    obtain ⟨fuel, rfl⟩ := Nat.exists_eq_add_one_of_ne_zero (Nat.ne_zero_of_lt hf)
    rw [List.forall_mem_cons] at h
    simp only [separated, List.length_append, List.length_cons] at hf
    have hv := h.1 fuel (.comma :: (separated .comma tokens (w :: l) ++ .arrayEnd :: rest)) (by omega)
    have hrest : readItems fuel _ = _ := ih (by simp) h.2 (by omega)
    simp only [separated, List.append_assoc, List.cons_append, readItems, hv, hrest, Option.map_some]

theorem readMembers_separated {l : List (Option String × Json)} (hne : l ≠ [])
    (h : ∀ m ∈ l, ReadsBack m.2) {fuel : Nat}
    (hf : (separated Token.comma tokensOfMember l).length < fuel)
    (rest : List Token) :
    readMembers fuel (separated .comma tokensOfMember l ++ .objectEnd :: rest) = some (l, rest) := by
  induction l using separated.induct generalizing fuel with
  | case1 => exact absurd rfl hne
  | case2 m =>
    obtain ⟨fuel, rfl⟩ := Nat.exists_eq_add_one_of_ne_zero (Nat.ne_zero_of_lt hf)
    simp only [separated, tokensOfMember, List.length_cons] at hf
    have hm := h m List.mem_cons_self fuel (.objectEnd :: rest) (by omega)
    simp only [separated, tokensOfMember, List.cons_append, readMembers, hm]
  | case3 m n l ih =>
    obtain ⟨fuel, rfl⟩ := Nat.exists_eq_add_one_of_ne_zero (Nat.ne_zero_of_lt hf)
    rw [List.forall_mem_cons] at h
    simp only [separated, tokensOfMember, List.length_append, List.length_cons] at hf
    have hm := h.1 fuel (.comma :: (separated .comma tokensOfMember (n :: l) ++ .objectEnd :: rest))
      (by omega)
    have hrest : readMembers fuel _ = _ := ih (by simp) h.2 (by omega)
    simp only [separated, tokensOfMember, List.append_assoc, List.cons_append, readMembers, hm,
      hrest, Option.map_some]

theorem readValue_arrayStart (fuel : Nat) {ts : List Token} (h : ts.head? ≠ some .arrayEnd) :
    readValue (fuel + 1) (.arrayStart :: ts) =
      (readItems fuel ts).map fun (l, rest) => (.array l, rest) := by
  cases ts with
  | nil => rfl
  | cons t ts => cases t <;> first | rfl | exact absurd rfl h

theorem readsBack_array {l : List Json} (h : ∀ v ∈ l, ReadsBack v) : ReadsBack (.array l) := by
  intro fuel rest hf
  cases fuel with
  | zero => simp [tokens] at hf
  | succ fuel =>
    cases l with
    | nil => rfl
    | cons v l =>
      rw [tokens, itemTokens_eq] at hf ⊢
      simp only [List.length_cons, List.length_append, List.length_nil] at hf
      have hlength : (separated .comma tokens (v :: l)).length < fuel := by omega
      have hitems := readItems_separated (List.cons_ne_nil v l) h hlength rest
      -- the first item does not close the array
      have hhead : (separated .comma tokens (v :: l) ++ .arrayEnd :: rest).head? ≠
          some .arrayEnd := by
        obtain ⟨t, ts, hv, ht⟩ := tokens_eq_cons v
        cases l <;> simpa [separated, hv] using ht
      simp only [List.cons_append, List.append_assoc, List.nil_append]
      rw [readValue_arrayStart fuel hhead, hitems, Option.map_some]

theorem readsBack_object {l : List (Option String × Json)} (h : ∀ m ∈ l, ReadsBack m.2) :
    ReadsBack (.object l) := by
  intro fuel rest hf
  cases fuel with
  | zero => simp [tokens] at hf
  | succ fuel =>
    cases l with
    | nil => rfl
    | cons m l =>
      rw [tokens, memberTokens_eq] at hf ⊢
      simp only [List.length_cons, List.length_append, List.length_nil] at hf
      have hlength : (separated .comma tokensOfMember (m :: l)).length < fuel := by omega
      have hmembers := readMembers_separated (List.cons_ne_nil m l) h hlength rest
      -- a name follows the opening brace
      obtain ⟨ts, hts⟩ : ∃ ts, separated .comma tokensOfMember (m :: l) = .string m.1 :: ts := by
        cases l <;> exact ⟨_, rfl⟩
      rw [hts] at hmembers ⊢
      simp only [List.cons_append, List.append_assoc, List.nil_append, readValue] at hmembers ⊢
      rw [hmembers, Option.map_some]

theorem Legible.readsBack {v : Json} (h : Legible v) : ReadsBack v := by
  induction h with
  | array h ih => exact readsBack_array ih
  | object hnames h ih => exact readsBack_object ih
  | null | bool | number | text =>
    intro fuel rest hf
    cases fuel with
    | zero => simp [tokens] at hf
    | succ fuel => rfl

/-! ## Round trips -/

theorem read?_of_scans {v : Json} {cs : List Char} (h : Legible v) (hs : Scans cs (tokens v)) :
    read? (cs.map some) = some v := by
  have hv := h.readsBack (tokens v).length [] (Nat.le_refl _)
  rw [List.append_nil] at hv
  rw [read?, hs]
  simp only [hv]

theorem read?_compact {v : Json} (h : Legible v) : read? (symbolsOfText v.compact) = some v := by
  rw [symbolsOfText, compact, String.toList_ofList]
  exact read?_of_scans h (scans_compact h)

theorem read?_pretty {v : Json} (h : Legible v) : read? (symbolsOfText v.pretty) = some v := by
  rw [symbolsOfText, pretty, String.toList_ofList]
  exact read?_of_scans h (scans_pretty h 0)

end RegionCapture.Json
