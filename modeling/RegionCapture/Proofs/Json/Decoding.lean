import Mathlib.Data.List.Perm.Subperm
import RegionCapture.Json.Decode
import RegionCapture.Json.Double
import RegionCapture.Proofs.Decimal.Numerals
import RegionCapture.Proofs.Json.Reading
/-!
# Values taken out of documents

Whole numbers in range, doubles and names are what is read from the values written for them. The members
of a record are found by their names, in whatever order they stand.
-/

namespace RegionCapture.Json

/-! ## Leaves -/

theorem legible_nat (n : Nat) : Legible (nat n) := .number (Numeral.proper_ofNat n)

theorem legible_int (n : Int) : Legible (int n) := .number (Numeral.proper_ofInt n)

theorem legible_double (x : Float) : Legible (double x) := by
  unfold double
  split
  · exact .number (Decimal.document.proper_numeral x)
  · exact .null

theorem legible_record {members : List (String × Json)} (h : ∀ m ∈ members, Legible m.2) :
    Legible (record members) := by
  refine .object (fun m hm => ?_) fun m hm => ?_
  · obtain ⟨member, -, rfl⟩ := List.mem_map.1 hm
    exact ⟨member.1, rfl⟩
  · obtain ⟨member, hmember, rfl⟩ := List.mem_map.1 hm
    exact h member hmember

theorem nat?_nat {largest n : Nat} (h : n ≤ largest) : (nat n).nat? largest = some n := by
  simp [nat?, nat, Numeral.ofNat, Numeral.isWhole, Numeral.value_toDigits, h]

/-- A number of the signed 32-bit range. -/
def IsInt32 (n : Int) : Prop := -(Text.maxInt32 : Int) - 1 ≤ n ∧ n ≤ Text.maxInt32

instance (n : Int) : Decidable (IsInt32 n) := inferInstanceAs (Decidable (_ ∧ _))

theorem int32?_int {n : Int} (h : IsInt32 n) : (int n).int32? = some n := by
  obtain ⟨hlow, hhigh⟩ := h
  simp only [int32?, int, Numeral.ofInt, Numeral.isWhole, Numeral.value_toDigits, List.isEmpty_nil,
    Option.isNone_none, Bool.and_self, Bool.not_true, Bool.false_eq_true, if_false]
  by_cases hn : n < 0
  · have hzero : n.natAbs ≠ 0 := by omega
    have hbound : ¬ Text.maxInt32 + 1 < n.natAbs := by omega
    have hvalue : -(n.natAbs : Int) = n := by omega
    simp only [hn, hzero, hbound, hvalue, decide_true, decide_false, Bool.or_self, if_true,
      Bool.false_eq_true, if_false]
  · have hbound : ¬ Text.maxInt32 < n.natAbs := by omega
    have hvalue : (n.natAbs : Int) = n := by omega
    simp only [hn, hbound, hvalue, decide_false, Bool.false_eq_true, if_false]

theorem named?_text {α : Type} (ofName? : String → Option α) (name : String) :
    (text name).named? ofName? = ofName? name := rfl

/-- A double that is read back from its text. -/
def Faithful (x : Float) : Prop := (read? (symbolsOfText (double x).compact)).bind double? = some x

theorem faithful_iff {x : Float} : Faithful x ↔ (double x).double? = some x := by
  rw [Faithful, read?_compact (legible_double x), Option.bind_some]

/-! ## Records -/

theorem filter_name_eq_nil {members : List (String × Json)} {name : String}
    (h : name ∉ members.map Prod.fst) : members.filter (·.1 = name) = [] := by
  rw [List.filter_eq_nil_iff]
  intro m hm he
  exact h (List.mem_map.2 ⟨m, hm, by simpa using he⟩)

theorem member?_of_not_mem {members : List (String × Json)} {name : String}
    (h : name ∉ members.map Prod.fst) : member? members name = some none := by
  rw [member?, filter_name_eq_nil h]

theorem member?_of_mem {members : List (String × Json)} (hn : (members.map Prod.fst).Nodup)
    {name : String} {v : Json} (h : (name, v) ∈ members) :
    member? members name = some (some v) := by
  have hfilter : members.filter (·.1 = name) = [(name, v)] := by
    induction members with
    | nil => cases h
    | cons m members ih =>
      rw [List.map_cons, List.nodup_cons] at hn
      rcases List.mem_cons.1 h with rfl | hm
      · rw [List.filter_cons_of_pos (by simp), filter_name_eq_nil hn.1]
      · have hne : m.1 ≠ name := by
          rintro rfl
          exact hn.1 (List.mem_map.2 ⟨(m.1, v), hm, rfl⟩)
        rw [List.filter_cons_of_neg (by simpa using hne), ih hn.2 hm]
  rw [member?, hfilter]

theorem fields?_record (names : List String) (members : List (String × Json)) :
    fields? names (record members) = names.mapM (member? members) := by
  have htexts : (members.map fun m => (some m.1, m.2)).mapM
      (fun m : Option String × Json => m.1.map fun name => (name, m.2)) = some members := by
    induction members with
    | nil => rfl
    | cons m members ih => simp [List.mapM_cons, ih]
  exact congrArg (Option.bind · fun texts => names.mapM (member? texts)) htexts

/-- A complete record gives its values, in the order of its fields. -/
theorem allFields?_record (members : List (String × Json)) (hn : (members.map Prod.fst).Nodup) :
    allFields? (members.map Prod.fst) (record members) = some (members.map Prod.snd) := by
  have hfound (l : List (String × Json)) (hl : l ⊆ members) :
      (l.map Prod.fst).mapM (member? members) = some (l.map fun m => some m.2) := by
    induction l with
    | nil => rfl
    | cons m l ih =>
      rw [List.cons_subset] at hl
      simp [List.mapM_cons, member?_of_mem hn hl.1, ih hl.2]
  have hvalues (l : List Json) : (l.map some).mapM id = some l := by
    induction l with
    | nil => rfl
    | cons v l ih => simp [List.mapM_cons, ih]
  have hvalues := hvalues (members.map Prod.snd)
  rw [List.map_map] at hvalues
  rw [allFields?, fields?_record, hfound members (List.Subset.refl _)]
  exact hvalues

end RegionCapture.Json
