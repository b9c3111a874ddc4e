import Mathlib.Logic.Relation
import RegionCapture.Program
import RegionCapture.Proofs.Text.Pieces
/-!
# Where the inputs of a program are

Making a program finds all inputs that are required, or says which of them is the first that no line
declares (`Program.locations_resolved`). What it finds depends on the declarations alone: not on other
lines, not on how lines end, not on how their words are spaced.
-/

namespace RegionCapture

/-- The inputs of a sort and their locations. Every sort has numbers of its own. -/
def Locations.listed (l : Locations) : InputSort → List (String × Nat)
  | .attribute => l.attributes
  | .uniform => l.uniforms

namespace Program

open Text

/-! ## Declarations -/

/-- Words without the semicolons that the last of them ends in. -/
def shed : List (List Char) → List (List Char)
  | [] => []
  | [last] => if last.all (· == ';') then [] else [trimEnd (· == ';') last]
  | word :: next :: more => word :: shed (next :: more)

/-- The line declares the name: its words are the keyword, a type and the name, whatever follows. -/
def Declares (sort : InputSort) (line : List Char) (name : String) : Prop :=
  ∃ ws type rest, Spaced ws line ∧ shed ws = sort.keyword.toList :: type :: name.toList :: rest

/-- Some line of the text declares the name. -/
def Declared (sort : InputSort) (text name : String) : Prop :=
  ∃ line ∈ text.toList.splitOn '\n', Declares sort line name

theorem shed_append_singleton (ws : List (List Char)) (last : List Char) :
    shed (ws ++ [last]) = ws ++ shed [last] := by
  induction ws with
  | nil => rfl
  | cons word ws ih =>
    cases ws with
    | nil => rfl
    | cons next ws => exact congrArg (word :: ·) ih

theorem words_trimEnd_semicolon {cs : List Char} (h : ∀ c, cs.getLast? = some c → isBlank c = false) :
    words (trimEnd (· == ';') cs) = shed (words cs) := by
  obtain ⟨before, last, rfl, hsolid, hbefore⟩ := exists_last_word cs
  by_cases hlast : last = []
  · -- there is white space at the end, or nothing at all
    rw [hlast, List.append_nil] at h ⊢
    rcases before.eq_nil_or_concat' with rfl | ⟨before, c, rfl⟩
    · rfl
    · have hblank := hbefore c List.getLast?_concat
      rw [h c List.getLast?_concat] at hblank
      cases hblank
  · rw [words_append_of_last hbefore, words_eq_singleton hlast hsolid, shed_append_singleton,
      trimEnd_append, shed]
    split
    · have hself : trimEnd (· == ';') before = before := by
        refine trimEnd_eq_self fun c hc => ?_
        have hblank := hbefore c hc
        rw [beq_eq_false_iff_ne]
        rintro rfl
        cases hblank
      rw [hself, List.append_nil]
    · next hall =>
      rw [words_append_of_last hbefore, words_eq_singleton (mt trimEnd_eq_nil_iff.1 hall)]
      exact fun c hc => hsolid c (mem_of_mem_trimEnd hc)

theorem words_statement (line : List Char) :
    words (trimEnd (· == ';') (trim line)) = shed (words line) := by
  obtain ⟨_, _, -, -, -, hsnug⟩ := exists_trim line
  rw [words_trimEnd_semicolon hsnug.2, words_trim]

theorem declaredIn_eq_some_iff {sort : InputSort} {line : List Char} {name : String} :
    declaredIn sort line = some name ↔ Declares sort line name := by
  unfold declaredIn Declares
  simp only [words_statement, ← words_eq_iff, exists_and_left, exists_eq_left']
  constructor
  · split
    · next keyword type name' rest hwords =>
      split
      · next hkeyword =>
        rintro ⟨⟩
        exact ⟨type, rest, by rw [hwords, hkeyword, String.toList_ofList]⟩
      · exact nofun
    · exact nofun
  · rintro ⟨type, rest, hwords⟩
    simp [hwords]

theorem declaredIn_eq_none_iff {sort : InputSort} {line : List Char} :
    declaredIn sort line = none ↔ ∀ name, ¬ Declares sort line name := by
  simp only [← declaredIn_eq_some_iff, Option.eq_none_iff_forall_ne_some, ne_eq]

/-- A line declares what its words say, however they are spaced. -/
theorem declaredIn_congr (sort : InputSort) {line line' : List Char} (h : words line = words line') :
    declaredIn sort line = declaredIn sort line' := by
  unfold declaredIn
  rw [words_statement, words_statement, h]

theorem mem_declared_iff {sort : InputSort} {text name : String} :
    name ∈ declared sort text ↔ Declared sort text name := by
  simp only [declared, lines, split_eq_splitOn, List.mem_filterMap, declaredIn_eq_some_iff, Declared]

/-! ## Numbering -/

theorem foldl_add_eq (names more : List String) : ∃ added,
    more.foldl (fun names name => if names.contains name then names else names ++ [name]) names =
      names ++ added ∧ ∀ name, name ∈ names ++ added ↔ name ∈ names ∨ name ∈ more := by
  induction more generalizing names with
  | nil => exact ⟨[], by simp, by simp⟩
  | cons first more ih =>
    rw [List.foldl_cons]
    by_cases hfirst : first ∈ names
    · obtain ⟨added, hadded, hmem⟩ := ih names
      refine ⟨added, ?_, fun name => ?_⟩
      · rwa [if_pos (List.contains_iff_mem.2 hfirst)]
      · rw [hmem, List.mem_cons]
        grind
    · obtain ⟨added, hadded, hmem⟩ := ih (names ++ [first])
      refine ⟨first :: added, ?_, fun name => ?_⟩
      · rw [if_neg (mt List.contains_iff_mem.1 hfirst), hadded, List.append_assoc]
        rfl
      · rw [List.append_cons, hmem]
        simp [or_assoc]

theorem declaredUniforms_eq (p : Program) : ∃ added,
    p.declaredUniforms = declared .uniform p.vertexGlsl ++ added ∧
      ∀ name, name ∈ p.declaredUniforms ↔
        Declared .uniform p.vertexGlsl name ∨ Declared .uniform p.fragmentGlsl name := by
  obtain ⟨added, hadded, hmem⟩ :=
    foldl_add_eq (declared .uniform p.vertexGlsl) (declared .uniform p.fragmentGlsl)
  refine ⟨added, hadded, fun name => ?_⟩
  rw [← mem_declared_iff, ← mem_declared_iff, ← hmem, ← hadded]
  rfl

theorem locate_of_mem {label name : String} {sort : InputSort} {names : List String} (h : name ∈ names) :
    locate label sort names name = .ok (name, names.idxOf name) := by
  unfold locate
  cases hi : names.idxOf? name with
  | none => exact absurd h (List.idxOf?_eq_none_iff.1 hi)
  | some i => rw [List.idxOf_eq_getD_idxOf?, hi, Option.getD_some]

theorem locate_of_not_mem {label name : String} {sort : InputSort} {names : List String}
    (h : name ∉ names) : locate label sort names name = .error (.missingInput label name sort) := by
  unfold locate
  rw [List.idxOf?_eq_none_iff.2 h]

theorem mapM_locate (label : String) (sort : InputSort) (names required : List String) :
    required.mapM (locate label sort names) =
      match required.find? (· ∉ names) with
      | some name => .error (.missingInput label name sort)
      | none => .ok (required.map fun name => (name, names.idxOf name)) := by
  induction required with
  | nil => rfl
  | cons name required ih =>
    rw [List.mapM_cons, ih]
    by_cases hname : name ∈ names
    · rw [locate_of_mem hname, List.find?_cons_of_neg (by simpa using hname)]
      cases required.find? (· ∉ names) <;> rfl
    · rw [locate_of_not_mem hname, List.find?_cons_of_pos (by simpa using hname)]
      rfl

/-! ## All inputs -/

/-- The inputs of a sort that have to be there. -/
def required (p : Program) : InputSort → List String
  | .attribute => p.attributes
  | .uniform => p.uniforms

/-- The input is declared where it may be: attributes in the vertex stage, uniforms in either stage. -/
def Has (p : Program) : InputSort → String → Prop
  | .attribute, name => Declared .attribute p.vertexGlsl name
  | .uniform, name => Declared .uniform p.vertexGlsl name ∨ Declared .uniform p.fragmentGlsl name

/-- The input is the first of its sort that is required and not declared. -/
def FirstMissing (p : Program) (sort : InputSort) (name : String) : Prop :=
  ¬ p.Has sort name ∧ ∃ before after, p.required sort = before ++ name :: after ∧
    ∀ earlier ∈ before, p.Has sort earlier

/-- The declared inputs of a sort, in the order of their numbers. -/
def names (p : Program) : InputSort → List String
  | .attribute => p.declaredAttributes
  | .uniform => p.declaredUniforms

theorem mem_names_iff {p : Program} {sort : InputSort} {name : String} :
    name ∈ p.names sort ↔ p.Has sort name := by
  cases sort
  · exact mem_declared_iff
  · obtain ⟨_, -, hmem⟩ := p.declaredUniforms_eq
    exact hmem name

theorem mapM_locate_eq_ok_iff {p : Program} {sort : InputSort} {l : List (String × Nat)} :
    (p.required sort).mapM (locate p.label sort (p.names sort)) = .ok l ↔
      (∀ name ∈ p.required sort, p.Has sort name) ∧
        l = (p.required sort).map fun name => (name, (p.names sort).idxOf name) := by
  rw [mapM_locate]
  cases hfind : (p.required sort).find? (· ∉ p.names sort) with
  | none =>
    have hall : ∀ name ∈ p.required sort, p.Has sort name := by
      simpa [mem_names_iff] using hfind
    exact ⟨fun h => ⟨hall, (Except.ok.inj h).symm⟩, fun h => congrArg _ h.2.symm⟩
  | some name =>
    refine ⟨nofun, fun h => ?_⟩
    have hmissing := List.find?_some hfind
    simp [mem_names_iff, h.1 name (List.mem_of_find?_eq_some hfind)] at hmissing

theorem mapM_locate_eq_error_iff {p : Program} {sort : InputSort} {f : Fault} :
    (p.required sort).mapM (locate p.label sort (p.names sort)) = .error f ↔
      ∃ name, p.FirstMissing sort name ∧ f = .missingInput p.label name sort := by
  have hfirst (name : String) :
      (p.required sort).find? (· ∉ p.names sort) = some name ↔ p.FirstMissing sort name := by
    simp only [List.find?_eq_some_iff_append, FirstMissing, decide_not, Bool.not_not,
      Bool.not_eq_true', decide_eq_false_iff_not, decide_eq_true_eq, mem_names_iff]
  rw [mapM_locate]
  cases hfind : (p.required sort).find? (· ∉ p.names sort) with
  | none =>
    refine ⟨nofun, ?_⟩
    rintro ⟨name, hname, -⟩
    rw [(hfirst name).2 hname] at hfind
    cases hfind
  | some name =>
    constructor
    · rintro ⟨⟩
      exact ⟨name, (hfirst name).1 hfind, rfl⟩
    · rintro ⟨name', hname, rfl⟩
      rw [(hfirst name').2 hname] at hfind
      cases hfind
      rfl

theorem resolve_eq (p : Program) : p.resolve =
    (p.required .attribute).mapM (locate p.label .attribute (p.names .attribute)) >>= fun attributes =>
      (p.required .uniform).mapM (locate p.label .uniform (p.names .uniform)) >>= fun uniforms =>
        pure ⟨attributes, uniforms⟩ := rfl

theorem resolve_eq_ok_iff {p : Program} {l : Locations} : p.resolve = .ok l ↔ ∀ sort,
    (∀ name ∈ p.required sort, p.Has sort name) ∧
      l.listed sort = (p.required sort).map fun name => (name, (p.names sort).idxOf name) := by
  simp only [resolve_eq, bind_eq_ok, mapM_locate_eq_ok_iff]
  constructor
  · rintro ⟨attributes, hattributes, uniforms, huniforms, ⟨⟩⟩ sort
    cases sort
    · exact hattributes
    · exact huniforms
  · intro h
    exact ⟨l.attributes, h .attribute, l.uniforms, h .uniform, rfl⟩

theorem resolve_eq_error_iff {p : Program} {f : Fault} : p.resolve = .error f ↔
    (∃ name, p.FirstMissing .attribute name ∧ f = .missingInput p.label name .attribute) ∨
      (∀ name ∈ p.attributes, p.Has .attribute name) ∧
        ∃ name, p.FirstMissing .uniform name ∧ f = .missingInput p.label name .uniform := by
  simp only [resolve_eq, bind_eq_error, mapM_locate_eq_error_iff, mapM_locate_eq_ok_iff]
  constructor
  · rintro (hattribute | ⟨_, ⟨hattributes, -⟩, huniform | ⟨_, -, ⟨⟩⟩⟩)
    · exact .inl hattribute
    · exact .inr ⟨hattributes, huniform⟩
  · rintro (hattribute | ⟨hattributes, huniform⟩)
    · exact .inl hattribute
    · exact .inr ⟨_, ⟨hattributes, rfl⟩, .inl huniform⟩

theorem resolve_congr {p : Program} {vertex fragment : String}
    (hvertex : ∀ sort, declared sort vertex = declared sort p.vertexGlsl)
    (hfragment : declared .uniform fragment = declared .uniform p.fragmentGlsl) :
    resolve { p with vertexGlsl := vertex, fragmentGlsl := fragment } = p.resolve := by
  simp only [resolve, declaredAttributes, declaredUniforms, hvertex, hfragment]

/-- Uniforms of the vertex stage are numbered first. -/
theorem idxOf_names_uniform {p : Program} {name : String} (h : Declared .uniform p.vertexGlsl name) :
    (p.names .uniform).idxOf name = (declared .uniform p.vertexGlsl).idxOf name := by
  obtain ⟨added, hadded, -⟩ := p.declaredUniforms_eq
  rw [names, hadded, List.idxOf_append_of_mem (mem_declared_iff.2 h)]

theorem mem_uniforms_iff {p : Program} {l : Locations} (h : p.resolve = .ok l) {name : String}
    (hname : Declared .uniform p.vertexGlsl name) {i : Nat} : (name, i) ∈ l.uniforms ↔
      name ∈ p.uniforms ∧ (declared .uniform p.vertexGlsl).idxOf name = i := by
  have hlisted : l.uniforms = p.uniforms.map fun name => (name, (p.names .uniform).idxOf name) :=
    (resolve_eq_ok_iff.1 h .uniform).2
  rw [hlisted, List.mem_map]
  constructor
  · rintro ⟨_, hmem, ⟨⟩⟩
    exact ⟨hmem, (idxOf_names_uniform hname).symm⟩
  · rintro ⟨hmem, rfl⟩
    exact ⟨name, hmem, by rw [idxOf_names_uniform hname]⟩

/-! ## Changes that do not matter -/

/-- The first part of a line ends, or the second begins, in white space or with the line. -/
def Gap (x y : List Char) : Prop :=
  (∀ c, x.getLast? = some c → isBlank c = true) ∨ ∀ c, y.head? = some c → isBlank c = true

/-- Lines are changed in one place, but not in what they declare. -/
inductive Relaid : List (List Char) → List (List Char) → Prop
  | line {above below} {line : List Char} (h : ∀ sort name, ¬ Declares sort line name) :
      Relaid (above ++ below) (above ++ line :: below)
  | lineEnd {above below} {line next : List Char} :
      Relaid (above ++ line :: next :: below) (above ++ (line ++ ['\r']) :: next :: below)
  | gap {above below} {x y : List Char} {c : Char} (hc : c = ' ' ∨ c = '\t') (h : Gap x y) :
      Relaid (above ++ (x ++ y) :: below) (above ++ (x ++ c :: y) :: below)

/-- Any number of such changes leads from one text to the other. -/
def Reformatted (text text' : String) : Prop :=
  Relation.ReflTransGen Relaid (text.toList.splitOn '\n') (text'.toList.splitOn '\n')

theorem words_gap {x y : List Char} {c : Char} (hc : isBlank c = true) (h : Gap x y) :
    words (x ++ c :: y) = words (x ++ y) := by
  rw [words_append_cons hc]
  rcases h with h | h
  · exact (words_append_of_last h).symm
  · exact (words_append_of_head h).symm

theorem Relaid.filterMap_eq {ls ls' : List (List Char)} (h : Relaid ls ls') (sort : InputSort) :
    ls'.filterMap (declaredIn sort) = ls.filterMap (declaredIn sort) := by
  cases h with
  | line h =>
    rw [List.filterMap_append, List.filterMap_cons_none (declaredIn_eq_none_iff.2 (h sort)),
      List.filterMap_append]
  | @lineEnd above below line next =>
    have hwords := words_gap (c := '\r') rfl (.inr nofun : Gap line [])
    rw [List.append_nil] at hwords
    simp only [List.filterMap_append, List.filterMap_cons, declaredIn_congr sort hwords]
  | @gap above below x y c hc h =>
    have hblank : isBlank c = true := by
      rcases hc with rfl | rfl <;> rfl
    simp only [List.filterMap_append, List.filterMap_cons, declaredIn_congr sort (words_gap hblank h)]

theorem Reformatted.declared_eq {text text' : String} (h : Reformatted text text') (sort : InputSort) :
    declared sort text' = declared sort text := by
  simp only [declared, lines, split_eq_splitOn]
  unfold Reformatted at h
  generalize text'.toList.splitOn '\n' = ls' at h ⊢
  induction h with
  | refl => rfl
  | tail _ hstep ih => rw [hstep.filterMap_eq, ih]

theorem declaredUniforms_eq_of_declared {p : Program} {fragment fragment' name : String}
    {above below : List (List Char)} {line : List Char}
    (hlines : fragment.toList.splitOn '\n' = above ++ line :: below)
    (hlines' : fragment'.toList.splitOn '\n' = above ++ below) (hline : Declares .uniform line name)
    (hname : Declared .uniform p.vertexGlsl name) :
    declaredUniforms { p with fragmentGlsl := fragment } =
      declaredUniforms { p with fragmentGlsl := fragment' } := by
  have hfragment : declared .uniform fragment =
      above.filterMap (declaredIn .uniform) ++ name :: below.filterMap (declaredIn .uniform) := by
    rw [declared, lines, split_eq_splitOn, hlines, List.filterMap_append,
      List.filterMap_cons_some (declaredIn_eq_some_iff.2 hline)]
  have hfragment' : declared .uniform fragment' =
      above.filterMap (declaredIn .uniform) ++ below.filterMap (declaredIn .uniform) := by
    rw [declared, lines, split_eq_splitOn, hlines', List.filterMap_append]
  obtain ⟨added, hadded, -⟩ :=
    foldl_add_eq (declared .uniform p.vertexGlsl) (above.filterMap (declaredIn .uniform))
  -- the name is there when the line is reached
  have hthere : (declared .uniform p.vertexGlsl ++ added).contains name = true :=
    List.contains_iff_mem.2 (List.mem_append_left added (mem_declared_iff.2 hname))
  simp only [declaredUniforms, hfragment, hfragment', List.foldl_append, List.foldl_cons, hadded,
    hthere, if_true]

/-! ## Locations -/

/-- A program that tints. Both stages declare its matrix. -/
def tint : Program where
  label := "tint"
  vertexGlsl := "attribute vec4 pos;\nuniform mat4 hue;"
  fragmentGlsl := "uniform mat4 hue;\nuniform sampler2D tex;"
  wgsl := ""
  attributes := ["pos"]
  uniforms := ["tex", "hue"]

end Program

end RegionCapture
