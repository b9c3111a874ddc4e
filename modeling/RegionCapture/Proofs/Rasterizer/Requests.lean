import Mathlib.Data.List.Induction
import Mathlib.Data.List.Range
import RegionCapture.Proofs.Program.Regions
import RegionCapture.Proofs.Rasterizer.Painting
import RegionCapture.Scalar.Exact
/-!
# Requests to the rasterizer

Everything that can be asked of a rasterizer, in any order. What a command can do is said once
(`perform_cases`), and what every request keeps is `Sound`. From these follows what holds after any
requests to a new rasterizer (`sound_run`): nothing that is set dangles, a target has the pixels that its
sides ask for and ids are not given twice, as far as a machine word can count them, and a request that
fails leaves no trace.
-/

namespace RegionCapture

/-- Four bytes for each pixel can be counted in a word of 64 bits. -/
def Size.Countable (s : Size) : Prop := 4 * s.width * s.height < 0x10000000000000000
  deriving Decidable

theorem Size.Countable.bytes_eq {s : Size} (h : s.Countable) : s.bytes = 4 * s.width * s.height := by
  have hsides : s.width * s.height * 4 = 4 * s.width * s.height := by
    rw [Nat.mul_comm, Nat.mul_assoc]
  rw [bytes, hsides, Nat.mod_eq_of_lt h]

theorem Canvas.length_bytes (c : Canvas) : c.bytes.length = 4 * c.pixels.size := by
  have h4 (l : List Rgba) : (l.flatMap Rgba.bytes).length = 4 * l.length := by
    induction l with
    | nil => rfl
    | cons color l ih =>
      rw [List.flatMap_cons, List.length_append, ih]
      simp only [Rgba.bytes, List.length_cons, List.length_nil]
      omega
  rw [bytes, h4, Array.length_toList]

namespace Rasterizer

variable {L : Type}

/-- Something asked of a rasterizer. -/
inductive Request (L : Type) where
  | createProgram (p : Program)
  | deleteProgram (id : Nat)
  | command (c : Command L)
  | readBack

/-- What a request that succeeds gives. -/
inductive Answer where
  | made (id : Nat)
  | picture (c : Canvas)
  | done

variable [Coordinate L]

/-- One request, through the interface of a renderer. -/
def request (s : Rasterizer L) : Request L → Except Fault Answer × Rasterizer L
  | .createProgram p =>
    let (result, s) := renderer.createProgram p s
    (result.map .made, s)
  | .deleteProgram id => (.ok .done, renderer.deleteProgram id s)
  | .command c =>
    let (result, s) := renderer.perform c s
    (result.map fun _ => .done, s)
  | .readBack => ((renderer.readBack s).map .picture, s)

def run (s : Rasterizer L) (l : List (Request L)) : Rasterizer L :=
  l.foldl (fun s q => (s.request q).2) s

/-- The ids that requests give, in order. -/
def made (s : Rasterizer L) : List (Request L) → List Nat
  | [] => []
  | q :: l =>
    match (s.request q).1 with
    | .ok (.made id) => id :: made (s.request q).2 l
    | _ => made (s.request q).2 l

/-- A program that was made in the course of requests to a new rasterizer, and not deleted since. -/
def Living (l : List (Request L)) (id : Nat) : Prop :=
  ∃ pre p post, l = pre ++ .createProgram p :: post ∧
    ((run new pre).request (.createProgram p)).1 = .ok (.made id) ∧ .deleteProgram id ∉ post

/-- The first thing missing for a draw: a program, an input, a viewport, a target, in this order. -/
def missing (s : Rasterizer L) : Option Fault :=
  [(s.current.isNone, Fault.drawWithoutProgram), (s.input.isNone, .drawWithoutInput),
    (s.viewport.isNone, .drawWithoutViewport), (s.target.isNone, .drawWithoutTarget)].findSome?
    fun need => if need.1 then some need.2 else none

/-! ## One request -/

variable {s s' : Rasterizer L} {q : Request L}

/-- What a command that succeeds does. -/
inductive Steps (s : Rasterizer L) : Command L → Rasterizer L → Prop
  | kept {size} (full : size.isEmpty = false) (same : s.target.map Canvas.size = some size) :
      Steps s (.ensureTarget size) s
  | allocated {size} (full : size.isEmpty = false) :
      Steps s (.ensureTarget size) { s with target := some (Canvas.solid size .transparent) }
  | cleared {color t} (target : s.target = some t) :
      Steps s (.clearTarget color) { s with target := some (t.fill color) }
  | used {id} (there : id ∈ s.programs) : Steps s (.useProgram id) { s with current := some id }
  | bound {texture} (full : texture.size.isEmpty = false) :
      Steps s (.bindInput texture) { s with input := some texture }
  | texMatrix {m} : Steps s (.setTexMatrix m) { s with texMatrix := m }
  | userMatrix {m} : Steps s (.setUserMatrix m) { s with userMatrix := m }
  | viewport {v} : Steps s (.setViewport v) { s with viewport := some v }
  | drawn {id input v t} (program : s.current = some id) (bound : s.input = some input)
      (viewport : s.viewport = some v) (target : s.target = some t) :
      Steps s .drawQuad
        { s with target := some (Rasterizer.drawn (s.texMatrix.mul s.userMatrix) input v t) }
  | unbound : Steps s .unbind { s with input := none, current := none }

/-- A command fails and leaves everything as it was, or succeeds and does what it says. -/
theorem perform_cases (s : Rasterizer L) (c : Command L) :
    (∃ e, renderer.perform c s = (.error e, s)) ∨
      ∃ s', renderer.perform c s = (.ok (), s') ∧ Steps s c s' := by
  cases c with
  | ensureTarget size =>
    simp only [renderer, perform]
    split
    · exact .inl ⟨_, rfl⟩
    · next hf =>
      split
      · next hs => exact .inr ⟨_, rfl, .kept (Bool.eq_false_iff.2 hf) hs⟩
      · exact .inr ⟨_, rfl, .allocated (Bool.eq_false_iff.2 hf)⟩
  | clearTarget color =>
    simp only [renderer, perform]
    split
    · exact .inl ⟨_, rfl⟩
    · next ht => exact .inr ⟨_, rfl, .cleared ht⟩
  | useProgram id =>
    simp only [renderer, perform]
    split
    · next hp => exact .inr ⟨_, rfl, .used (List.contains_iff_mem.1 hp)⟩
    · exact .inl ⟨_, rfl⟩
  | bindInput texture =>
    simp only [renderer, perform]
    split
    · exact .inl ⟨_, rfl⟩
    · next hf => exact .inr ⟨_, rfl, .bound (Bool.eq_false_iff.2 hf)⟩
  | setTexMatrix m => exact .inr ⟨_, rfl, .texMatrix⟩
  | setUserMatrix m => exact .inr ⟨_, rfl, .userMatrix⟩
  | setViewport v => exact .inr ⟨_, rfl, .viewport⟩
  | drawQuad =>
    simp only [renderer, perform, draw]
    split
    · exact .inl ⟨_, rfl⟩
    · exact .inl ⟨_, rfl⟩
    · exact .inl ⟨_, rfl⟩
    · exact .inl ⟨_, rfl⟩
    · next hc hi hv ht => exact .inr ⟨_, rfl, .drawn hc hi hv ht⟩
  | unbind => exact .inr ⟨_, rfl, .unbound⟩

theorem request_command (s : Rasterizer L) (c : Command L) :
    (∃ e, s.request (.command c) = (.error e, s)) ∨
      ∃ s', s.request (.command c) = (.ok .done, s') ∧ Steps s c s' := by
  have hrequest : s.request (.command c) = ((renderer.perform c s).1.map fun _ => .done,
      (renderer.perform c s).2) := rfl
  rw [hrequest]
  rcases s.perform_cases c with ⟨e, h⟩ | ⟨s', h, hs⟩ <;> rw [h]
  · exact .inl ⟨e, rfl⟩
  · exact .inr ⟨s', rfl, hs⟩

theorem request_createProgram (s : Rasterizer L) (p : Program) :
    (∃ e, s.request (.createProgram p) = (.error e, s)) ∨
      s.request (.createProgram p) = (.ok (.made s.nextProgram.toNat),
        { s with
          programs := s.nextProgram.toNat :: s.programs, nextProgram := s.nextProgram + 1 }) := by
  simp only [request, renderer, createProgram]
  cases p.resolve with
  | error e => exact .inl ⟨e, rfl⟩
  | ok places => exact .inr rfl

theorem request_error {e : Fault} (h : (s.request q).1 = .error e) : (s.request q).2 = s := by
  cases q with
  | createProgram p =>
    rcases s.request_createProgram p with ⟨e', hq⟩ | hq
    · rw [hq]
    · rw [hq] at h
      cases h
  | deleteProgram id => cases h
  | command c =>
    rcases s.request_command c with ⟨e', hq⟩ | ⟨s', hq, -⟩
    · rw [hq]
    · rw [hq] at h
      cases h
  | readBack => rfl

theorem request_drawQuad (s : Rasterizer L) (e : Fault) :
    (s.request (.command .drawQuad)).1 = .error e ↔ s.missing = some e := by
  simp only [request, renderer, perform, draw, missing]
  cases s.current <;> cases s.input <;> cases s.viewport <;> cases s.target <;> simp [Except.map]

/-! ## Programs -/

theorem Steps.programs {c : Command L} (h : Steps s c s') :
    s'.programs = s.programs ∧ s'.nextProgram = s.nextProgram := by
  cases h <;> exact ⟨rfl, rfl⟩

/-- A program that is there after a request was there before and is not the one deleted, or it is the one
that was made. -/
theorem programs_request {id : Nat} (h : id ∈ (s.request q).2.programs) :
    (id ∈ s.programs ∧ q ≠ .deleteProgram id) ∨
      ∃ p, q = .createProgram p ∧ (s.request q).1 = .ok (.made id) := by
  cases q with
  | createProgram p =>
    rcases s.request_createProgram p with ⟨e, hq⟩ | hq
    · rw [hq] at h
      exact .inl ⟨h, nofun⟩
    · rw [hq] at h
      rcases List.mem_cons.1 h with rfl | h
      · exact .inr ⟨p, rfl, by rw [hq]⟩
      · exact .inl ⟨h, nofun⟩
  | deleteProgram id' =>
    obtain ⟨hm, hne⟩ := List.mem_filter.1 h
    refine .inl ⟨hm, ?_⟩
    rintro ⟨⟩
    simp at hne
  | command c =>
    rcases s.request_command c with ⟨e, hq⟩ | ⟨s', hq, hs⟩
    · rw [hq] at h
      exact .inl ⟨h, nofun⟩
    · rw [hq] at h
      rw [hs.programs.1] at h
      exact .inl ⟨h, nofun⟩
  | readBack => exact .inl ⟨h, nofun⟩

/-- Ids count up: a program gets the next one, and no other request moves the count. -/
theorem nextProgram_request (s : Rasterizer L) (q : Request L) :
    ((s.request q).1 = .ok (.made s.nextProgram.toNat) ∧
        (s.request q).2.nextProgram = s.nextProgram + 1) ∨
      ((∀ id, (s.request q).1 ≠ .ok (.made id)) ∧ (s.request q).2.nextProgram = s.nextProgram) := by
  cases q with
  | createProgram p =>
    rcases s.request_createProgram p with ⟨e, hq⟩ | hq <;> rw [hq]
    · exact .inr ⟨nofun, rfl⟩
    · exact .inl ⟨rfl, rfl⟩
  | deleteProgram id => exact .inr ⟨nofun, rfl⟩
  | command c =>
    rcases s.request_command c with ⟨e, hq⟩ | ⟨s', hq, hs⟩ <;> rw [hq]
    · exact .inr ⟨nofun, rfl⟩
    · exact .inr ⟨nofun, hs.programs.2⟩
  | readBack =>
    refine .inr ⟨fun id h => ?_, rfl⟩
    simp only [request] at h
    cases hr : renderer.readBack s <;> rw [hr] at h <;> cases h

/-! ## What is set -/

/-- Nothing that is set dangles: the program in use is there, and neither target nor input is empty. The
target has as many pixels as were counted for its size. -/
structure Sound (s : Rasterizer L) : Prop where
  current : ∀ id, s.current = some id → id ∈ s.programs
  target : ∀ t, s.target = some t → t.size.isEmpty = false ∧ t.pixels.size = t.size.bytes / 4
  input : ∀ f, s.input = some f → f.size.isEmpty = false

namespace Sound

theorem new : Sound (new : Rasterizer L) := ⟨nofun, nofun, nofun⟩

theorem steps (h : Sound s) {c : Command L} (hs : Steps s c s') : Sound s' := by
  cases hs with
  | kept => exact h
  | allocated full =>
    refine ⟨h.current, fun t ht => ?_, h.input⟩
    cases ht
    exact ⟨full, Array.size_replicate⟩
  | cleared ht =>
    obtain ⟨hfull, hcount⟩ := h.target _ ht
    refine ⟨h.current, fun t ht' => ?_, h.input⟩
    cases ht'
    exact ⟨hfull, (Canvas.size_pixels_fill _ _).trans hcount⟩
  | used there => exact { h with current := fun id hc => by cases hc; exact there }
  | bound full => exact { h with input := fun f hf => by cases hf; exact full }
  | texMatrix | userMatrix | viewport => exact ⟨h.current, h.target, h.input⟩
  | drawn _ _ _ ht =>
    -- drawing changes pixels, and neither their number nor the size
    obtain ⟨hfull, hcount⟩ := h.target _ ht
    refine ⟨h.current, fun t ht' => ?_, h.input⟩
    cases ht'
    exact ⟨hfull, (size_pixels_drawn _ _ _ _).trans hcount⟩
  | unbound => exact ⟨nofun, h.target, nofun⟩

omit [Coordinate L] in
theorem delete (h : Sound s) (id : Nat) : Sound (deleteProgram id s) where
  current i hi := by
    simp only [deleteProgram] at hi ⊢
    split at hi
    · cases hi
    · next hne =>
      refine List.mem_filter.2 ⟨h.current i hi, ?_⟩
      rw [hi, Option.some.injEq] at hne
      exact decide_eq_true hne
  target := h.target
  input := h.input

theorem request (h : Sound s) (q : Request L) : Sound (s.request q).2 := by
  cases q with
  | createProgram p =>
    rcases s.request_createProgram p with ⟨e, hq⟩ | hq <;> rw [hq]
    · exact h
    · exact ⟨fun id hc => List.mem_cons_of_mem _ (h.current id hc), h.target, h.input⟩
  | deleteProgram id => exact h.delete id
  | command c =>
    rcases s.request_command c with ⟨e, hq⟩ | ⟨s', hq, hs⟩ <;> rw [hq]
    · exact h
    · exact h.steps hs
  | readBack => exact h

end Sound

/-! ## Runs -/

theorem run_snoc (s : Rasterizer L) (l : List (Request L)) (q : Request L) :
    s.run (l ++ [q]) = ((s.run l).request q).2 := by
  simp [run]

theorem sound_of_run (l : List (Request L)) : Sound (run new l) := by
  induction l using List.reverseRecOn with
  | nil => exact .new
  | append_singleton l q ih =>
    rw [run_snoc]
    exact ih.request q

theorem living_of_mem {l : List (Request L)} {id : Nat} (h : id ∈ (run new l).programs) :
    Living l id := by
  induction l using List.reverseRecOn with
  | nil => cases h
  | append_singleton l q ih =>
    rw [run_snoc] at h
    rcases programs_request h with ⟨h, hne⟩ | ⟨p, rfl, hmade⟩
    · obtain ⟨pre, p, post, rfl, hmade, hkept⟩ := ih h
      refine ⟨pre, p, post ++ [q], by simp, hmade, ?_⟩
      rw [List.mem_append, List.mem_singleton]
      rintro (hd | hd)
      · exact hkept hd
      · exact hne hd.symm
    · exact ⟨l, p, [], rfl, hmade, List.not_mem_nil⟩

/-- The ids that are given count up from the next one, and come round after the last of 32 bits. -/
theorem made_eq (s : Rasterizer L) (l : List (Request L)) :
    s.made l = (List.range (s.made l).length).map
        (fun i => (s.nextProgram.toNat + i) % 0x100000000) ∧
      (s.run l).nextProgram.toNat = (s.nextProgram.toNat + (s.made l).length) % 0x100000000 := by
  induction l generalizing s with
  | nil => exact ⟨rfl, (Nat.mod_eq_of_lt s.nextProgram.toNat_lt).symm⟩
  | cons q l ih =>
    obtain ⟨hids, hnext⟩ := ih (s.request q).2
    have hrun : s.run (q :: l) = (s.request q).2.run l := rfl
    rw [hrun, hnext]
    rcases s.nextProgram_request q with ⟨hq, hn⟩ | ⟨hq, hn⟩
    · have hmade : s.made (q :: l) = s.nextProgram.toNat :: (s.request q).2.made l := by
        rw [made, hq]
      have hcount : (s.request q).2.nextProgram.toNat = (s.nextProgram.toNat + 1) % 0x100000000 := by
        rw [hn, UInt32.toNat_add]
        rfl
      rw [hcount] at hids ⊢
      rw [hmade, List.length_cons, List.range_succ_eq_map, List.map_cons, List.map_map]
      refine ⟨?_, by omega⟩
      rw [Nat.add_zero, Nat.mod_eq_of_lt s.nextProgram.toNat_lt]
      refine congrArg _ (hids.trans (List.map_congr_left fun i _ => ?_))
      simp only [Function.comp_apply]
      omega
    · have hmade : s.made (q :: l) = (s.request q).2.made l := by
        rw [made]
        split
        · next id he => exact absurd he (hq id)
        · rfl
      rw [hmade, hn]
      rw [hn] at hids
      exact ⟨hids, rfl⟩

theorem made_new (l : List (Request L)) :
    made new l = (List.range (made (new : Rasterizer L) l).length).map
        (fun i => (1 + i) % 0x100000000) ∧
      (run new l).nextProgram.toNat =
        (1 + (made (new : Rasterizer L) l).length) % 0x100000000 := made_eq new l

omit [Coordinate L] in
/-- A target whose bytes can be counted has all its pixels. -/
theorem Sound.whole {s : Rasterizer L} (h : Sound s) {t : Canvas} (ht : s.target = some t)
    (hc : t.size.Countable) : t.Whole := by
  have hbytes : t.size.bytes = 4 * (t.width * t.height) := hc.bytes_eq.trans (Nat.mul_assoc _ _ _)
  rw [Canvas.Whole, (h.target t ht).2, hbytes, Nat.mul_div_cancel_left _ (by decide)]

theorem request_of_resolve {p : Program} {places : Locations} (h : p.resolve = .ok places)
    (s : Rasterizer L) : (s.request (.createProgram p)).1 = .ok (.made s.nextProgram.toNat) := by
  simp only [request, renderer, createProgram, h]
  rfl

theorem length_made_createProgram {p : Program} {places : Locations} (h : p.resolve = .ok places)
    (s : Rasterizer L) (n : Nat) : (s.made (List.replicate n (.createProgram p))).length = n := by
  induction n generalizing s with
  | zero => rfl
  | succ n ih => rw [List.replicate_succ, made, request_of_resolve h, List.length_cons, ih]

end Rasterizer

end RegionCapture
