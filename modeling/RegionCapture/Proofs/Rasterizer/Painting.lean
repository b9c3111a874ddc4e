import RegionCapture.Compositor
import RegionCapture.Proofs.Layout.Strips
import RegionCapture.Rasterizer
/-!
# Painting regions

What the rasterizer's target shows once a compositor has drawn a frame into it: the regions painted
one after the other. Where the viewports are apart, a pixel inside one of them is that region's
fragment, and a pixel outside all of them is as it was before.
-/

namespace RegionCapture.Rasterizer

variable {L : Type} [Coordinate L]

/-- The target after regions of a frame are drawn into it, one after the other. -/
def painted (frame : SourceFrame L) (draws : List (RegionDraw L)) (target : Canvas) : Canvas :=
  draws.foldl (fun t d => drawn (frame.matrix.mul d.matrix) frame.texture d.viewport t) target

/-! ## Pixels -/

theorem height_drawn (m : Mat4 L) (texture : Frame) (v : Viewport) (t : Canvas) :
    (drawn m texture v t).height = t.height := rfl

/-- Drawing makes no pixels and loses none. -/
theorem size_pixels_drawn (m : Mat4 L) (texture : Frame) (v : Viewport) (t : Canvas) :
    (drawn m texture v t).pixels.size = t.pixels.size := t.size_pixels_mapRows _

theorem whole_drawn {t : Canvas} (h : t.Whole) (m : Mat4 L) (texture : Frame) (v : Viewport) :
    (drawn m texture v t).Whole := (size_pixels_drawn m texture v t).trans h

/-- What drawing does to the pixel at column `x` and row `y`, counted from the bottom. -/
theorem pixel?_drawn_up (m : Mat4 L) (texture : Frame) (v : Viewport) {t : Canvas} (h : t.Whole)
    (x : Nat) {y : Nat} (hy : y < t.height) :
    (drawn m texture v t).pixel? x (t.height - 1 - y) =
      (t.pixel? x (t.height - 1 - y)).map fun color =>
        if v.contains x y then fragment m texture v.size (x - v.x) (y - v.y) else color := by
  have hr : t.height - 1 - (t.height - 1 - y) = y := by omega
  rw [pixel?_drawn m texture v h, hr]

variable (frame : SourceFrame L)

theorem size_painted (draws : List (RegionDraw L)) (t : Canvas) :
    (painted frame draws t).size = t.size := by
  induction draws generalizing t with
  | nil => rfl
  | cons d draws ih => exact ih _

theorem size_pixels_painted (draws : List (RegionDraw L)) (t : Canvas) :
    (painted frame draws t).pixels.size = t.pixels.size := by
  induction draws generalizing t with
  | nil => rfl
  | cons d draws ih => exact (ih _).trans (size_pixels_drawn _ _ _ t)

variable {draws : List (RegionDraw L)} {t : Canvas}

/-- Outside all viewports nothing is painted. -/
theorem pixel?_painted_outside (ht : t.Whole) {x y : Nat} (hy : y < t.height)
    (h : ∀ d ∈ draws, d.viewport.contains x y = false) :
    (painted frame draws t).pixel? x (t.height - 1 - y) = t.pixel? x (t.height - 1 - y) := by
  induction draws generalizing t with
  | nil => rfl
  | cons d draws ih =>
    rw [List.forall_mem_cons] at h
    refine (ih (whole_drawn ht (frame.matrix.mul d.matrix) frame.texture d.viewport) hy h.2).trans ?_
    rw [height_drawn, pixel?_drawn_up _ _ _ ht _ hy]
    simp [h.1]

/-- Inside a viewport that no other shares a pixel with, the region's own fragment is painted. -/
theorem pixel?_painted_inside (ht : t.Whole) {x y : Nat} {d : RegionDraw L} (hd : d ∈ draws)
    (ha : (draws.map RegionDraw.viewport).Pairwise Viewport.Apart) (hx : x < t.width)
    (hy : y < t.height) (hc : d.viewport.contains x y = true) :
    (painted frame draws t).pixel? x (t.height - 1 - y) =
      some (fragment (frame.matrix.mul d.matrix) frame.texture d.viewport.size (x - d.viewport.x)
        (y - d.viewport.y)) := by
  induction draws generalizing t with
  | nil => cases hd
  | cons e draws ih =>
    rw [List.map_cons, List.pairwise_cons] at ha
    rcases List.mem_cons.1 hd with rfl | hd
    · -- the regions drawn later are apart from this one
      have ho : ∀ e ∈ draws, e.viewport.contains x y = false :=
        fun e he => ha.1 _ (List.mem_map_of_mem he) x y hc
      have hdrawn := whole_drawn ht (frame.matrix.mul d.matrix) frame.texture d.viewport
      refine (pixel?_painted_outside frame hdrawn hy ho).trans ?_
      have hp : (t.pixel? x (t.height - 1 - y)).isSome = true :=
        ht.isSome_pixel?.2 ⟨hx, by omega⟩
      obtain ⟨color, hcolor⟩ := Option.isSome_iff_exists.1 hp
      rw [height_drawn, pixel?_drawn_up _ _ _ ht _ hy, hcolor]
      simp [hc]
    · exact ih (whole_drawn ht (frame.matrix.mul e.matrix) frame.texture e.viewport) hd ha.2 hx hy

/-! ## Commands -/

section Commands

variable {s s' : Rasterizer L}

/-- A program that is made is there from then on, and the target stays. -/
theorem createProgram_ok {p : Program} {id : Nat}
    (h : renderer.createProgram p s = (.ok id, s')) :
    id ∈ s'.programs ∧ s'.target = s.target := by
  simp only [renderer, createProgram] at h
  split at h <;> cases h
  exact ⟨List.mem_cons_self, rfl⟩

theorem createProgram_of_resolve {p : Program} {places : Locations} (h : p.resolve = .ok places)
    (s : Rasterizer L) : (renderer.createProgram p s).1 = .ok s.nextProgram.toNat := by
  simp only [renderer, createProgram, h]

theorem perform_ensureTarget {size : Size} (h : size.isEmpty = false) (s : Rasterizer L) :
    (renderer.perform (.ensureTarget size) s).1 = .ok () := by
  simp only [renderer, perform, h, Bool.false_eq_true, if_false]
  split <;> rfl

/-- A target that is asked for is there, in the size asked for. -/
theorem target_of_ensureTarget {size : Size}
    (h : renderer.perform (.ensureTarget size) s = (.ok (), s')) :
    ∃ t, s'.target = some t ∧ t.size = size := by
  simp only [renderer, perform] at h
  split at h
  · cases h
  split at h
  · next hs =>
    cases h
    exact Option.map_eq_some_iff.1 hs
  · cases h
    exact ⟨_, rfl, rfl⟩

theorem perform_clearTarget (color : Rgba) (h : s.target = some t) :
    renderer.perform (.clearTarget color) s =
      (.ok (), { s with target := some (t.fill color) }) := by
  simp only [renderer, perform, h]

theorem perform_useProgram {id : Nat} (h : id ∈ s.programs) :
    renderer.perform (.useProgram id) s = (.ok (), { s with current := some id }) := by
  simp [renderer, perform, h]

theorem perform_bindInput {texture : Frame} (h : texture.size.isEmpty = false) :
    renderer.perform (.bindInput texture) s = (.ok (), { s with input := some texture }) := by
  simp [renderer, perform, h]

theorem perform_bindInput_empty {texture : Frame} (h : texture.size.isEmpty = true) :
    renderer.perform (.bindInput texture) s = (.error .emptyTexture, s) := by
  simp [renderer, perform, h]

theorem perform_drawQuad {id : Nat} {input : Frame} {v : Viewport} (hc : s.current = some id)
    (hi : s.input = some input) (hv : s.viewport = some v) (ht : s.target = some t) :
    renderer.perform .drawQuad s =
      (.ok (), { s with target := some (drawn (s.texMatrix.mul s.userMatrix) input v t) }) := by
  simp only [renderer, perform, draw, hc, hi, hv, ht]

theorem performAll_of_ok {c : Command L} (h : renderer.perform c s = (.ok (), s'))
    (l : List (Command L)) : renderer.performAll (c :: l) s = renderer.performAll l s' := by
  simp only [Renderer.performAll, h]

/-- A command that fails ends the list. -/
theorem performAll_of_error {c : Command L} {e : Fault}
    (h : renderer.perform c s = (.error e, s')) (l : List (Command L)) :
    renderer.performAll (c :: l) s = (.error e, s') := by
  simp only [Renderer.performAll, h]

end Commands

/-! ## Drawing -/

/-- With a program, an input and a target in place, drawing regions paints them. -/
theorem performAll_regions (draws : List (RegionDraw L)) {s : Rasterizer L} {id : Nat}
    (hc : s.current = some id) (hi : s.input = some frame.texture) (hm : s.texMatrix = frame.matrix)
    (ht : s.target = some t) :
    ∃ s', renderer.performAll (draws.flatMap Compositor.regionCommands) s = (.ok (), s') ∧
      s'.target = some (painted frame draws t) ∧ s'.programs = s.programs := by
  induction draws generalizing s t with
  | nil => exact ⟨s, rfl, ht, rfl⟩
  | cons d draws ih =>
    let s₁ : Rasterizer L := { s with viewport := some d.viewport, userMatrix := d.matrix }
    let t₁ := drawn (frame.matrix.mul d.matrix) frame.texture d.viewport t
    have hd : renderer.perform .drawQuad s₁ = (.ok (), { s₁ with target := some t₁ }) := by
      have hm₁ : s₁.texMatrix = frame.matrix := hm
      rw [perform_drawQuad (s := s₁) hc hi rfl ht, hm₁]
    obtain ⟨s', hs, ht', hp⟩ := ih (s := { s₁ with target := some t₁ }) hc hi hm rfl
    refine ⟨s', ?_, ht', hp⟩
    rw [List.flatMap_cons, Compositor.regionCommands, List.cons_append, List.cons_append,
      List.cons_append, List.nil_append]
    rw [performAll_of_ok rfl, performAll_of_ok rfl, performAll_of_ok hd, hs]

/-- A compositor that is ready, with its program made and a target there, draws the regions of a frame
that has pixels. -/
theorem draw_ready {c : Compositor L} {s : Rasterizer L} {id : Nat} (hc : c.phase = .initialized)
    (hid : c.program = some id) (hm : id ∈ s.programs) (ht : s.target = some t)
    (hf : frame.texture.size.isEmpty = false) :
    ∃ s', c.draw renderer frame s = (.ok (), c, s') ∧
      s'.target = some (painted frame c.draws t) ∧ s'.programs = s.programs := by
  obtain ⟨s', hs, ht', hp⟩ := performAll_regions frame c.draws
    (s := { s with current := some id, input := some frame.texture, texMatrix := frame.matrix })
    rfl rfl rfl ht
  refine ⟨{ s' with input := none, current := none }, ?_, ht', hp⟩
  have hall : renderer.performAll (c.frameCommands id frame) s = (.ok (), s') := by
    rw [Compositor.frameCommands, List.cons_append, List.cons_append, List.cons_append,
      List.nil_append, performAll_of_ok (perform_useProgram hm),
      performAll_of_ok (perform_bindInput hf), performAll_of_ok rfl, hs]
  unfold Compositor.draw
  rw [hc, hid]
  simp only [hall]
  rfl

theorem draw_empty {c : Compositor L} {s : Rasterizer L} {id : Nat} (hc : c.phase = .initialized)
    (hid : c.program = some id) (hm : id ∈ s.programs) (hf : frame.texture.size.isEmpty = true) :
    (c.draw renderer frame s).1 = .error .emptyTexture := by
  have hall : renderer.performAll (c.frameCommands id frame) s =
      (.error .emptyTexture, { s with current := some id }) := by
    rw [Compositor.frameCommands, List.cons_append, List.cons_append, List.cons_append,
      performAll_of_ok (perform_useProgram hm),
      performAll_of_error (perform_bindInput_empty hf)]
  unfold Compositor.draw
  rw [hc, hid]
  simp only [hall]

end RegionCapture.Rasterizer
