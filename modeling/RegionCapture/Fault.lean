import RegionCapture.Rect
/-!
# Faults

Everything that can go wrong, as causes. `Fault.kind` sorts the causes, `Fault.detail` words them,
and `Fault.message` is what a user reads: the detail after the heading of its kind.
-/

namespace RegionCapture

/-- The family a fault belongs to. -/
inductive FaultKind where
  /-- Geometry or options that make no sense. -/
  | validation
  /-- A capture configuration that cannot be honoured. -/
  | configuration
  /-- A drawing program could not be made. -/
  | graphicsInit
  /-- A transform with a degenerate axis was to be inverted or built. -/
  | nonInvertible
  /-- A drawing command failed. -/
  | drawing
  /-- A display or its destination surface is not to be had. -/
  | display
  /-- A document could not be read or written. -/
  | serialization
  /-- Anything else; the detail speaks for itself. -/
  | other
  deriving DecidableEq, Repr

/-- What a message of this kind begins with. -/
def FaultKind.heading : FaultKind → String
  | .validation => "validation error: "
  | .configuration => "configuration error: "
  | .graphicsInit => "graphics init error: "
  | .nonInvertible => "non-invertible transform: "
  | .drawing => "gpu error: "
  | .display => "display error: "
  | .serialization => "serialization error: "
  | .other => ""

/-- The two sorts of inputs that a drawing program declares. -/
inductive InputSort where
  | attribute
  | uniform
  deriving DecidableEq, Repr

/-- The keyword that declares an input of this sort. -/
def InputSort.keyword : InputSort → String
  | .attribute => "attribute"
  | .uniform => "uniform"

/-- What went wrong. Numbers that are not whole are carried as the text that a message shows. -/
inductive Fault where
  | displayRotation (turns : Nat)
  | quarterTurns (turns : Nat)
  | cropOutside (crop : Rect) (area : Size)
  | angleOption
  | angleStep (angle : String)
  | cropOrigin (field : String) (crop : Rect)
  | cropExtent (field : String) (crop : Rect)
  | byteCount (bytes : Nat) (size : Size)
  | emptyTarget (size : Size)
  | emptyOutput (size : Size)
  | cropParts (text : String)
  | cropNumber (part text : String)
  | cropNegative (text : String)
  | cropRange (text : String)
  | orientationName (text : String)
  | unknownDisplay (id : Nat)
  | notPrepared
  | missingInput (label name : String) (sort : InputSort)
  | alreadyInitialized
  | singular (determinant coefficients : String)
  | unboundedInverse (coefficients : String)
  | emptyArea (width height : String)
  | clearWithoutTarget
  | unknownProgram (id : Nat)
  | emptyTexture
  | drawWithoutProgram
  | drawWithoutInput
  | drawWithoutViewport
  | drawWithoutTarget
  | readWithoutTarget
  | notInitialized
  | failedEarlier
  | notStarted
  | emptySurface (displayId : Nat)
  | malformedOptions
  /-- A fault that a collaborator reports in its own words. -/
  | reported (kind : FaultKind) (detail : String)
  deriving DecidableEq, Repr

namespace Fault

/-- The family of a fault. -/
def kind : Fault → FaultKind
  | displayRotation _ | quarterTurns _ | cropOutside _ _ | angleOption | angleStep _
  | cropOrigin _ _ | cropExtent _ _ | byteCount _ _ | emptyTarget _ | emptyOutput _ => .validation
  | cropParts _ | cropNumber _ _ | cropNegative _ | cropRange _ | orientationName _
  | unknownDisplay _ | notPrepared => .configuration
  | missingInput _ _ _ | alreadyInitialized => .graphicsInit
  | singular _ _ | unboundedInverse _ | emptyArea _ _ => .nonInvertible
  | clearWithoutTarget | unknownProgram _ | emptyTexture | drawWithoutProgram | drawWithoutInput
  | drawWithoutViewport | drawWithoutTarget | readWithoutTarget | notInitialized | failedEarlier
  | notStarted => .drawing
  | emptySurface _ => .display
  | malformedOptions => .serialization
  | reported kind _ => kind

/-- The fault in words, without a heading. -/
def detail : Fault → String
  | displayRotation turns => s!"display rotation must be in 0..4, got {turns}"
  | quarterTurns turns => s!"orthogonal rotation must be in 0..4, got {turns}"
  | cropOutside crop area => s!"crop {crop.text} exceeds the input area ({area.text})"
  | angleOption => "angle must be finite"
  | angleStep angle => s!"angle must be finite, got {angle}"
  | cropOrigin field crop => s!"{field} origin must be >= 0, got {crop.text}"
  | cropExtent field crop => s!"{field} must have a non-negative size, got {crop.text}"
  | byteCount bytes size =>
    s!"frame data has {bytes} bytes, {size.text} RGBA8 needs {size.bytes}"
  | emptyTarget size => s!"render target must be non-empty, got {size.text}"
  | emptyOutput size => s!"capture output is empty ({size.text})"
  | cropParts text => s!"crop must contain 4 values separated by colons: \"{text}\""
  | cropNumber part text => s!"invalid crop value \"{part}\" in \"{text}\""
  | cropNegative text => s!"crop size must not be negative: \"{text}\""
  | cropRange text => s!"crop exceeds the coordinate range: \"{text}\""
  | orientationName text =>
    s!"unsupported orientation \"{text}\" "
      ++ "(expected one of 0, 90, 180, 270, flip0, flip90, flip180, flip270)"
  | unknownDisplay id => s!"unknown display id: {id}"
  | notPrepared => "capture session is not prepared"
  | missingInput label name sort => s!"{label}: failed to get '{name}' {sort.keyword} location"
  | alreadyInitialized => "compositor is already initialized"
  | singular determinant coefficients => s!"determinant is {determinant} for {coefficients}"
  | unboundedInverse coefficients => s!"inverse of {coefficients} is not finite"
  | emptyArea width height => s!"cannot reframe to an empty area: {width}x{height}"
  | clearWithoutTarget => "clear: no render target"
  | unknownProgram id => s!"use_program: unknown program {id}"
  | emptyTexture => "bind_input: empty texture"
  | drawWithoutProgram => "draw_quad: no program in use"
  | drawWithoutInput => "draw_quad: no input texture bound"
  | drawWithoutViewport => "draw_quad: no viewport set"
  | drawWithoutTarget => "draw_quad: no render target"
  | readWithoutTarget => "readback: no render target"
  | notInitialized => "compositor is not initialized"
  | failedEarlier => "compositor is unusable after a failed draw"
  | notStarted => "capture session is not started"
  | emptySurface displayId => s!"cannot mirror display {displayId} into an empty surface"
  | malformedOptions => "capture options: not a document of capture options"
  | reported _ detail => detail

/-- What a user reads. -/
def message (f : Fault) : String := f.kind.heading ++ f.detail

end Fault

section

variable {ε α β : Type} {x : Except ε α} {e : ε}

/-- Two steps one after the other succeed exactly if both do. -/
theorem bind_eq_ok {f : α → Except ε β} {b : β} :
    x >>= f = .ok b ↔ ∃ a, x = .ok a ∧ f a = .ok b := by
  rcases x with e | a
  · exact ⟨nofun, fun ⟨_, h, _⟩ => nomatch h⟩
  · exact ⟨fun h => ⟨a, rfl, h⟩, fun ⟨_, h, hf⟩ => by cases h; exact hf⟩

/-- Two steps one after the other fail with what the first of them fails with. -/
theorem bind_eq_error {f : α → Except ε β} :
    x >>= f = .error e ↔ x = .error e ∨ ∃ a, x = .ok a ∧ f a = .error e := by
  rcases x with e' | a
  · exact ⟨fun h => by cases h; exact .inl rfl, fun h => by
      rcases h with h | ⟨_, h, _⟩ <;> cases h
      rfl⟩
  · exact ⟨fun h => .inr ⟨a, rfl, h⟩, fun h => by
      rcases h with h | ⟨_, h, hf⟩ <;> cases h
      exact hf⟩

theorem map_eq_ok {f : α → β} {b : β} : x.map f = .ok b ↔ ∃ a, x = .ok a ∧ f a = b := by
  cases x <;> simp [Except.map]

theorem map_eq_error {f : α → β} : x.map f = .error e ↔ x = .error e := by
  cases x <;> simp [Except.map]

theorem mapError_eq_ok {ε' : Type} {f : ε → ε'} {a : α} : x.mapError f = .ok a ↔ x = .ok a := by
  rcases x with e | a'
  · exact ⟨nofun, nofun⟩
  · exact ⟨fun h => by cases h; rfl, fun h => by cases h; rfl⟩

theorem mapError_eq_error {f : ε → ε} : x.mapError f = .error e ↔ ∃ e', x = .error e' ∧ f e' = e := by
  rcases x with e' | a
  · exact ⟨fun h => by cases h; exact ⟨e', rfl, rfl⟩, fun ⟨_, h, hf⟩ => by cases h; cases hf; rfl⟩
  · exact ⟨nofun, fun ⟨_, h, _⟩ => nomatch h⟩

theorem mapError_id : x.mapError id = x := by
  cases x <;> rfl

end

end RegionCapture
