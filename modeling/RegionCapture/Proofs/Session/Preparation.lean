import RegionCapture.Proofs.Session.Runs
/-!
# Preparations that fail

A preparation that fails keeps the plan, and without a display it keeps everything. Once the display
is found, the session has taken note of it, whether or not a plan comes out in the end: nothing that
was asked for before counts, the size to compare with is the one just read, and an initial lock is
taken (`prepare_error`).
-/

namespace RegionCapture.Session

variable {K L : Type}

/-- What a failing preparation leaves of a session, given what the source said. -/
structure Spared (s : Session K L) (answer : Except Fault (Option DisplayState))
    (s' : Session K L) : Prop where
  plan : s'.plan = s.plan
  compositor : s'.compositor = s.compositor
  attached : s'.attached = s.attached
  capabilities : s'.capabilities = s.capabilities
  /-- Without a display nothing changes. -/
  lost : (∀ display, answer ≠ .ok (some display)) → s' = s
  /-- A display that is found is the one to compare with from now on. -/
  found : ∀ display, answer = .ok (some display) → s'.invalidation = ⟨false, some display.size⟩
  /-- Options change by an initial lock that is taken, and not otherwise. -/
  options : ∀ display, answer = .ok (some display) → s.options.CanLock display →
    s'.options = s.options.lockOn display
  /-- A display that no lock can be taken for leaves all options but the lock. -/
  unlocked : ∀ display, answer = .ok (some display) → ¬ s.options.CanLock display →
    ∃ lock, s'.options = { s.options with lock := lock }

theorem spared_of_lost {s : Session K L} {answer : Except Fault (Option DisplayState)}
    (h : ∀ display, answer ≠ .ok (some display)) : Spared s answer s where
  plan := rfl
  compositor := rfl
  attached := rfl
  capabilities := rfl
  lost _ := rfl
  found display hd := absurd hd (h display)
  options display hd := absurd hd (h display)
  unlocked display hd := absurd hd (h display)

/-- A preparation that fails spares the session: plan, compositor and attachment stay; without a
display the session stays as it was; with one, only what is known of the display and an initial lock
change. -/
theorem prepare_error [Coefficient K] [Rotation K] (source : DisplaySource) (s : Session K L)
    {e : Fault} (h : (s.prepare source).1 = .error e) :
    Spared s (source s.options.displayId) (s.prepare source).2 := by
  have hc := s.prepare_cases source
  generalize source s.options.displayId = answer at hc ⊢
  generalize s.prepare source = out at h hc ⊢
  cases hc with
  | unanswered => exact spared_of_lost (by simp)
  | unknown => exact spared_of_lost (by simp)
  | @unlocked display hl ht =>
    refine ⟨rfl, rfl, rfl, rfl, fun hn => absurd rfl (hn display), ?_, ?_, ?_⟩
    · rintro _ ⟨⟩; rfl
    · rintro _ ⟨⟩ hcan
      exact absurd (hcan hl) (Nat.not_lt.2 ht)
    · rintro _ ⟨⟩ -
      exact ⟨.value, rfl⟩
  | @unplanned display _ hcan =>
    refine ⟨rfl, rfl, rfl, rfl, fun hn => absurd rfl (hn display), ?_, ?_, ?_⟩
    · rintro _ ⟨⟩; rfl
    · rintro _ ⟨⟩ -; rfl
    · rintro _ ⟨⟩ hn
      exact absurd hcan hn
  | planned => cases h

/-! ## A crop that does not fit -/

/-- Options for a display larger than the small one, to be locked as it first stands. -/
def misfit : Options Float :=
  { Options.standard with crop := some ⟨0, 0, 17, 8⟩, lock := .initial }

/-- A session for them, asked to be set up anew. -/
def misfitSession : Session Float Float32 :=
  ⟨misfit, ⟨false⟩, none, none, false, Invalidation.none.request⟩

theorem prepare_error_misfit :
    (misfitSession.prepare smallDisplay.source).1 = .error (.cropOutside ⟨0, 0, 17, 8⟩ ⟨16, 8⟩) ∧
      Spared misfitSession (smallDisplay.source 0) (misfitSession.prepare smallDisplay.source).2 :=
  ⟨rfl, prepare_error smallDisplay.source misfitSession rfl⟩

/-- A preparation that fails need not leave the session as it was: here it forgets the request, takes
note of the size, and takes the lock. -/
theorem prepare_error_not_atomic :
    ¬ ∀ s₀ : Session Float Float32, new misfit ⟨false⟩ = .ok s₀ → ∀ e,
      (s₀.invalidate.prepare smallDisplay.source).1 = .error e →
        (s₀.invalidate.prepare smallDisplay.source).2.plan = s₀.invalidate.plan ∧
        (s₀.invalidate.prepare smallDisplay.source).2.options = s₀.invalidate.options ∧
        (s₀.invalidate.prepare smallDisplay.source).2.invalidation = s₀.invalidate.invalidation := by
  intro h
  obtain ⟨-, ho, -⟩ := h _ rfl _ rfl
  have hl := congrArg Options.lock ho
  exact absurd hl (by decide)

end RegionCapture.Session
