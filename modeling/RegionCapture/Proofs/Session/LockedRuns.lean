import RegionCapture.Proofs.Session.Rooms
import RegionCapture.Scalar.Exact
/-!
# Locked captures of a display that turns

A session is prepared again and again while its display turns. If its orientation is locked, every
preparation looks the same: the plans take the same room, and a crop that one of them rejects, all of
them reject (`locked_run`). What carries this is that a locked plan is the plan for the display turned
back (`Plan.sizes_natural`), and that turning a display does not change what it is turned back to.
-/

namespace RegionCapture

theorem FixedDisplay.source_eq {d : FixedDisplay} {id : Nat} (h : d.state.id = id) :
    d.source id = .ok (some d.state) := by
  rw [source, if_pos h]

variable {K L : Type} [Coefficient K] [Rotation K]

namespace Session

/-! ## Runs -/

/-- The display turns, or the session is prepared for it as it stands. -/
inductive Event where
  | turn (turns : Nat)
  | prepare
  deriving DecidableEq, Repr

/-- A preparation in a run: how the display stands, what comes out, and what it leaves of the session. -/
structure Preparation (K L : Type) where
  display : DisplayState
  result : Except Fault (Plan K)
  session : Session K L

/-- The preparations of a run, in order. -/
def follow (s : Session K L) (d : FixedDisplay) : List Event → List (Preparation K L)
  | [] => []
  | .turn turns :: l => s.follow (d.rotate turns) l
  | .prepare :: l =>
    ⟨d.state, (s.prepare d.source).1, (s.prepare d.source).2⟩ :: (s.prepare d.source).2.follow d l

/-- Once the orientation is locked to a value, every preparation plans from the same options, for the
same display turned one way or another. -/
theorem follow_value {s : Session K L} {d : FixedDisplay} {o : Options K} (ho : s.options = o)
    (hl : o.lock = .value) (hid : d.state.id = o.displayId) (l : List Event) :
    ∀ a ∈ s.follow d l, a.display.natural = d.state.natural ∧ a.session.options = o ∧
      a.result = Plan.make o a.display := by
  induction l generalizing s d with
  | nil => exact fun a ha => absurd ha List.not_mem_nil
  | cons e l ih =>
    cases e with
    | turn turns =>
      have hrest := ih (d := d.rotate turns) ho hid
      rwa [FixedDisplay.rotate, DisplayState.natural_rotate] at hrest
    | prepare =>
      obtain ⟨hresult, hoptions⟩ := prepare_of_canLock (s := s)
        (FixedDisplay.source_eq (ho ▸ hid)) (fun hi => by rw [ho, hl] at hi; cases hi)
      have hlock : s.options.lockOn d.state = o := by
        rw [ho, Options.lockOn, hl]
      rw [hlock] at hresult hoptions
      intro a ha
      rcases List.mem_cons.1 ha with rfl | ha
      · exact ⟨rfl, hoptions, hresult⟩
      · exact ih hoptions hid a ha

/-- A locked orientation is locked to a value by the first preparation, if it is not yet, and from then
on nothing changes. -/
theorem follow_locked {s : Session K L} {d : FixedDisplay} (hl : s.options.lock.isLocked = true)
    (hid : d.state.id = s.options.displayId) (ht : d.state.turns < 4) (l : List Event) :
    ∃ orientation, (s.options.lock = .value → orientation = s.options.orientation) ∧
      ∀ a ∈ s.follow d l, a.display.natural = d.state.natural ∧
        a.session.options = { s.options with lock := .value, orientation := orientation } ∧
        a.result = Plan.make { s.options with lock := .value, orientation := orientation } a.display := by
  cases hlock : s.options.lock with
  | unlocked => rw [hlock] at hl; cases hl
  | value =>
    have ho : s.options = { s.options with lock := .value } := by rw [← hlock]
    exact ⟨_, fun _ => rfl, follow_value ho rfl hid l⟩
  | initial =>
    induction l generalizing d with
    | nil => exact ⟨.upright, nofun, fun a ha => absurd ha List.not_mem_nil⟩
    | cons e l ih =>
      cases e with
      | turn turns =>
        have hrest := ih (d := d.rotate turns) hid (Nat.mod_lt _ (by decide))
        rwa [FixedDisplay.rotate, DisplayState.natural_rotate] at hrest
      | prepare =>
        -- the lock is taken, and what follows is a run with a lock to a value
        obtain ⟨hresult, hoptions⟩ := prepare_of_canLock (FixedDisplay.source_eq hid) fun _ => ht
        rw [Options.lockOn_initial hlock ht] at hresult hoptions
        refine ⟨⟨false, Fin.ofNat 4 (4 - d.state.turns)⟩, nofun, fun a ha => ?_⟩
        rcases List.mem_cons.1 ha with rfl | ha
        · exact ⟨rfl, hoptions, hresult⟩
        · exact follow_value hoptions rfl hid l a ha

/-- However the display turns between the preparations, with a locked orientation all the plans take the
same room, and a crop that exceeds the display in one preparation exceeds it in all of them. From the first
preparation on, the orientation is locked to a value that never changes. -/
theorem locked_run {s : Session K L} {d : FixedDisplay} (hl : s.options.lock.isLocked = true)
    (hid : d.state.id = s.options.displayId) (ht : d.state.turns < 4) (l : List Event) :
    (∀ a ∈ s.follow d l, ∀ b ∈ s.follow d l, ∀ p q, a.result = .ok p → b.result = .ok q →
      p.room = q.room) ∧
    (∀ a ∈ s.follow d l, ∀ rect size, a.result = .error (.cropOutside rect size) →
      ∃ crop ∈ s.options.crops, ∀ b ∈ s.follow d l,
        b.result = .error (.cropOutside (Plan.area b.display (some crop)) b.display.size)) ∧
    ∃ orientation, (s.options.lock = .value → orientation = s.options.orientation) ∧
      ∀ a ∈ s.follow d l, a.session.options.lock = .value ∧
        a.session.options.orientation = orientation := by
  obtain ⟨orientation, hvalue, hall⟩ := follow_locked hl hid ht l
  generalize ho : ({ s.options with lock := .value, orientation := orientation } : Options K) = o at hall
  have hlocked : o.lock.isLocked = true := by rw [← ho]; rfl
  refine ⟨fun a ha b hb p q hp hq => ?_, fun a ha rect size hr => ?_, orientation, hvalue,
    fun a ha => ?_⟩
  · rw [(hall a ha).2.2] at hp
    rw [(hall b hb).2.2] at hq
    exact Plan.room_eq_of_natural hlocked ((hall a ha).1.trans (hall b hb).1.symm) hp hq
  · rw [(hall a ha).2.2] at hr
    obtain ⟨crop, hm, hrejected⟩ := Plan.exists_crop_of_natural hlocked hr
    refine ⟨crop, by rw [← ho] at hm; exact hm, fun b hb => ?_⟩
    rw [(hall b hb).2.2]
    exact hrejected b.display ((hall b hb).1.trans (hall a ha).1.symm)
  · rw [(hall a ha).2.1, ← ho]
    exact ⟨rfl, rfl⟩

/-! ## A display that goes round -/

open scoped Straight

/-- A session for a crop, locked to the orientation that the display has at first. -/
def lockedSession (crop : Rect) : Session Rat Rat :=
  ⟨{ Options.standard with crop := some crop, lock := .initial }, ⟨false⟩, none, none, false,
    Invalidation.none⟩

/-- Prepared before and after two turns. -/
def goingRound : List Event := [.prepare, .turn 1, .prepare, .turn 2, .prepare]

theorem prepare_lockedSession :
    ((lockedSession ⟨0, 0, 8, 12⟩).prepare turnedDisplay.source).1.map Plan.room =
        .ok ⟨⟨16, 8⟩, [⟨0, 0, 16, 8⟩], false⟩ ∧
      ((lockedSession ⟨0, 0, 12, 8⟩).prepare turnedDisplay.source).1 =
        .error (.cropOutside ⟨0, 0, 8, 12⟩ ⟨16, 8⟩) := by decide +kernel

theorem locked_run_goingRound :
    (lockedSession ⟨0, 0, 8, 12⟩).options.lock.isLocked = true ∧
      turnedDisplay.state.id = (lockedSession ⟨0, 0, 8, 12⟩).options.displayId ∧
      turnedDisplay.state.turns < 4 ∧
      (∀ a ∈ (lockedSession ⟨0, 0, 8, 12⟩).follow turnedDisplay goingRound, ∀ p, a.result = .ok p →
        p.room = ⟨⟨16, 8⟩, [⟨0, 0, 16, 8⟩], false⟩) ∧
      ∀ a ∈ (lockedSession ⟨0, 0, 12, 8⟩).follow turnedDisplay goingRound, ∃ rect size,
        a.result = .error (.cropOutside rect size) := by
  obtain ⟨hfits, hmisfit⟩ := prepare_lockedSession
  refine ⟨rfl, rfl, by decide, fun a ha p hp => ?_, fun a ha => ?_⟩
  · cases hq : ((lockedSession ⟨0, 0, 8, 12⟩).prepare turnedDisplay.source).1 with
    | error e => rw [hq] at hfits; cases hfits
    | ok q =>
      rw [hq] at hfits
      injection hfits with hfits
      rw [← hfits]
      exact (locked_run rfl rfl (by decide) goingRound).1 a ha _ List.mem_cons_self p q hp hq
  · have hrun := locked_run (s := lockedSession ⟨0, 0, 12, 8⟩) (d := turnedDisplay) rfl rfl (by decide)
      goingRound
    obtain ⟨crop, -, hall⟩ := hrun.2.1 _ List.mem_cons_self _ _ hmisfit
    exact ⟨_, _, hall a ha⟩

end Session

end RegionCapture
