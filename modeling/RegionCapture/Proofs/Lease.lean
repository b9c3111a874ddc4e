import Mathlib.Data.List.Chain
/-!
# Leases

Something that can be held by one holder at a time, such as a program or a display: it is acquired,
perhaps in vain, and released before anybody acquires it again. `Lease.Run` says that the steps of a
history are in turn; the theorems after it say what such a history looks like from outside.
-/

namespace RegionCapture

/-- A step in the history of what one holder has at a time. -/
inductive Lease (α : Type) where
  | acquired (a : α)
  /-- An attempt to acquire that fails. -/
  | denied
  | released (a : α)
  deriving DecidableEq, Repr

namespace Lease

variable {α : Type}

/-- The steps are in turn, from one holder to another: nothing is acquired, or asked for, while it is
held, and only what is held is released. -/
inductive Run : Option α → List (Lease α) → Option α → Prop
  | nil {h} : Run h [] h
  | acquired {a l h} (rest : Run (some a) l h) : Run none (acquired a :: l) h
  | denied {l h} (rest : Run none l h) : Run none (denied :: l) h
  | released {a l h} (rest : Run none l h) : Run (some a) (released a :: l) h

/-- What has been acquired, in order. -/
def acquisitions (l : List (Lease α)) : List α :=
  l.filterMap fun | acquired a => some a | _ => none

/-- What has been released, in order. -/
def releases (l : List (Lease α)) : List α :=
  l.filterMap fun | released a => some a | _ => none

/-- What has been acquired and not released. -/
def outstanding [DecidableEq α] (l : List (Lease α)) : List α :=
  (acquisitions l).filter fun a => a ∉ releases l

/-- The steps that succeed: `true` for an acquisition, `false` for a release. -/
def successes (l : List (Lease α)) : List Bool :=
  l.filterMap fun | acquired _ => some true | denied => none | released _ => some false

/-! ## Histories in turn -/

variable {h h' h'' : Option α} {l l' : List (Lease α)}

theorem Run.trans (hr : Run h l h') (hr' : Run h' l' h'') : Run h (l ++ l') h'' := by
  induction hr with
  | nil => exact hr'
  | acquired _ ih => exact .acquired (ih hr')
  | denied _ ih => exact .denied (ih hr')
  | released _ ih => exact .released (ih hr')

theorem Run.split (hr : Run h (l ++ l') h'') : ∃ h', Run h l h' ∧ Run h' l' h'' := by
  induction l generalizing h with
  | nil => exact ⟨h, .nil, hr⟩
  | cons s l ih =>
    cases hr with
    | acquired rest => obtain ⟨h', h₁, h₂⟩ := ih rest; exact ⟨h', .acquired h₁, h₂⟩
    | denied rest => obtain ⟨h', h₁, h₂⟩ := ih rest; exact ⟨h', .denied h₁, h₂⟩
    | released rest => obtain ⟨h', h₁, h₂⟩ := ih rest; exact ⟨h', .released h₁, h₂⟩

/-- Everything acquired is released in the same order, up to what is held in the end. -/
theorem Run.acquisitions_eq (hr : Run h l h') :
    h.toList ++ acquisitions l = releases l ++ h'.toList := by
  induction hr with
  | nil => simp [acquisitions, releases]
  | acquired _ ih => simpa [acquisitions, releases] using ih
  | denied _ ih => simpa [acquisitions, releases] using ih
  | released _ ih => simpa [acquisitions, releases] using ih

/-- If nothing is acquired twice, then what is acquired and not released is what is held. -/
theorem Run.outstanding_eq [DecidableEq α] (hr : Run none l h) (hn : (acquisitions l).Nodup) :
    outstanding l = h.toList := by
  have he : acquisitions l = releases l ++ h.toList := by simpa using hr.acquisitions_eq
  rw [he] at hn
  -- what is released has been acquired before what is held, so it is something else
  obtain ⟨-, -, hd⟩ := List.nodup_append.1 hn
  have hl : (releases l).filter (fun a => decide (a ∉ releases l)) = [] := by
    rw [List.filter_eq_nil_iff]
    intro a ha
    simp [ha]
  have hh : h.toList.filter (fun a => decide (a ∉ releases l)) = h.toList := by
    rw [List.filter_eq_self]
    intro a ha
    simpa using fun hm => hd a hm a ha rfl
  rw [outstanding, he, List.filter_append, hl, hh, List.nil_append]

theorem Run.nodup_releases (hr : Run none l h) (hn : (acquisitions l).Nodup) :
    (releases l).Nodup := by
  have he : acquisitions l = releases l ++ h.toList := by simpa using hr.acquisitions_eq
  rw [he] at hn
  exact (List.nodup_append.1 hn).1

/-- What is released is held until then. -/
theorem Run.before_released {a : α} (hr : Run none (l ++ .released a :: l') h) :
    Run none l (some a) := by
  obtain ⟨h', hl, hr'⟩ := hr.split
  cases hr'
  exact hl

theorem Run.before_asked {s : Lease α} (hr : Run none (l ++ s :: l') h)
    (hs : ∀ a, s ≠ .released a) : Run none l none := by
  obtain ⟨h', hl, hr'⟩ := hr.split
  cases hr' with
  | acquired => exact hl
  | denied => exact hl
  | released => exact absurd rfl (hs _)

theorem Run.mem_acquisitions {a : α} (hr : Run none (l ++ .released a :: l') h) :
    a ∈ acquisitions l := by
  have he : acquisitions l = releases l ++ [a] := by simpa using hr.before_released.acquisitions_eq
  rw [he]
  exact List.mem_append_right _ (List.mem_singleton.2 rfl)

/-- If nothing is acquired twice, then at no moment is more than one thing acquired and not
released. -/
theorem Run.length_outstanding_le [DecidableEq α] (hr : Run none (l ++ l') h)
    (hn : (acquisitions (l ++ l')).Nodup) : (outstanding l).length ≤ 1 := by
  obtain ⟨h', hl, -⟩ := hr.split
  simp only [acquisitions, List.filterMap_append] at hn
  rw [hl.outstanding_eq (List.nodup_append.1 hn).1]
  cases h' <;> simp

theorem Run.isChain_successes (hr : Run h l h') : (h.isSome :: successes l).IsChain (· ≠ ·) := by
  induction hr with
  | nil => exact .singleton _
  | acquired _ ih => simpa [successes] using ih
  | denied _ ih => simpa [successes] using ih
  | released _ ih => simpa [successes] using ih

/-- The last successful step tells whether there is a holder. -/
theorem Run.getLast?_successes (hr : Run h l h') :
    (h.isSome :: successes l).getLast? = some h'.isSome := by
  induction hr with
  | nil => rfl
  | acquired _ ih => simpa [successes, List.getLast?_cons] using ih
  | denied _ ih => simpa [successes] using ih
  | released _ ih => simpa [successes, List.getLast?_cons] using ih

theorem Run.isSome_iff (hr : Run none l h) :
    h.isSome = true ↔ (successes l).getLast? = some true := by
  have hl := hr.getLast?_successes
  rw [List.getLast?_cons] at hl
  cases hs : (successes l).getLast? <;> rw [hs] at hl <;> cases h <;> simp_all

end Lease

end RegionCapture
