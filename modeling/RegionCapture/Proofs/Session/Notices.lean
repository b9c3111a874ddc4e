import Mathlib.Data.List.TakeWhile
import RegionCapture.Proofs.Session.Journal
import RegionCapture.Proofs.Session.Prepared
/-!
# Sessions that should be set up anew

A session is told of things by whoever calls it, and by everybody who holds a clone of its handle. What it
remembers is a summary of everything since the last preparation that found its display
(`Session.invalidated_iff`): whether it was asked for, or told a size other than the one that preparation
read.
-/

namespace RegionCapture

/-- Something done with a session: one of its operations, or a call through a clone of its handle. -/
inductive Act (L : Type) where
  | operation (op : Operation L)
  | request (clone : Nat)
  | notify (clone : Nat) (size : Size)

namespace Act

variable {L : Type}

/-- The session is asked to be set up anew, by itself or through a clone. -/
def Requests : Act L → Prop
  | operation .invalidate | request _ => True
  | _ => False

/-- The session is told the size of its display, by itself or through a clone. -/
def Tells (size : Size) : Act L → Prop
  | operation (.notify told) | notify _ told => told = size
  | _ => False

/-- The display that a preparation finds, if it does, for a session of the display with this number. What
becomes of the preparation after that does not matter. -/
def found? (id : Nat) : Act L → Option DisplayState
  | operation (.prepare source) =>
    match source id with
    | .ok display => display
    | .error _ => none
  | _ => none

/-- The act asks for a new set-up, by itself or by a size that is not the one prepared for. As long as
nothing is prepared, sizes ask for nothing. -/
def Asks (prepared : Option Size) (a : Act L) : Prop :=
  a.Requests ∨ ∃ size told, prepared = some size ∧ a.Tells told ∧ told ≠ size

/-- What has been done since the last preparation that found its display, and the size that it read:
everything, and none, if there was no such preparation. -/
inductive Since (id : Nat) : List (Act L) → Option Size → List (Act L) → Prop
  | never {l} (unfound : ∀ a ∈ l, a.found? id = none) : Since id l none l
  | last {pre a post display} (found : a.found? id = some display)
      (unfound : ∀ b ∈ post, b.found? id = none) :
      Since id (pre ++ a :: post) (some display.size) post

theorem Since.snoc {id : Nat} {l post : List (Act L)} {prepared : Option Size}
    (h : Since id l prepared post) {a : Act L} (ha : a.found? id = none) :
    Since id (l ++ [a]) prepared (post ++ [a]) := by
  have hsnoc {l : List (Act L)} (hl : ∀ b ∈ l, b.found? id = none) :
      ∀ b ∈ l ++ [a], b.found? id = none := by
    intro b hb
    rcases List.mem_append.1 hb with hb | hb
    · exact hl b hb
    · rwa [List.mem_singleton.1 hb]
  cases h with
  | never unfound => exact .never (hsnoc unfound)
  | last found unfound =>
    rw [List.append_assoc, List.cons_append]
    exact .last found (hsnoc unfound)

/-- Looked at from the end, the first preparation that found its display settles both. -/
theorem Since.eq_lookBack {id : Nat} {l post : List (Act L)} {prepared : Option Size}
    (h : Since id l prepared post) :
    prepared = (l.reverse.findSome? (found? id)).map DisplayState.size ∧
      post = (l.reverse.takeWhile fun a => (a.found? id).isNone).reverse := by
  cases h with
  | never unfound =>
    have hnone : l.reverse.findSome? (found? id) = none :=
      List.findSome?_eq_none_iff.2 fun a ha => unfound a (List.mem_reverse.1 ha)
    have hall : l.reverse.takeWhile (fun a => (a.found? id).isNone) = l.reverse :=
      List.takeWhile_eq_self_iff.2 fun a ha => by simp [unfound a (List.mem_reverse.1 ha)]
    simp [hnone, hall]
  | @last pre a post display found unfound =>
    have hnone : post.reverse.findSome? (found? id) = none :=
      List.findSome?_eq_none_iff.2 fun b hb => unfound b (List.mem_reverse.1 hb)
    have hall : ∀ b ∈ post.reverse, (b.found? id).isNone = true :=
      fun b hb => by simp [unfound b (List.mem_reverse.1 hb)]
    simp only [List.reverse_append, List.reverse_cons, List.append_assoc, List.singleton_append,
      List.findSome?_append, hnone, List.findSome?_cons, found, List.takeWhile_append_of_pos hall,
      List.takeWhile_cons]
    simp

theorem Since.unique {id : Nat} {l post post' : List (Act L)} {prepared prepared' : Option Size}
    (h : Since id l prepared post) (h' : Since id l prepared' post') :
    prepared = prepared' ∧ post = post' := by
  obtain ⟨rfl, rfl⟩ := h.eq_lookBack
  obtain ⟨rfl, rfl⟩ := h'.eq_lookBack
  exact ⟨rfl, rfl⟩

end Act

namespace Rig

variable {K L β δ : Type} [Coefficient K] [Rotation K] [Scalar L] [Narrowing K L]

/-- One act. A clone of the handle reaches what the session itself remembers. -/
def act (r : Renderer L β) (k : Sink δ) (g : Rig K L β δ) : Act L → Rig K L β δ
  | .operation op => (g.perform r k op).2
  | .request _ =>
    { g with session := { g.session with invalidation := g.session.invalidation.request } }
  | .notify _ size =>
    { g with session := { g.session with invalidation := g.session.invalidation.notify size } }

/-- Acts one after the other, whatever they give. -/
def actAll (r : Renderer L β) (k : Sink δ) (g : Rig K L β δ) (l : List (Act L)) : Rig K L β δ :=
  l.foldl (fun g a => g.act r k a) g

variable {r : Renderer L β} {k : Sink δ}

theorem actAll_snoc (g : Rig K L β δ) (l : List (Act L)) (a : Act L) :
    g.actAll r k (l ++ [a]) = (g.actAll r k l).act r k a := by
  simp [actAll]

end Rig

namespace Invalidation

theorem requested_notify (i : Invalidation) (told : Size) :
    (i.notify told).requested = true ↔
      i.requested = true ∨ ∃ size, i.displaySize = some size ∧ told ≠ size := by
  unfold notify
  cases i.displaySize with
  | none => simp
  | some prepared =>
    by_cases hsame : prepared = told
    · simp [hsame]
    · simp [hsame, request, Ne.symm hsame]

@[simp] theorem displaySize_notify (i : Invalidation) (told : Size) :
    (i.notify told).displaySize = i.displaySize := by
  unfold notify
  split
  · split <;> rfl
  · rfl

end Invalidation

namespace Session

variable {K L β δ : Type} [Coefficient K] [Rotation K] [Scalar L] [Narrowing K L]
variable {r : Renderer L β} {k : Sink δ}

/-- Neither preparing nor asking nor telling. -/
def Unconcerned : Operation L → Prop
  | .prepare _ | .invalidate | .notify _ => False
  | _ => True

/-- Whatever else is done leaves what is remembered as it was. -/
theorem invalidation_perform (g : Rig K L β δ) {op : Operation L} (ho : Unconcerned op) :
    (g.perform r k op).2.session.invalidation = g.session.invalidation := by
  cases op with
  | prepare | invalidate | notify => exact ho.elim
  | setMaxSize => rfl
  | start =>
    obtain ⟨c, attached, hs⟩ := g.session.start_session r k g.renderer g.sink
    simp only [Rig.perform, hs]
  | render frame =>
    obtain ⟨c, hs⟩ := g.session.render_session r frame g.renderer
    simp only [Rig.perform, hs]
  | stop => simp only [Rig.perform, stop_fst]
  | release => simp only [Rig.perform, release_fst]

omit [Scalar L] [Narrowing K L] in
/-- A preparation that finds its display remembers its size and forgets everything else; any other
changes nothing. -/
theorem invalidation_prepare (s : Session K L) (source : DisplaySource) :
    (s.prepare source).2.invalidation =
      match Act.found? s.options.displayId (.operation (.prepare source) : Act L) with
      | some display => s.invalidation.reset display.size
      | none => s.invalidation := by
  have hc := s.prepare_cases source
  simp only [Act.found?]
  generalize source s.options.displayId = answer, s.prepare source = out at hc ⊢
  cases hc <;> rfl

/-! ## Runs -/

/-- What is remembered after acts: the size that the last preparation read that found its display, and
whether one of the acts since then asked for a new set-up. -/
structure Remembers (id : Nat) (l : List (Act L)) (prepared : Option Size) (post : List (Act L))
    (s : Session K L) : Prop where
  display : s.options.displayId = id
  since : Act.Since id l prepared post
  size : s.invalidation.displaySize = prepared
  asked : s.isInvalidated = true ↔ ∃ a ∈ post, a.Asks prepared

theorem displayId_perform (g : Rig K L β δ) (op : Operation L) :
    (g.perform r k op).2.session.options.displayId = g.session.options.displayId := by
  obtain ⟨n, lock, orientation, ho⟩ := sameView_perform (r := r) (k := k) g op ⟨_, _, _, rfl⟩
  rw [ho]

section

variable {id : Nat} {l post : List (Act L)} {prepared : Option Size} {g : Rig K L β δ}

/-- An act that finds no display is one more since the last preparation that did. -/
theorem Remembers.unfound (h : Remembers id l prepared post g.session) {a : Act L}
    (ha : a.found? id = none) (hid : (g.act r k a).session.options.displayId = id)
    (hsize : (g.act r k a).session.invalidation.displaySize = g.session.invalidation.displaySize)
    (hasked : (g.act r k a).session.isInvalidated = true ↔
      g.session.isInvalidated = true ∨ a.Asks prepared) :
    Remembers id (l ++ [a]) prepared (post ++ [a]) (g.act r k a).session where
  display := hid
  since := h.since.snoc ha
  size := hsize.trans h.size
  asked := by
    rw [hasked, h.asked]
    simp only [List.mem_append, List.mem_singleton, or_and_right, exists_or, exists_eq_left]

omit [Scalar L] in
theorem not_asks_of_unconcerned {op : Operation L} (ho : Unconcerned op) :
    ¬ (Act.operation op).Asks prepared := by
  rintro (h | ⟨size, told, -, h, -⟩)
  · cases op <;> first | exact h | exact ho
  · cases op <;> first | exact h | exact ho

/-- A request, whoever makes it. -/
theorem Remembers.request (h : Remembers id l prepared post g.session) {a : Act L}
    (ha : a.found? id = none) (hr : a.Requests) (hact : g.act r k a =
      { g with session := { g.session with invalidation := g.session.invalidation.request } }) :
    Remembers id (l ++ [a]) prepared (post ++ [a]) (g.act r k a).session := by
  refine h.unfound ha ?_ ?_ ?_
  · rw [hact]
    exact h.display
  · rw [hact]
    rfl
  · rw [hact]
    exact ⟨fun _ => .inr (.inl hr), fun _ => rfl⟩

/-- A size that is told, whoever tells it. -/
theorem Remembers.notify (h : Remembers id l prepared post g.session) {a : Act L} {told : Size}
    (ha : a.found? id = none) (hasks : a.Asks prepared ↔ ∃ size, prepared = some size ∧ told ≠ size)
    (hact : g.act r k a =
      { g with session := { g.session with invalidation := g.session.invalidation.notify told } }) :
    Remembers id (l ++ [a]) prepared (post ++ [a]) (g.act r k a).session := by
  refine h.unfound ha ?_ ?_ ?_
  · rw [hact]
    exact h.display
  · rw [hact]
    exact Invalidation.displaySize_notify _ _
  · rw [hact, hasks, ← h.size]
    exact Invalidation.requested_notify _ _

theorem Remembers.prepare (h : Remembers id l prepared post g.session) (source : DisplaySource) :
    ∃ prepared' post', Remembers id (l ++ [.operation (.prepare source)]) prepared' post'
      (g.act r k (.operation (.prepare source))).session := by
  have hid := (displayId_perform (r := r) (k := k) g (.prepare source)).trans h.display
  have hkept := g.session.invalidation_prepare source
  rw [h.display] at hkept
  cases hf : Act.found? id (.operation (.prepare source) : Act L) with
  | some display =>
    rw [hf] at hkept
    refine ⟨_, _, hid, .last hf fun b hb => absurd hb List.not_mem_nil, congrArg _ hkept, ?_⟩
    have hreset : (g.act r k (.operation (.prepare source))).session.isInvalidated = false :=
      congrArg Invalidation.requested hkept
    simp [hreset]
  | none =>
    rw [hf] at hkept
    refine ⟨_, _, h.unfound hf hid (congrArg _ hkept) ?_⟩
    have hsame : (g.act r k (.operation (.prepare source))).session.isInvalidated =
        g.session.isInvalidated := congrArg Invalidation.requested hkept
    have hasks : ¬ (Act.operation (.prepare source) : Act L).Asks prepared := by
      rintro (h | ⟨_, _, -, h, -⟩) <;> exact h
    simp [hsame, hasks]

theorem Remembers.act (h : Remembers id l prepared post g.session) (a : Act L) :
    ∃ prepared' post', Remembers id (l ++ [a]) prepared' post' (g.act r k a).session := by
  have hother {op : Operation L} (hf : (Act.operation op).found? id = none) (ho : Unconcerned op) :
      ∃ prepared' post', Remembers id (l ++ [.operation op]) prepared' post'
        (g.act r k (.operation op)).session := by
    have hkept := invalidation_perform (r := r) (k := k) g ho
    have hsame : (g.act r k (.operation op)).session.isInvalidated = g.session.isInvalidated :=
      congrArg Invalidation.requested hkept
    refine ⟨_, _, h.unfound hf ((displayId_perform g op).trans h.display) (congrArg _ hkept) ?_⟩
    simp [hsame, not_asks_of_unconcerned ho]
  cases a with
  | request clone => exact ⟨_, _, h.request rfl trivial rfl⟩
  | notify clone told => exact ⟨_, _, h.notify rfl (by simp [Act.Asks, Act.Requests, Act.Tells]) rfl⟩
  | operation op =>
    cases op with
    | prepare source => exact h.prepare source
    | invalidate => exact ⟨_, _, h.request rfl trivial rfl⟩
    | notify told => exact ⟨_, _, h.notify rfl (by simp [Act.Asks, Act.Requests, Act.Tells]) rfl⟩
    | setMaxSize | start | render | stop | release => exact hother rfl trivial

end

/-- After any acts, what a session remembers is a summary of those since the last preparation that found
its display. -/
theorem remembers_run {o : Options K} {c : Capabilities} {s₀ : Session K L} (h₀ : new o c = .ok s₀)
    (b₀ : β) (d₀ : δ) (l : List (Act L)) : ∃ prepared post,
      Remembers o.displayId l prepared post (Rig.actAll r k ⟨s₀, b₀, d₀⟩ l).session := by
  induction l using List.reverseRecOn with
  | nil =>
    refine ⟨none, [], ?_⟩
    rw [new_eq h₀]
    exact ⟨rfl, .never fun a ha => absurd ha List.not_mem_nil, rfl, by simp [Rig.actAll,
      isInvalidated, Invalidation.none]⟩
  | append_singleton l a ih =>
    obtain ⟨prepared, post, h⟩ := ih
    rw [Rig.actAll_snoc]
    exact h.act a

/-- Whatever is done with a new session, by itself or through clones of its handle, it should be set up
anew exactly if one of the acts since the last preparation that found its display asks for it: a request,
or a size that is told and is not the one which that preparation read. No other operation, in any state,
changes whether it should. -/
theorem invalidated_iff {o : Options K} {c : Capabilities} {s₀ : Session K L} (h₀ : new o c = .ok s₀)
    (b₀ : β) (d₀ : δ) (l : List (Act L)) :
    ((Rig.actAll r k ⟨s₀, b₀, d₀⟩ l).session.isInvalidated = true ↔
      ∃ prepared post, Act.Since o.displayId l prepared post ∧ ∃ a ∈ post, a.Asks prepared) ∧
    ∀ (g : Rig K L β δ) (op : Operation L), Unconcerned op →
      (g.perform r k op).2.session.isInvalidated = g.session.isInvalidated := by
  refine ⟨?_, fun g op ho => congrArg Invalidation.requested (invalidation_perform g ho)⟩
  obtain ⟨prepared, post, h⟩ := remembers_run (r := r) (k := k) h₀ b₀ d₀ l
  rw [h.asked]
  constructor
  · exact fun hasked => ⟨prepared, post, h.since, hasked⟩
  · rintro ⟨prepared', post', hsince, hasked⟩
    obtain ⟨rfl, rfl⟩ := h.since.unique hsince
    exact hasked

/-- A size is told before anything is prepared, and another one afterwards, through a clone. -/
theorem invalidated_iff_resized :
    new Options.standard ⟨false⟩ = .ok untouched ∧
      Unconcerned (.setMaxSize 8 : Operation Float32) ∧
      (Rig.actAll (Renderer.numbering Float32) FixedDisplay.sink ⟨untouched, 0, smallDisplay⟩
        [.notify 0 ⟨1, 1⟩]).session.isInvalidated = false ∧
      (Rig.actAll (Renderer.numbering Float32) FixedDisplay.sink ⟨untouched, 0, smallDisplay⟩
        [.notify 0 ⟨1, 1⟩, .operation (.prepare smallDisplay.source), .operation (.setMaxSize 8),
          .notify 1 ⟨8, 16⟩]).session.isInvalidated = true := by
  refine ⟨rfl, trivial, ?_, ?_⟩
  · rw [← Bool.not_eq_true, (invalidated_iff new_untouched 0 smallDisplay _).1]
    rintro ⟨_, _, hsince, a, ha, hasks⟩
    obtain ⟨rfl, rfl⟩ := hsince.unique (.never (by simp [Act.found?]))
    obtain rfl := List.mem_singleton.1 ha
    simp [Act.Asks, Act.Requests] at hasks
  · rw [(invalidated_iff new_untouched 0 smallDisplay _).1]
    refine ⟨some ⟨16, 8⟩, [.operation (.setMaxSize 8), .notify 1 ⟨8, 16⟩], ?_, .notify 1 ⟨8, 16⟩,
      by simp, .inr ⟨⟨16, 8⟩, ⟨8, 16⟩, rfl, rfl, by decide⟩⟩
    exact @Act.Since.last _ _ [.notify 0 ⟨1, 1⟩] (.operation (.prepare smallDisplay.source)) _
      smallDisplay.state rfl (by simp [Act.found?])

end Session

end RegionCapture
