import RegionCapture.CommandLine.Run
import RegionCapture.Proofs.Document.Options
/-!
# Options of a command line

The options that a command captures with are those of its file, or the standard ones, with the fields
replaced that flags are given for (`CommandLine.options_merged`). Every text that is given has to be
readable, the file has to make sense by itself, and so does what comes out.
-/

namespace RegionCapture

namespace Options

/-- A crop begins inside, and its edges are not crossed. -/
def CropSound (crop : Option Rect) : Prop :=
  ∀ r, crop = some r → (0 ≤ r.left ∧ 0 ≤ r.top) ∧ 0 ≤ r.width ∧ 0 ≤ r.height

/-- The options make sense, whatever the display. -/
structure Sound (o : Options Float) : Prop where
  angle : o.angle.isFinite = true
  crop : CropSound o.crop
  crop2 : CropSound o.crop2

theorem checkCrop_eq_ok_iff {field : String} {crop : Option Rect} :
    checkCrop field crop = .ok () ↔ CropSound crop := by
  cases crop with
  | none => simp [checkCrop, CropSound]
  | some r =>
    simp only [checkCrop, CropSound, Option.some.injEq, forall_eq', Bool.or_eq_true,
      decide_eq_true_eq]
    split
    · next hout => exact ⟨nofun, fun h => by omega⟩
    · split
      · next hcrossed => exact ⟨nofun, fun h => by omega⟩
      · exact ⟨fun _ => by omega, fun _ => rfl⟩

theorem validate_eq_ok_iff {o : Options Float} : o.validate = .ok () ↔ o.Sound := by
  have hangle : Coefficient.isFinite o.angle = o.angle.isFinite := rfl
  have hcrops : (checkCrop "crop" o.crop >>= fun _ => checkCrop "crop_region2" o.crop2) = .ok () ↔
      CropSound o.crop ∧ CropSound o.crop2 := by
    rw [bind_eq_ok]
    constructor
    · rintro ⟨⟨⟩, hcrop, hcrop2⟩
      exact ⟨checkCrop_eq_ok_iff.1 hcrop, checkCrop_eq_ok_iff.1 hcrop2⟩
    · rintro ⟨hcrop, hcrop2⟩
      exact ⟨(), checkCrop_eq_ok_iff.2 hcrop, checkCrop_eq_ok_iff.2 hcrop2⟩
  unfold validate
  rw [hangle]
  cases hfinite : o.angle.isFinite with
  | false =>
    refine ⟨nofun, fun h => ?_⟩
    rw [h.angle] at hfinite
    cases hfinite
  | true => exact hcrops.trans ⟨fun ⟨h, h2⟩ => ⟨hfinite, h, h2⟩, fun h => ⟨h.crop, h.crop2⟩⟩

end Options

namespace CommandLine

/-- The options that the flags start from: those of the file if one is given, which has to be a document
that makes sense by itself, and the standard ones otherwise. -/
def StartsFrom (files : Files) (flags : CaptureFlags) (base : Options Float) : Prop :=
  match flags.optionsFile with
  | none => base = .standard
  | some path => ∃ bytes, files.bytes path = .ok (some bytes) ∧
      (Json.read? (Json.symbolsOfBytes bytes)).bind Options.ofJson? = some base ∧ base.Sound

/-- What is read from the text of a flag: nothing if the flag is not given. -/
def Reads {α : Type} (read : String → Except Fault α) (given : Option String) (value : Option α) : Prop :=
  match given with
  | none => value = none
  | some text => ∃ a, read text = .ok a ∧ value = some a

/-- Values in place of those of a file. -/
structure Overrides where
  crop : Option Rect
  crop2 : Option Rect
  orientation : Option (OrientationLock × Orientation)
  angle : Option Float
  maxSize : Option Nat

/-- The values are those of the flags that are given. -/
structure Overrides.ReadFrom (v : Overrides) (flags : CaptureFlags) : Prop where
  crop : Reads Rect.ofCrop flags.crop v.crop
  crop2 : Reads Rect.ofCrop flags.crop2 v.crop2
  orientation : Reads orientationChoice flags.orientation v.orientation
  angle : v.angle = flags.angle
  maxSize : v.maxSize = flags.maxSize

/-- Options with values put in the place of their own, field by field. -/
def Overrides.over (v : Overrides) (base : Options Float) : Options Float where
  displayId := base.displayId
  maxSize := v.maxSize.getD base.maxSize
  crop := v.crop.or base.crop
  crop2 := v.crop2.or base.crop2
  lock := (v.orientation.map Prod.fst).getD base.lock
  orientation := (v.orientation.map Prod.snd).getD base.orientation
  angle := v.angle.getD base.angle

/-! ## One step -/

theorem readOptions_eq_ok_iff {files : Files} {path : String} {o : Options Float} :
    readOptions files path = .ok o ↔ ∃ bytes, files.bytes path = .ok (some bytes) ∧
      (Json.read? (Json.symbolsOfBytes bytes)).bind Options.ofJson? = some o ∧ o.Sound := by
  unfold readOptions
  rcases files.bytes path with cause | _ | bytes
  · simp
  · simp
  · simp only [mapError_eq_ok, Options.ofBytes, Options.ofSymbols, Except.ok.injEq,
      Option.some.injEq, exists_eq_left', ← Options.validate_eq_ok_iff]
    cases (Json.read? (Json.symbolsOfBytes bytes)).bind Options.ofJson? with
    | none => simp
    | some read =>
      simp only [map_eq_ok, Option.some.injEq]
      constructor
      · rintro ⟨⟨⟩, hvalid, rfl⟩
        exact ⟨rfl, hvalid⟩
      · rintro ⟨rfl, hvalid⟩
        exact ⟨(), hvalid, rfl⟩

/-- A flag whose text is read: what is read is put into the options. -/
theorem override_read_eq_ok_iff {α : Type} {read : String → Except Fault α} {name : String}
    {put : α → Options Float → Options Float} {text : Option String} {o o' : Options Float} :
    override text (fun t o => ((read t).map fun a => put a o).mapError (.option name)) o = .ok o' ↔
      ∃ value, Reads read text value ∧ value.elim o (put · o) = o' := by
  cases text with
  | none => simp [override, Reads]
  | some t =>
    simp only [override, Reads, mapError_eq_ok, map_eq_ok]
    constructor
    · rintro ⟨a, ha, rfl⟩
      exact ⟨some a, ⟨a, ha, rfl⟩, rfl⟩
    · rintro ⟨_, ⟨a, ha, rfl⟩, rfl⟩
      exact ⟨a, ha, rfl⟩

theorem override_ok {α : Type} (put : α → Options Float → Options Float) (value : Option α)
    (o : Options Float) :
    override value (fun a o => .ok (put a o)) o = .ok (value.elim o (put · o)) := by
  cases value <;> rfl

/-! ## All steps -/

/-- The fields replaced that flags are given for, one after the other, and then looked at. -/
def replaced (flags : CaptureFlags) (o : Options Float) : Except Failure (Options Float) := do
  let o ← override flags.crop (fun text o =>
    ((Rect.ofCrop text).map fun r => { o with crop := some r }).mapError (.option "crop")) o
  let o ← override flags.crop2 (fun text o =>
    ((Rect.ofCrop text).map fun r => { o with crop2 := some r }).mapError (.option "crop2")) o
  let o ← override flags.orientation (fun text o =>
    (o.orient text).mapError (.option "capture-orientation")) o
  let o ← override flags.angle (fun angle o => .ok { o with angle := angle }) o
  let o ← override flags.maxSize (fun maxSize o => .ok { o with maxSize := maxSize }) o
  (o.validate.map fun _ => o).mapError .fault

theorem captureOptions_eq (files : Files) (flags : CaptureFlags) : captureOptions files flags =
    (match flags.optionsFile with
      | some path => readOptions files path
      | none => .ok Options.standard) >>= replaced flags := by
  unfold captureOptions
  cases flags.optionsFile <;> rfl

theorem replaced_eq_ok_iff {flags : CaptureFlags} {base o : Options Float} :
    replaced flags base = .ok o ↔
      ∃ v : Overrides, v.ReadFrom flags ∧ (v.over base).Sound ∧ o = v.over base := by
  have horient (text : String) (o : Options Float) :
      o.orient text = (orientationChoice text).map fun c =>
        { o with lock := c.1, orientation := c.2 } := rfl
  have hvalid (o' : Options Float) :
      ((o'.validate.map fun _ => o').mapError Failure.fault) = .ok o ↔ o'.Sound ∧ o' = o := by
    simp only [mapError_eq_ok, map_eq_ok, ← Options.validate_eq_ok_iff]
    exact ⟨fun ⟨⟨⟩, h⟩ => h, fun h => ⟨(), h⟩⟩
  -- what each flag puts in, as an update of one or two fields
  have hcrop (value : Option Rect) (o : Options Float) :
      value.elim o (fun r => { o with crop := some r }) = { o with crop := value.or o.crop } := by
    cases value <;> rfl
  have hcrop2 (value : Option Rect) (o : Options Float) :
      value.elim o (fun r => { o with crop2 := some r }) = { o with crop2 := value.or o.crop2 } := by
    cases value <;> rfl
  have hchoice (value : Option (OrientationLock × Orientation)) (o : Options Float) :
      value.elim o (fun c => { o with lock := c.1, orientation := c.2 }) =
        { o with
          lock := (value.map Prod.fst).getD o.lock
          orientation := (value.map Prod.snd).getD o.orientation } := by
    cases value <;> rfl
  have hangle (value : Option Float) (o : Options Float) :
      value.elim o (fun angle => { o with angle := angle }) =
        { o with angle := value.getD o.angle } := by
    cases value <;> rfl
  have hmaxSize (value : Option Nat) (o : Options Float) :
      value.elim o (fun maxSize => { o with maxSize := maxSize }) =
        { o with maxSize := value.getD o.maxSize } := by
    cases value <;> rfl
  simp only [replaced, bind_eq_ok, horient, override_ok, Except.ok.injEq, exists_eq_left', hvalid,
    override_read_eq_ok_iff, hcrop, hcrop2, hchoice, hangle, hmaxSize]
  constructor
  · rintro ⟨_, ⟨crop, hc, rfl⟩, _, ⟨crop2, hc2, rfl⟩, _, ⟨choice, ho, rfl⟩, hsound, rfl⟩
    exact ⟨⟨crop, crop2, choice, flags.angle, flags.maxSize⟩, ⟨hc, hc2, ho, rfl, rfl⟩, hsound, rfl⟩
  · rintro ⟨⟨crop, crop2, choice, _, _⟩, ⟨hc, hc2, ho, rfl, rfl⟩, hsound, rfl⟩
    exact ⟨_, ⟨crop, hc, rfl⟩, _, ⟨crop2, hc2, rfl⟩, _, ⟨choice, ho, rfl⟩, hsound, rfl⟩

theorem captureOptions_eq_ok_iff {files : Files} {flags : CaptureFlags} {o : Options Float} :
    captureOptions files flags = .ok o ↔ ∃ base, ∃ v : Overrides, StartsFrom files flags base ∧
      v.ReadFrom flags ∧ (v.over base).Sound ∧ o = v.over base := by
  rw [captureOptions_eq, bind_eq_ok]
  unfold StartsFrom
  cases flags.optionsFile with
  | none => simp [replaced_eq_ok_iff]
  | some path => simp only [readOptions_eq_ok_iff, replaced_eq_ok_iff, exists_and_left]

/-! ## The merge -/

/-- The options of a command are what its flags are read as over what it starts from, field by field, if
that makes sense, and there are none otherwise. A session is created from them on every device. -/
theorem options_merged (files : Files) (flags : CaptureFlags) :
    (∀ o, captureOptions files flags = .ok o ↔ ∃ base, ∃ v : Overrides, StartsFrom files flags base ∧
      v.ReadFrom flags ∧ (v.over base).Sound ∧ o = v.over base) ∧
    ∀ o, captureOptions files flags = .ok o →
      ∀ c, ∃ s : Session Float Float32, Session.new o c = .ok s ∧ s.options = o := by
  refine ⟨fun o => captureOptions_eq_ok_iff, fun o h c => ?_⟩
  obtain ⟨base, v, -, -, hsound, rfl⟩ := captureOptions_eq_ok_iff.1 h
  refine ⟨⟨v.over base, c, none, none, false, .none⟩, ?_, rfl⟩
  rw [Session.new, Options.validate_eq_ok_iff.2 hsound]
  rfl

/-- A document with a part of a display, tilted. -/
def tiltedPart : String :=
  "\x7b\"angle\":30,\"crop\":\x7b\"left\":1,\"top\":2,\"right\":30,\"bottom\":40\x7d\x7d"

/-- There is only one file, that document. -/
def partFile : Files where
  bytes path := if path = "part.json" then .ok (some tiltedPart.toUTF8) else .error "No such file"

/-- Another part is put beside the one of the file, and the orientation is locked. -/
def partFlags : CaptureFlags where
  optionsFile := some "part.json"
  turns := 1
  crop := none
  crop2 := some "8:8:0:0"
  orientation := some "@flip90"
  angle := none
  maxSize := some 100

theorem options_merged_partFile :
    captureOptions partFile partFlags =
      .ok ⟨0, 100, some ⟨1, 2, 30, 40⟩, some ⟨0, 0, 8, 8⟩, .value, ⟨true, 1⟩, 30⟩ ∧
    ∃ s : Session Float Float32, Session.new
      ⟨0, 100, some ⟨1, 2, 30, 40⟩, some ⟨0, 0, 8, 8⟩, .value, ⟨true, 1⟩, 30⟩ ⟨false⟩ = .ok s := by
  obtain ⟨hmerged, hsession⟩ := options_merged partFile partFlags
  have hread : (Json.read? (Json.symbolsOfBytes tiltedPart.toUTF8)).bind Options.ofJson? =
      some ⟨0, 0, some ⟨1, 2, 30, 40⟩, none, .unlocked, .upright, 30⟩ := by
    rw [Json.symbolsOfBytes_toUTF8]
    decide +kernel
  have hbase : StartsFrom partFile partFlags
      ⟨0, 0, some ⟨1, 2, 30, 40⟩, none, .unlocked, .upright, 30⟩ :=
    ⟨tiltedPart.toUTF8, rfl, hread, Options.validate_eq_ok_iff.1 rfl⟩
  have hv : Overrides.ReadFrom ⟨none, some ⟨0, 0, 8, 8⟩, some (.value, ⟨true, 1⟩), none, some 100⟩
      partFlags :=
    ⟨rfl, ⟨_, by decide +kernel, rfl⟩, ⟨_, by decide +kernel, rfl⟩, rfl, rfl⟩
  have hok := (hmerged _).2 ⟨_, _, hbase, hv, Options.validate_eq_ok_iff.1 rfl, rfl⟩
  obtain ⟨s, hs, -⟩ := hsession _ hok ⟨false⟩
  exact ⟨hok, s, hs⟩

end CommandLine

end RegionCapture
