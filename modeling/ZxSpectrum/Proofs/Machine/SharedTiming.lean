import ZxSpectrum.Machine.Query
import ZxSpectrum.Proofs.Machine.Fixtures
import ZxSpectrum.Proofs.Raster.DrawnRange
import ZxSpectrum.Proofs.Raster.Existence
import ZxSpectrum.Proofs.Raster.PortAccess

namespace ZxSpectrum

/-! One timing for the whole machine. The length of a frame, drawing, the delays of the bus, the
samples of the beeper and what is shown of the beam all follow from the geometry in use and its
table of slots. The interrupt alone keeps to the geometry that was asked for, also where its frames
would be empty and another one is used. -/

/-- The delay at a tact by the slots of a frame, counted on past its end. The tact has to fit a
32-bit counter. -/
def delayBy (slots : List Slot) (tact : Nat) : Option Nat := do
  let tact ← Bound.word tact
  let slot ← slots[tact % slots.length]?
  return slot.contention

def waitsBy (delay : Nat → Option Nat) : List AccessPart → (tact : Nat) → Option Nat
  | [], _ => some 0
  | .free tacts :: parts, tact => waitsBy delay parts (tact + tacts)
  | .contended tacts :: parts, tact => do
    let wait ← delay tact
    let more ← waitsBy delay parts (tact + wait + tacts)
    return wait + more

namespace Timing

variable (timing : Timing)

theorem getElem?_slots (tact : Nat) :
    timing.slots.toList[tact % timing.frameTacts]? = some (timing.slotAt tact) := by
  have inFrame : tact % timing.frameTacts < timing.frameTacts :=
    Nat.mod_lt _ timing.raster.frameTacts_pos
  rw [slots_toList, List.getElem?_map, List.getElem?_range inFrame, Option.map_some, slotAt_mod]

theorem delay?_eq_delayBy : timing.delay? = delayBy timing.slots.toList := by
  have length : timing.slots.toList.length = timing.frameTacts := timing.slots.length_toList
  funext tact
  rw [delay?, delayBy, length]
  cases Bound.word tact with
  | none => rfl
  | some tact =>
      rw [Option.bind_eq_bind, Option.bind_some, timing.getElem?_slots]
      rfl

theorem foldlM_pass?_eq_waitsBy (parts : List AccessPart) (tact waited : Nat) :
    (parts.foldlM timing.pass? ⟨tact, waited⟩).map AccessProgress.waited =
      (waitsBy timing.delay? parts tact).map (waited + ·) := by
  induction parts generalizing tact waited with
  | nil => rfl
  | cons part parts induction =>
      rw [List.foldlM_cons]
      cases part with
      | free tacts => exact induction (tact + tacts) waited
      | contended tacts =>
          rw [pass?, waitsBy]
          cases timing.delay? tact with
          | none => rfl
          | some wait =>
              simp only [Option.map_some, Option.bind_eq_bind, Option.bind_some]
              rw [induction]
              cases waitsBy timing.delay? parts (tact + wait + tacts) with
              | none => rfl
              | some more => exact congrArg some (Nat.add_assoc waited wait more)

theorem ioContention?_eq_waitsBy (tact : Nat) (even contended : Bool) :
    timing.ioContention? tact even contended =
      waitsBy (delayBy timing.slots.toList) (portAccess even contended) tact := by
  rw [ioContention?_eq_foldlM, foldlM_pass?_eq_waitsBy, delay?_eq_delayBy]
  simp

theorem map_slotAt_range' {first bound : Nat} (inFrame : bound ≤ timing.frameTacts) :
    (List.range' first (bound - first)).map timing.slotAt =
      (timing.slots.toList.take bound).drop first := by
  rw [slots_toList, ← List.map_take, ← List.map_drop, List.take_range, min_eq_left inFrame,
    List.range_eq_range', List.drop_range']
  simp

end Timing

/-! Drawing, by the slots of a frame alone. -/

def Screen.drawSlots (screen : Screen) (memory : UInt16 → UInt8) (slots : List Slot) : Screen :=
  { screen with
    canvas := slots.foldl
      (fun canvas slot => canvas.draw slot screen.border screen.flash memory) screen.canvas }

theorem Screen.drawRange_eq_drawSlots (screen : Screen) {first bound : Nat}
    (inFrame : bound ≤ screen.timing.frameTacts) (memory : UInt16 → UInt8) :
    screen.drawRange first bound memory =
      screen.drawSlots memory ((screen.timing.slots.toList.take bound).drop first) := by
  rw [drawRange_eq_drawTacts, ← Timing.map_slotAt_range' _ inFrame, drawSlots, List.foldl_map]
  rfl

namespace Machine

variable {Cpu κ ρ : Type} [Processor Cpu]

/-- Whatever follows the frame goes by one timing: by its geometry, and by its table of slots. -/
structure TimedBy (timing : Timing) (machine : Machine Cpu κ ρ) : Prop where
  shown : machine.board.timing = timing
  frameTacts : machine.frameTacts = timing.geometry.frameTacts
  slots_length : timing.slots.toList.length = timing.geometry.frameTacts
  picture : machine.board.screen.pixels.size =
    timing.geometry.screenWidth * timing.geometry.screenLines
  /-- Drawing goes through the table from one slot to the next. -/
  draw : ∀ first bound, bound ≤ timing.geometry.frameTacts →
    (machine.board.draw first bound).screen =
      machine.board.screen.drawSlots machine.board.memory.read
        ((timing.slots.toList.take bound).drop first)
  memoryWait : ∀ address tact,
    some (machine.board.memoryWait address tact) =
      if machine.board.contended && Memory.contended address then
        delayBy timing.slots.toList (machine.board.frameTact tact)
      else some 0
  portWait : ∀ port tact,
    machine.board.portWait port tact =
      if machine.board.contended then
        waitsBy (delayBy timing.slots.toList)
          (portAccess (UlaPort.decodes port) (Memory.contended port)) (machine.board.frameTact tact)
      else some 0
  /-- What is shown of the beam: the slot it is at, its line and its column. -/
  beam : timing.slots.toList[machine.frameTact % timing.geometry.frameTacts]? = some machine.slot ∧
    machine.rasterLine = machine.frameTact / timing.geometry.lineTime ∧
    machine.rasterColumn = machine.frameTact % timing.geometry.lineTime
  samples : machine.board.beeper.samplesPerFrame =
    timing.geometry.frameTacts * machine.board.beeper.sampleRate / machine.board.beeper.clock

/-! A machine goes by the timing that it has been built around. -/

theorem timedBy_timing {machine : Machine Cpu κ ρ}
    (made : machine.board.beeper.frameTacts = machine.board.timing.frameTacts) :
    machine.TimedBy machine.board.timing where
  shown := rfl
  frameTacts := rfl
  slots_length := machine.board.timing.slots.length_toList
  picture := Vector.size_toArray _
  draw first bound inFrame := machine.board.screen.drawRange_eq_drawSlots inFrame _
  memoryWait address tact := by
    have fits : machine.board.frameTact tact < UInt32.size := Nat.mod_lt _ (by decide)
    rw [Board.memoryWait, ← Timing.delay?_eq_delayBy, Timing.delay?_eq_some fits]
    split <;> rfl
  portWait port tact := by
    rw [Board.portWait, Timing.ioContention?_eq_waitsBy]
  beam := ⟨machine.board.timing.getElem?_slots machine.frameTact, rfl, rfl⟩
  samples := by
    rw [Beeper.samplesPerFrame, made]
    rfl

end Machine

namespace Setup

variable {Cpu κ ρ : Type} [Processor Cpu] [Peripheral κ]

theorem timing_of_build {setup : Setup κ ρ} {cpu : Cpu} {storage : Storage}
    {machine : Machine Cpu κ ρ} (built : setup.build cpu storage = some (.ok machine)) :
    Timing.ofGeometry setup.configuration.screen = some machine.board.timing ∧
      machine.board.beeper = .create setup.configuration.beeper.sampleRate
        setup.configuration.processor.baseClock machine.board.timing.frameTacts
        setup.configuration.beeper.volume ∧
      machine.interrupt.tact = setup.configuration.screen.interruptTact := by
  rcases exists_board_of_build built with ⟨screen, memory, sound, floppy, notices, fits, rfl⟩
  rcases Option.bind_eq_some_iff.mp fits with ⟨timing, found, made⟩
  rw [Screen.ofTiming] at made
  split at made
  · cases made
    exact ⟨found, rfl, rfl⟩
  · cases made

end Setup

/-! Geometries whose frames would be empty. -/

theorem Geometry.interruptTact_eq_used_iff (geometry : Geometry) :
    geometry.interruptTact = geometry.used.interruptTact ↔
      (0 < geometry.rasterLines ∧ 0 < geometry.lineTime) ∨ geometry.interruptTact = 11 := by
  rw [used]
  split
  · next usable => exact iff_of_true rfl (.inl usable)
  · next empty => exact (or_iff_right empty).symm

theorem Timing.ofGeometry_of_empty {geometry : Geometry} (fits : geometry.ProportionsFit)
    (empty : ¬(0 < geometry.rasterLines ∧ 0 < geometry.lineTime)) :
    ofGeometry geometry = ofGeometry .spectrum48K := by
  rw [ofGeometry, Raster.ofGeometry, dif_pos fits, dif_neg empty]
  rfl

namespace Machine

section Governed

variable {Cpu κ ρ : Type} [Processor Cpu] [Peripheral κ] [TapeProvider ρ]

/-- A machine that has been built goes by the timing of its geometry, or by that of the 48K machine
if its frames would be empty, whatever its host does with it. The samples of its beeper are taken at
the rates of its configuration. The interrupt keeps to the geometry as it is given: it agrees with
the one in use exactly if that has not been replaced, or if it makes no difference. -/
theorem timing_governs_machine {setup : Setup κ ρ} {cpu : Cpu} {storage : Storage}
    {fresh machine : Machine Cpu κ ρ} (built : setup.build cpu storage = some (.ok fresh))
    {actions : List (HostAction ρ)} (acted : fresh.acts actions = some machine) :
    let given := setup.configuration.screen
    ∃ timing, Timing.ofGeometry given = some timing ∧ timing.geometry = given.used ∧
      machine.TimedBy timing ∧
      machine.board.beeper.sampleRate = max 1 setup.configuration.beeper.sampleRate ∧
      machine.board.beeper.clock = max 1 setup.configuration.processor.baseClock ∧
      machine.interrupt.tact = given.interruptTact ∧
      (machine.interrupt.tact = timing.geometry.interruptTact ↔
        (0 < given.rasterLines ∧ 0 < given.lineTime) ∨ given.interruptTact = 11) := by
  intro given
  rcases Setup.timing_of_build built with ⟨found, beeper, interrupt⟩
  have fixtures := fixtures_acts acted
  have timing : machine.board.timing = fresh.board.timing :=
    congrArg (fun fixtures => fixtures.setting.timing) fixtures
  have make : machine.board.beeper.make = fresh.board.beeper.make :=
    congrArg (fun fixtures => fixtures.setting.beeper) fixtures
  have tact : machine.interrupt.tact = given.interruptTact :=
    (congrArg Fixtures.interruptTact fixtures).trans interrupt
  have geometry := Timing.geometry_of_ofGeometry found
  rw [beeper, ← timing] at make
  rw [← timing] at found geometry
  have timed := timedBy_timing (congrArg Beeper.Make.frameTacts make)
  refine ⟨machine.board.timing, found, geometry, timed, congrArg Beeper.Make.sampleRate make,
    congrArg Beeper.Make.clock make, tact, ?_⟩
  rw [tact, geometry]
  exact given.interruptTact_eq_used_iff

end Governed

theorem timing_governs_machine_oneLine :
    let fresh := oneLine.sampledAt 350000
    let actions : List (HostAction TapeFolder) :=
      [.run { budget := 9 }, .output 0x00FE 0x12 0, .reset, .run { budget := 3 }]
    (Setup.oneLine.sampledAt 350000).build ({} : ScriptedProcessor) {} = some (.ok fresh) ∧
      ∃ machine timing, fresh.acts actions = some machine ∧ machine.TimedBy timing ∧
        timing.geometry = .oneLine ∧ machine.frameTacts = 20 ∧
        machine.board.beeper.samplesPerFrame = 2 ∧
        machine.interrupt.tact = timing.geometry.interruptTact := by
  intro fresh actions
  have built := Setup.build_oneLine_sampledAt 350000 {}
  have runs : (fresh.acts actions).isSome = true := by decide +kernel
  rcases Option.isSome_iff_exists.mp runs with ⟨machine, acted⟩
  rcases timing_governs_machine built acted with
    ⟨timing, -, used, timed, sampleRate, clock, -, agrees⟩
  have geometry : timing.geometry = .oneLine := used.trans (by decide)
  have frame : timing.geometry.frameTacts = 20 := by
    rw [geometry]
    decide
  have samples : machine.board.beeper.samplesPerFrame = 2 := by
    rw [timed.samples, frame, sampleRate, clock]
    decide
  exact ⟨built, machine, timing, acted, timed, geometry, timed.frameTacts.trans frame, samples,
    agrees.mpr (.inl (by decide))⟩

end Machine

/-- Lines without tacts, and an interrupt at a tact that the frames of the 48K machine do not have. -/
def Geometry.emptyLines : Geometry where
  horizontalBlankingTime := 0
  borderLeftTime := 0
  displayLineTime := 0
  borderRightTime := 0
  nonVisibleBorderRightTime := 0
  interruptTact := 69888

def Setup.emptyLines : Setup PortCard TapeFolder where
  configuration := { screen := .emptyLines }
  rom := some (List.replicate 0x4000 0)

/-- A machine that is to have empty frames has those of the 48K machine, but not its interrupt: none
of the tacts of a frame brings the one that it waits for. -/
theorem Machine.interrupt_missed_emptyLines :
    ∃ machine, Setup.emptyLines.build ({} : ScriptedProcessor) {} = some (.ok machine) ∧
      machine.board.timing.geometry = .spectrum48K ∧ machine.frameTacts = 69888 ∧
      machine.interrupt.tact ≠ machine.board.timing.geometry.interruptTact ∧
      ∀ blocked, ∀ tact < machine.frameTacts,
        machine.interrupt.poll blocked tact = some (machine.interrupt, .keep) := by
  have drawable : Geometry.spectrum48K.Drawable := by
    constructor <;> decide
  rcases drawable.exists_timing with ⟨timing, found, geometry⟩
  have replaced : Timing.ofGeometry .emptyLines = some timing :=
    (Timing.ofGeometry_of_empty (by decide) (by decide)).trans found
  have room : timing.geometry.pixelCount < UInt32.size := geometry ▸ drawable.pixelCount_lt
  have fits : Timing.ofGeometry Setup.emptyLines.configuration.screen >>= Screen.ofTiming =
      some { timing, canvas := Canvas.empty timing.geometry.pixelCount } :=
    Option.bind_eq_some_iff.mpr ⟨timing, replaced, if_pos room⟩
  have plain : Setup.emptyLines.Plain := ⟨rfl, rfl, rfl⟩
  have frame : timing.geometry.frameTacts = 69888 := by
    rw [geometry]
    decide
  have apart : Geometry.emptyLines.interruptTact ≠ timing.geometry.interruptTact := by
    rw [geometry]
    decide
  have built := plain.build rfl List.length_replicate fits ({} : ScriptedProcessor) {}
  refine ⟨_, built, geometry, frame, apart, fun blocked tact inFrame => ?_⟩
  exact if_pos (.inr (inFrame.trans_eq frame))

end ZxSpectrum
