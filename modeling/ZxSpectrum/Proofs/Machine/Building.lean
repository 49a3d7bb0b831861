import ZxSpectrum.Machine.Setup
import ZxSpectrum.Peripheral.PortCard
import ZxSpectrum.Processor.Scripted
import ZxSpectrum.Proofs.Machine.Backdrop

namespace ZxSpectrum

/-! Building a machine: what it takes, and what can be said of a machine that has just been
built. -/

namespace Setup

variable {Cpu κ ρ : Type} [Processor Cpu] [Peripheral κ]

omit [Processor Cpu] in
theorem exists_of_attachCard {rom : List UInt8} {slot : CardSlot} {card : Option κ}
    {board after : Board κ ρ} (attached : attachCard rom slot card board = .ok after) :
    ∃ sound floppy notices, after = { board with sound, floppy, notices } := by
  cases card with
  | none =>
      cases attached
      exact ⟨_, _, _, rfl⟩
  | some card =>
      rcases exists_of_bind_eq_ok attached with ⟨card, -, attached⟩
      cases attached
      cases slot <;> exact ⟨_, _, _, rfl⟩

/-! What building goes through, and what it comes to. -/

theorem exists_attached_of_build {setup : Setup κ ρ} {cpu : Cpu} {storage : Storage}
    {machine : Machine Cpu κ ρ} (built : setup.build cpu storage = some (.ok machine)) :
    ∃ screen rom memory first,
      Timing.ofGeometry setup.configuration.screen >>= Screen.ofTiming = some screen ∧
      (setup.board screen).memory.copyRom rom = .ok memory ∧
      attachCard rom .sound setup.sound { setup.board screen with memory } = .ok first ∧
      attachCard rom .floppy setup.floppy first = .ok machine.board ∧
      machine = { cpu := Processor.reset cpu, board := machine.board,
                  interrupt := { tact := setup.configuration.screen.interruptTact } } := by
  rcases Option.bind_eq_some_iff.mp built with ⟨timing, found, rest⟩
  rcases Option.bind_eq_some_iff.mp rest with ⟨screen, made, rest⟩
  have attached : setup.attach cpu storage (setup.board screen) = .ok machine :=
    Option.some.inj rest
  rcases exists_of_bind_eq_ok attached with ⟨rom, -, attached⟩
  rcases exists_of_bind_eq_ok attached with ⟨memory, copied, attached⟩
  rcases exists_of_bind_eq_ok attached with ⟨first, sound, attached⟩
  rcases exists_of_bind_eq_ok attached with ⟨second, floppy, attached⟩
  cases attached
  exact ⟨screen, rom, memory, first, Option.bind_eq_some_iff.mpr ⟨timing, found, made⟩, copied,
    sound, floppy, rfl⟩

theorem exists_board_of_build {setup : Setup κ ρ} {cpu : Cpu} {storage : Storage}
    {machine : Machine Cpu κ ρ} (built : setup.build cpu storage = some (.ok machine)) :
    ∃ screen memory sound floppy notices,
      Timing.ofGeometry setup.configuration.screen >>= Screen.ofTiming = some screen ∧
      machine = { cpu := Processor.reset cpu
                  board := { setup.board screen with memory, sound, floppy, notices }
                  interrupt := { tact := setup.configuration.screen.interruptTact } } := by
  rcases exists_attached_of_build built with
    ⟨screen, rom, memory, first, fits, -, attached, complete, initial⟩
  rcases exists_of_attachCard attached with ⟨_, _, _, rfl⟩
  rcases exists_of_attachCard complete with ⟨_, _, _, board⟩
  rw [board] at initial
  exact ⟨screen, memory, _, _, _, fits, initial⟩

/-- A machine starts before its first frame, on a board whose backdrop is that of its setup. -/
theorem eq_of_build {setup : Setup κ ρ} {cpu : Cpu} {storage : Storage}
    {machine : Machine Cpu κ ρ} (built : setup.build cpu storage = some (.ok machine)) :
    ∃ screen, Timing.ofGeometry setup.configuration.screen >>= Screen.ofTiming = some screen ∧
      machine.board.backdrop = (setup.board screen).backdrop ∧
      machine = { cpu := Processor.reset cpu, board := machine.board,
                  interrupt := { tact := setup.configuration.screen.interruptTact } } := by
  rcases exists_board_of_build built with ⟨screen, memory, sound, floppy, notices, fits, rfl⟩
  exact ⟨screen, fits, rfl, rfl⟩

/-! Plain setups. The host supplies neither cards nor a memory board. -/

structure Plain (setup : Setup κ ρ) : Prop where
  memory : setup.memory = none
  sound : setup.sound = none
  floppy : setup.floppy = none

def plainMachine (setup : Setup κ ρ) (cpu : Cpu) (screen : Screen) (rom : Vector UInt8 0x4000) :
    Machine Cpu κ ρ where
  cpu := Processor.reset cpu
  board := { setup.board screen with memory := { Memory.empty with rom } }
  interrupt := { tact := setup.configuration.screen.interruptTact }

omit [Peripheral κ] in
theorem Plain.memory_board {setup : Setup κ ρ} (plain : setup.Plain) (screen : Screen) :
    (setup.board screen).memory = .empty := by
  rw [board, plain.memory]
  rfl

theorem Plain.eq_of_build {setup : Setup κ ρ} (plain : setup.Plain) {cpu : Cpu} {storage : Storage}
    {machine : Machine Cpu κ ρ} (built : setup.build cpu storage = some (.ok machine)) :
    ∃ timing rom, machine = setup.plainMachine cpu
      { timing, canvas := Canvas.empty timing.geometry.pixelCount } rom := by
  rcases exists_attached_of_build built with
    ⟨screen, image, memory, first, fits, copied, attached, complete, initial⟩
  rcases Option.bind_eq_some_iff.mp fits with ⟨timing, -, made⟩
  rw [plain.sound] at attached
  rw [plain.floppy] at complete
  cases attached
  rw [← Except.ok.inj complete] at initial
  rw [plain.memory_board, Memory.copyRom] at copied
  rw [Screen.ofTiming] at made
  split at made
  · cases made
    split at copied
    · next size =>
        cases copied
        exact ⟨timing, ⟨_, size⟩, initial⟩
    · cases copied
  · cases made

/-- A plain setup can be built when its geometry fits and its image has the size of the ROM. -/
theorem Plain.build {setup : Setup κ ρ} (plain : setup.Plain) {image : List UInt8}
    (rom : setup.rom = some image) (size : image.length = 0x4000) {screen : Screen}
    (fits : Timing.ofGeometry setup.configuration.screen >>= Screen.ofTiming = some screen)
    (cpu : Cpu) (storage : Storage) :
    setup.build cpu storage = some (.ok (setup.plainMachine cpu screen ⟨image.toArray, size⟩)) := by
  rcases Option.bind_eq_some_iff.mp fits with ⟨timing, measured, made⟩
  have found : setup.romImage storage = .ok image := by
    rw [romImage, rom]
    exact if_pos size
  have copied : Memory.empty.copyRom image =
      .ok { Memory.empty with rom := ⟨image.toArray, size⟩ } :=
    dif_pos size
  simp only [Setup.build, measured, made, attach, found, plain.memory_board, plain.sound,
    plain.floppy, Option.bind_some, bind, Except.bind, copied, attachCard, pure, Except.pure]
  rfl

end Setup

/-! Power-on: a machine that has just been built stands where a reset puts it. -/

namespace Machine

variable {Cpu κ ρ : Type} [Processor Cpu] [Peripheral κ]

/-- The machine has been built or reset, and has not run since. -/
inductive PoweredOn : Machine Cpu κ ρ → Prop
  | built {setup : Setup κ ρ} {cpu : Cpu} {storage : Storage} {machine : Machine Cpu κ ρ}
    (built : setup.build cpu storage = some (.ok machine)) : PoweredOn machine
  | reset {machine : Machine Cpu κ ρ} (multiplier_pos : 0 < machine.board.multiplier) :
    PoweredOn machine.reset

namespace PoweredOn

variable {machine : Machine Cpu κ ρ}

theorem multiplier_pos (poweredOn : machine.PoweredOn) : 0 < machine.board.multiplier := by
  cases poweredOn with
  | @built setup _ _ _ built =>
      rcases Setup.eq_of_build built with ⟨screen, -, backdrop, -⟩
      have multiplier :
          machine.board.multiplier = clampMultiplier setup.configuration.processor.multiplier :=
        congrArg Backdrop.multiplier backdrop
      rw [multiplier, clampMultiplier]
      split_ifs <;> decide
  | @reset machine multiplier_pos =>
      have multiplier : machine.reset.board.multiplier = machine.board.multiplier :=
        congrArg Backdrop.multiplier (Board.backdrop_callCards _ _ _)
      rwa [multiplier]

theorem eq (poweredOn : machine.PoweredOn) :
    machine = { cpu := machine.cpu, board := machine.board,
                interrupt := { tact := machine.interrupt.tact }, debugger := machine.debugger } := by
  cases poweredOn with
  | built built =>
      rcases Setup.eq_of_build built with ⟨screen, -, -, initial⟩
      rw [initial]
  | reset _ => rfl

theorem frameFinished (poweredOn : machine.PoweredOn) : machine.frameFinished = true := by
  rw [poweredOn.eq]

theorem overflow (poweredOn : machine.PoweredOn) : machine.overflow = 0 := by
  rw [poweredOn.eq]

end PoweredOn

end Machine

/-! A machine whose frames are over soon, for examples that go from one frame to the next. -/

namespace Geometry

def oneLine : Geometry where
  verticalSyncLines := 0
  nonVisibleBorderTopLines := 0
  borderTopLines := 0
  displayLines := 1
  borderBottomLines := 0
  horizontalBlankingTime := 0
  borderLeftTime := 3
  displayLineTime := 8
  borderRightTime := 0
  nonVisibleBorderRightTime := 9
  interruptTact := 5

theorem oneLine_fits : (Timing.ofGeometry oneLine >>= Screen.ofTiming).isSome := by
  decide +kernel

end Geometry

/-- A machine with an empty memory, which executes an instruction of four tacts after another. -/
def Machine.oneLine : Machine ScriptedProcessor PortCard TapeFolder where
  cpu := {}
  board :=
    { memory := .empty
      screen := Option.get _ Geometry.oneLine_fits
      beeper := .create 48000 3500000 20 0 }
  interrupt := { tact := 5 }

def Setup.oneLine : Setup PortCard TapeFolder where
  configuration := { screen := .oneLine, beeper := { volume := 0 } }
  rom := some (List.replicate 0x4000 0)

theorem Setup.oneLine_plain : oneLine.Plain :=
  ⟨rfl, rfl, rfl⟩

def Setup.sampledAt {κ ρ : Type} (setup : Setup κ ρ) (sampleRate : Nat) : Setup κ ρ :=
  let configuration := setup.configuration
  { setup with
    configuration := { configuration with beeper := { configuration.beeper with sampleRate } } }

def Machine.sampledAt {Cpu κ ρ : Type} (machine : Machine Cpu κ ρ) (sampleRate : Nat) :
    Machine Cpu κ ρ :=
  let beeper := machine.board.beeper
  { machine with
    board := { machine.board with beeper := { beeper with sampleRate := max 1 sampleRate } } }

def Machine.around {Cpu Other κ ρ : Type} (machine : Machine Other κ ρ) (cpu : Cpu) :
    Machine Cpu κ ρ :=
  { machine with cpu }

theorem Setup.build_oneLine_around {Cpu : Type} [Processor Cpu] (sampleRate : Nat) (cpu : Cpu)
    (storage : Storage) :
    (oneLine.sampledAt sampleRate).build cpu storage =
      some (.ok ((Machine.oneLine.sampledAt sampleRate).around (Processor.reset cpu))) := by
  let screen := Option.get _ Geometry.oneLine_fits
  have rom : (⟨(List.replicate 0x4000 0).toArray, List.length_replicate⟩ : Vector UInt8 0x4000) =
      .replicate 0x4000 0 :=
    Vector.toArray_inj.mp (List.toArray_replicate _ _)
  have frameTacts : screen.timing.frameTacts = 20 := by decide +kernel
  have board : (oneLine.sampledAt sampleRate).board screen =
      (Machine.oneLine.sampledAt sampleRate).board := by
    rw [Setup.board, frameTacts]
    rfl
  have machine : (oneLine.sampledAt sampleRate).plainMachine cpu screen (.replicate 0x4000 0) =
      (Machine.oneLine.sampledAt sampleRate).around (Processor.reset cpu) := by
    rw [plainMachine, board]
    rfl
  have plain : (oneLine.sampledAt sampleRate).Plain := ⟨rfl, rfl, rfl⟩
  have fits : Timing.ofGeometry oneLine.configuration.screen >>= Screen.ofTiming = some screen :=
    (Option.some_get _).symm
  rw [plain.build rfl List.length_replicate fits, rom, machine]

theorem Setup.build_oneLine_sampledAt (sampleRate : Nat) (storage : Storage) :
    (oneLine.sampledAt sampleRate).build ({} : ScriptedProcessor) storage =
      some (.ok (Machine.oneLine.sampledAt sampleRate)) := by
  rw [build_oneLine_around]
  rfl

theorem Setup.build_oneLine (storage : Storage) :
    oneLine.build ({} : ScriptedProcessor) storage = some (.ok Machine.oneLine) :=
  build_oneLine_sampledAt 48000 storage

namespace Geometry

def longLine : Geometry :=
  { oneLine with nonVisibleBorderRightTime := 29, interruptTact := 0 }

theorem longLine_fits : (Timing.ofGeometry longLine >>= Screen.ofTiming).isSome := by
  decide +kernel

end Geometry

def Machine.longLine : Machine ScriptedProcessor PortCard TapeFolder where
  cpu := {}
  board :=
    { memory := .empty
      screen := Option.get _ Geometry.longLine_fits
      beeper := .create 48000 3500000 40 0 }
  interrupt := { tact := 0 }

/-! The same machines with another program, processor, clock or interrupt window. -/

def Machine.programmed {Cpu κ ρ : Type} (machine : Machine Cpu κ ρ) (program : List UInt8) :
    Machine Cpu κ ρ :=
  let memory := machine.board.memory
  let rom := program.zipIdx.foldl (fun rom (byte, index) => rom.setIfInBounds index byte) memory.rom
  { machine with board := { machine.board with memory := { memory with rom } } }

/-- The machine with a processor that claims to be within an instruction at some addresses. -/
def Machine.midInstructionAt {κ ρ : Type} (machine : Machine ScriptedProcessor κ ρ)
    (addresses : List UInt16) : Machine ScriptedProcessor κ ρ :=
  { machine with cpu := { machine.cpu with midInstructionAt := addresses } }

def Machine.accelerated {Cpu κ ρ : Type} (machine : Machine Cpu κ ρ) (multiplier : Nat) :
    Machine Cpu κ ρ :=
  { machine with board := { machine.board with multiplier } }

def Machine.interruptedAt {Cpu κ ρ : Type} (machine : Machine Cpu κ ρ) (tact : Nat) :
    Machine Cpu κ ρ :=
  { machine with interrupt := { tact } }

end ZxSpectrum
