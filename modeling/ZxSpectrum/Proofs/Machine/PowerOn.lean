import ZxSpectrum.Proofs.Machine.Delivery
import ZxSpectrum.Proofs.Machine.InterruptWindow

namespace ZxSpectrum

/-! Reset and power-on. What a reset makes of a machine without cards depends only on how it was
built and on what its host has connected to it, and nothing that the machine or its host does
changes how it was built. -/

theorem Memory.reset_write (memory : Memory) (address : UInt16) (value : UInt8) :
    (memory.write address value).reset = memory.reset := by
  rw [write]
  split <;> rfl

theorem Loader.reset_transfer (verify : Bool) (count : Nat) (bytes : List UInt8)
    (registers : Registers) (memory : Memory) :
    (transfer verify count bytes registers memory).2.reset = memory.reset := by
  induction count generalizing bytes registers memory with
  | zero => rfl
  | succ count induction =>
      cases bytes with
      | nil => rfl
      | cons byte bytes =>
          rw [transfer]
          split
          · simp only
            split
            · exact induction _ _ _
            · rfl
          · exact (induction _ _ _).trans (memory.reset_write _ _)

theorem Loader.reset_load (block : List UInt8) (registers : Registers) (memory : Memory) :
    (load block registers memory).2.reset = memory.reset := by
  cases block with
  | nil => rfl
  | cons flag bytes =>
      simp only [load]
      split
      · exact reset_transfer _ _ _ _ _
      · rfl

theorem TapeDeck.reset_fastLoad {ρ : Type} {deck after : TapeDeck ρ} {tact : Nat}
    {registers left : Registers} {memory written : Memory}
    (loaded : deck.fastLoad tact registers memory = some (after, left, written)) :
    written.reset = memory.reset := by
  rw [fastLoad] at loaded
  split at loaded
  · split at loaded
    · next data _ =>
        rcases Option.bind_eq_some_iff.mp loaded with ⟨player, -, rest⟩
        cases rest
        exact Loader.reset_load data registers memory
    · cases loaded
      rfl
  · cases loaded
    rfl

theorem TapeDeck.reset_follow {ρ : Type} [TapeProvider ρ] {deck after : TapeDeck ρ} {fast : Bool}
    {tact : Nat} {registers left : Registers} {memory written : Memory}
    (followed : deck.follow fast tact registers memory = some (after, left, written)) :
    written.reset = memory.reset := by
  rcases Option.bind_eq_some_iff.mp followed with ⟨deck, -, rest⟩
  split at rest
  · exact reset_fastLoad rest
  · cases rest
    rfl

theorem Screen.reset_countFrame (screen : Screen) : screen.countFrame.reset = screen.reset := by
  rw [countFrame]
  split <;> rfl

namespace Board

variable {κ ρ : Type}

def blank (board : Board κ ρ) : Board κ ρ where
  memory := board.memory.reset
  screen := { board.screen.reset with suppressed := false }
  beeper := { board.beeper.reset with muted := false }
  sound := board.sound
  floppy := board.floppy
  multiplier := board.multiplier
  contended := board.contended

structure Plain (board : Board κ ρ) : Prop where
  sound : board.sound = none
  floppy : board.floppy = none

variable {board after : Board κ ρ}

theorem Plain.of_blank (plain : board.Plain) (same : after.blank = board.blank) : after.Plain where
  sound := (congrArg Board.sound same).trans plain.sound
  floppy := (congrArg Board.floppy same).trans plain.floppy

/-! Nothing that the processor does on the bus changes how the board was built. -/

theorem blank_poke (board : Board κ ρ) (address : UInt16) (value : UInt8) :
    (board.poke address value).blank = board.blank := by
  have memory := board.memory.reset_write address value
  exact congrArg (fun memory => { board.blank with memory }) memory

theorem blank_tellPicture (board : Board κ ρ) (pixels : Option (Array UInt8)) :
    (Machine.tellPicture board pixels).blank = board.blank := by
  cases pixels <;> rfl

theorem blank_tellSound (board : Board κ ρ) (samples : Option (Array UInt32)) :
    (Machine.tellSound board samples).blank = board.blank := by
  cases samples <;> rfl

theorem blank_draw (board : Board κ ρ) (first bound : Nat) :
    (board.draw first bound).blank = board.blank :=
  rfl

theorem reset_hear (beeper : Beeper) (fromTape level : Bool) (tact : Nat) :
    { (beeper.hear fromTape level tact).reset with muted := false } =
      { beeper.reset with muted := false } := by
  rw [Beeper.hear]
  split <;> rfl

theorem blank_readUla {port : UInt16} {tact : Nat} {value : UInt8}
    (read : board.readUla port tact = some (value, after)) : after.blank = board.blank := by
  simp only [readUla] at read
  split at read
  · rcases Option.bind_eq_some_iff.mp read with ⟨⟨level, deck⟩, -, rest⟩
    cases rest
    exact congrArg (fun beeper => { board.blank with beeper }) (reset_hear _ _ _ _)
  · cases read
    rfl

theorem blank_writeUla [TapeProvider ρ] {value : UInt8} {tact : Nat}
    (written : board.writeUla value tact = some after) : after.blank = board.blank := by
  rcases Option.bind_eq_some_iff.mp written with ⟨deck, -, rest⟩
  cases rest
  exact congrArg (fun beeper => { board.blank with beeper }) (reset_hear _ _ _ _)

theorem Plain.card (plain : board.Plain) (slot : CardSlot) : board.card slot = none := by
  cases slot with
  | sound => exact plain.sound
  | floppy => exact plain.floppy

theorem Plain.callCards (plain : board.Plain) (call : CardCall) (change : κ → κ) :
    board.callCards call change = board := by
  have called (slot : CardSlot) : board.callCard slot call change = board := by
    rw [callCard, plain.card]
  rw [Board.callCards, called, called]

variable [Peripheral κ]

theorem Plain.readCards (plain : board.Plain) (port : UInt16) :
    board.readCards port = (0xFF, board) := by
  have read (slot : CardSlot) : board.readCard slot port = (none, board) := by
    rw [readCard, plain.card]
  simp only [Board.readCards, read, Option.getD_none]

theorem Plain.writeCards (plain : board.Plain) (port : UInt16) (value : UInt8) :
    board.writeCards port value = board := by
  have written (slot : CardSlot) : board.writeCard slot port value = (false, board) := by
    rw [writeCard, plain.card]
  simp only [Board.writeCards, written, Bool.false_eq_true, if_false]

theorem Plain.blank_input (plain : board.Plain) {port : UInt16} {tact wait : Nat} {value : UInt8}
    (input : board.input port tact = some (value, wait, after)) : after.blank = board.blank := by
  rcases Option.bind_eq_some_iff.mp input with ⟨waited, -, rest⟩
  split at rest
  · rcases Option.bind_eq_some_iff.mp rest with ⟨⟨read, board⟩, ula, rest⟩
    cases rest
    exact blank_readUla ula
  · rw [plain.readCards] at rest
    cases rest
    rfl

variable [TapeProvider ρ]

theorem Plain.blank_output (plain : board.Plain) {port : UInt16} {value : UInt8} {tact wait : Nat}
    (output : board.output port value tact = some (wait, after)) : after.blank = board.blank := by
  rcases Option.bind_eq_some_iff.mp output with ⟨waited, -, rest⟩
  split at rest
  · rcases Option.bind_eq_some_iff.mp rest with ⟨board, ula, rest⟩
    cases rest
    exact blank_writeUla ula
  · rw [plain.writeCards] at rest
    cases rest
    rfl

theorem Plain.blank_perform (plain : board.Plain) {α : Type} {program : BusProgram α} {result : α}
    (performed : board.perform program = some (result, after)) : after.blank = board.blank := by
  let Same (board after : Board κ ρ) : Prop := board.Plain → after.blank = board.blank
  have kept : KeptByCycles Same :=
    { refl := fun _ _ => rfl
      trans := fun first rest plain =>
        (rest (plain.of_blank (first plain))).trans (first plain)
      poke := fun board address value _ => board.blank_poke address value
      input := fun input plain => plain.blank_input input
      output := fun output plain => plain.blank_output output }
  exact kept.perform performed plain

end Board

/-! What the host has connected to a machine, set for it, or been told by it. -/

structure HostSide (ρ : Type) where
  breakpoints : List UInt16 := []
  provider : Option ρ := none
  observers : List (List TapeEvent) := []
  notices : Array Notice := #[]
  /-- Pictures are not handed over in the present run. -/
  suppressed : Bool := false
  /-- Sound is not handed over in the present run. -/
  muted : Bool := false

namespace Machine

variable {Cpu κ ρ : Type} {machine after : Machine Cpu κ ρ}

def hostSide (machine : Machine Cpu κ ρ) : HostSide ρ where
  breakpoints := machine.debugger.breakpoints
  provider := machine.board.deck.provider
  observers := machine.board.deck.observers
  notices := machine.board.notices
  suppressed := machine.board.screen.suppressed
  muted := machine.board.beeper.muted

def withHostSide (machine : Machine Cpu κ ρ) (host : HostSide ρ) : Machine Cpu κ ρ :=
  { machine with
    debugger := { machine.debugger with breakpoints := host.breakpoints }
    board := { machine.board with
      deck := { machine.board.deck with provider := host.provider, observers := host.observers }
      notices := host.notices
      screen := { machine.board.screen with suppressed := host.suppressed }
      beeper := { machine.board.beeper with muted := host.muted } } }

variable [Processor Cpu]

def blank (machine : Machine Cpu κ ρ) : Machine Cpu κ ρ where
  cpu := Processor.reset machine.cpu
  board := machine.board.blank
  interrupt := machine.interrupt.reset

theorem blank_congr (cpu : Processor.reset after.cpu = Processor.reset machine.cpu)
    (board : after.board.blank = machine.board.blank)
    (interrupt : after.interrupt.tact = machine.interrupt.tact) : after.blank = machine.blank := by
  rw [blank, blank, cpu, board, Interrupt.reset, Interrupt.reset, interrupt]

/-- A reset leaves nothing of the machine but how it was built and the host's side. -/
theorem reset_eq [Peripheral κ] (plain : machine.board.Plain) :
    machine.reset = machine.blank.withHostSide machine.hostSide := by
  let board : Board κ ρ := { machine.board with
    memory := machine.board.memory.reset
    port := {}
    screen := machine.board.screen.reset
    beeper := machine.board.beeper.reset
    keyboard := {}
    deck := machine.board.deck.reset
    frameStart := 0 }
  let started (board : Board κ ρ) : Machine Cpu κ ρ :=
    { cpu := Processor.reset machine.cpu
      board
      interrupt := machine.interrupt.reset
      debugger := machine.debugger.reset }
  have unchanged : board.Plain := ⟨plain.sound, plain.floppy⟩
  exact congrArg started (unchanged.callCards .reset Peripheral.reset)

/-! Nothing that a run does changes how the machine was built. -/

variable [ResettableProcessor Cpu]

theorem blank_pollInterrupt (polled : machine.pollInterrupt = some after) :
    after.blank = machine.blank := by
  rcases Option.bind_eq_some_iff.mp polled with ⟨⟨interrupt, change⟩, polls, rest⟩
  have tact := (Interrupt.polled_of_poll polls).tact_eq
  cases change <;> cases rest
  · exact blank_congr rfl rfl tact
  · exact blank_congr (ResettableProcessor.reset_withSignals _ _) rfl tact
  · exact blank_congr (ResettableProcessor.reset_withSignals _ _) rfl tact

omit [ResettableProcessor Cpu] in
theorem blank_drawnBy (machine : Machine Cpu κ ρ) (options : RunOptions) :
    (machine.drawnBy options).blank = machine.blank := by
  rw [drawnBy]
  split
  · rfl
  · rw [drawTo_eq]
    exact blank_congr rfl (machine.board.blank_draw _ _) rfl

variable [Peripheral κ] [TapeProvider ρ]

theorem blank_cycle (plain : machine.board.Plain) {fault : Option ProcessorFault}
    (cycled : machine.cycle = some (fault, after)) : after.blank = machine.blank := by
  rcases Option.bind_eq_some_iff.mp cycled with ⟨polled, poll, rest⟩
  rcases Option.bind_eq_some_iff.mp rest with ⟨⟨⟨cpu, fault⟩, board⟩, performed, rest⟩
  cases rest
  have same := blank_pollInterrupt poll
  have plain : polled.board.Plain := plain.of_blank (congrArg Machine.board same)
  have reset := Board.of_perform (ResettableProcessor.reset_step polled.cpu) performed
  have blank := plain.blank_perform performed
  let stepped : Machine Cpu κ ρ := { polled with cpu, board }
  have executed : stepped.blank = polled.blank := blank_congr reset blank rfl
  exact executed.trans same

omit [Peripheral κ] in
theorem blank_followTape {fast : Bool} (followed : machine.followTape fast = some after) :
    after.blank = machine.blank := by
  rcases Option.bind_eq_some_iff.mp followed with ⟨⟨deck, registers, memory⟩, tape, rest⟩
  cases rest
  have memory : memory.reset = machine.board.memory.reset := TapeDeck.reset_follow tape
  exact blank_congr (ResettableProcessor.reset_withRegisters _ _)
    (congrArg (fun memory => { machine.board.blank with memory }) memory) rfl

theorem blank_executeInstruction (plain : machine.board.Plain) {options : RunOptions}
    {reason : Option Completion}
    (executed : machine.executeInstruction options = some (reason, after)) :
    after.blank = machine.blank := by
  cases executed_of_executeInstruction executed with
  | faulted cycled =>
      have stepped := blank_cycle plain cycled
      exact stepped
  | halted cycled waits =>
      have stepped := blank_cycle plain cycled
      exact (blank_drawnBy _ options).trans stepped
  | completed cycled tape =>
      have stepped := blank_cycle plain cycled
      have followed := (blank_followTape tape).trans (blank_drawnBy _ options)
      exact followed.trans stepped

omit [ResettableProcessor Cpu] [TapeProvider ρ] in
theorem blank_startFrame (plain : machine.board.Plain) :
    machine.startFrame.blank = machine.blank := by
  let begun : Board κ ρ :=
    { machine.board with
      frameStart := Processor.tacts machine.cpu - machine.overflow * machine.board.multiplier
      beeper := machine.board.beeper.newFrame }
  have unchanged : (begun.tell .frameStarted).Plain := ⟨plain.sound, plain.floppy⟩
  have called := congrArg Board.blank (unchanged.callCards .newFrame Peripheral.newFrame)
  have drawn : machine.startFrame.board.blank = machine.board.blank := called
  exact blank_congr rfl drawn rfl

omit [ResettableProcessor Cpu] [TapeProvider ρ] in
theorem blank_completeFrame (plain : machine.board.Plain) :
    machine.completeFrame.blank = machine.blank := by
  let overflow := machine.frameTact % machine.frameTacts
  let counted : Board κ ρ :=
    { machine.board with
      screen := machine.board.screen.countFrame
      beeper := machine.board.beeper.fillUntil machine.board.beeper.frameTacts }
  let told : Board κ ρ :=
    tellSound (tellPicture counted machine.board.screen.completeFrame.2)
      machine.board.beeper.completeFrame.2
  have same : told.blank = machine.board.blank := by
    have screen := machine.board.screen.reset_countFrame
    have counted : counted.blank = machine.board.blank :=
      congrArg (fun screen : Screen =>
        { machine.board.blank with screen := { screen with suppressed := false } }) screen
    exact (Board.blank_tellSound _ _).trans ((Board.blank_tellPicture _ _).trans counted)
  have unchanged := plain.of_blank same
  have called := congrArg Board.blank
    (unchanged.callCards (.completeFrame overflow) (Peripheral.completeFrame overflow))
  have board : machine.completeFrame.board.blank = machine.board.blank := called.trans same
  exact blank_congr rfl board rfl

theorem Step.blank {permitted : RunOptions → Prop} {first last : Standing Cpu κ ρ}
    {log : List (Moment Cpu κ ρ)} (step : Step permitted first log last)
    (plain : first.machine.board.Plain) : last.machine.blank = first.machine.blank := by
  cases step with
  | note debugger completion => rfl
  | call allowed => rfl
  | startFrame => exact blank_startFrame plain
  | boundary between => rfl
  | start => rfl
  | stop allowed stopped => exact blank_executeInstruction plain stopped
  | goOn allowed completed => exact blank_executeInstruction plain completed
  | completeFrame => exact blank_completeFrame plain

theorem Path.blank {permitted : RunOptions → Prop} {first last : Standing Cpu κ ρ}
    {log : List (Moment Cpu κ ρ)} (path : Path permitted first log last)
    (plain : first.machine.board.Plain) : last.machine.blank = first.machine.blank := by
  induction path with
  | nil => rfl
  | cons step rest induction =>
      have same := step.blank plain
      exact (induction (plain.of_blank (congrArg Machine.board same))).trans same

theorem blank_call (plain : machine.board.Plain) {call : RunCall} {completion : Option Completion}
    (called : machine.call call = some (completion, after)) : after.blank = machine.blank := by
  let anything (_ : RunOptions) : Prop := True
  have allowed : anything call.options := trivial
  rcases run_path allowed (machine.withDebugger (call.edit machine.debugger)) call.cancelled
    call.budget with ⟨last, path, ends⟩
  rcases ends completion after called with ⟨executed, rfl⟩
  have prepared : ((machine.called call).standing 0).machine.board.Plain :=
    ⟨plain.sound, plain.floppy⟩
  have same := path.blank prepared
  exact same

end Machine

/-! Whatever the host does, too, leaves the machine one that was built in the same way. -/

inductive HostAction (ρ : Type)
  | run (call : RunCall)
  | key (row column : Nat) (pressed : Bool)
  | releaseKeys
  | poke (address : UInt16) (value : UInt8)
  | input (port : UInt16) (tact : Nat)
  | output (port : UInt16) (value : UInt8) (tact : Nat)
  /-- Whatever an operation makes of the tape deck, which can also fail. -/
  | tape (change : TapeDeck ρ → Option (TapeDeck ρ))
  /-- The tape deck looks at the registers, and might load a block into memory. -/
  | followTape (fast : Bool)
  | setRegisters (registers : Registers)
  | setSignals (signals : Signals)
  | takeNotices
  | reset

namespace Machine

variable {Cpu κ ρ : Type} [Processor Cpu] [Peripheral κ] [TapeProvider ρ]

def withBoard (machine : Machine Cpu κ ρ) (board : Board κ ρ) : Machine Cpu κ ρ :=
  { machine with board }

def act (machine : Machine Cpu κ ρ) : HostAction ρ → Option (Machine Cpu κ ρ)
  | .run call => (machine.call call).map Prod.snd
  | .key row column pressed =>
    let keyboard := machine.board.keyboard.setKey row column pressed
    some (machine.withBoard { machine.board with keyboard })
  | .releaseKeys => some (machine.withBoard { machine.board with keyboard := {} })
  | .poke address value => some (machine.withBoard (machine.board.poke address value))
  | .input port tact =>
    (machine.board.input port tact).map fun (_, _, board) => machine.withBoard board
  | .output port value tact =>
    (machine.board.output port value tact).map fun (_, board) => machine.withBoard board
  | .tape change =>
    (change machine.board.deck).map fun deck => machine.withBoard { machine.board with deck }
  | .followTape fast => machine.followTape fast
  | .setRegisters registers =>
    some { machine with cpu := Processor.withRegisters registers machine.cpu }
  | .setSignals signals => some { machine with cpu := Processor.withSignals signals machine.cpu }
  | .takeNotices => some (machine.withBoard machine.board.takeNotices.2)
  | .reset => some machine.reset

/-- The machine after some actions, unless one of them met a value out of range. -/
def acts : List (HostAction ρ) → Machine Cpu κ ρ → Option (Machine Cpu κ ρ)
  | [], machine => some machine
  | action :: actions, machine => (machine.act action).bind (acts actions)

variable [ResettableProcessor Cpu] {machine after : Machine Cpu κ ρ}

omit [Peripheral κ] [TapeProvider ρ] [ResettableProcessor Cpu] in
theorem blank_withBoard {board : Board κ ρ} (same : board.blank = machine.board.blank) :
    (machine.withBoard board).blank = machine.blank :=
  blank_congr rfl same rfl

omit [TapeProvider ρ] in
theorem blank_reset (plain : machine.board.Plain) : machine.reset.blank = machine.blank := by
  rw [reset_eq plain]
  exact blank_congr (ResettableProcessor.reset_reset _) rfl rfl

theorem blank_act (plain : machine.board.Plain) {action : HostAction ρ}
    (acted : machine.act action = some after) : after.blank = machine.blank := by
  cases action with
  | run call =>
      rcases Option.map_eq_some_iff.mp acted with ⟨⟨completion, machine⟩, called, rfl⟩
      exact blank_call plain called
  | key row column pressed =>
      cases acted
      rfl
  | releaseKeys =>
      cases acted
      rfl
  | poke address value =>
      cases acted
      exact blank_withBoard (machine.board.blank_poke address value)
  | input port tact =>
      rcases Option.map_eq_some_iff.mp acted with ⟨⟨value, wait, board⟩, input, rfl⟩
      exact blank_withBoard (plain.blank_input input)
  | output port value tact =>
      rcases Option.map_eq_some_iff.mp acted with ⟨⟨wait, board⟩, output, rfl⟩
      exact blank_withBoard (plain.blank_output output)
  | tape change =>
      rcases Option.map_eq_some_iff.mp acted with ⟨deck, -, rfl⟩
      rfl
  | followTape fast => exact blank_followTape acted
  | setRegisters registers =>
      cases acted
      exact blank_congr (ResettableProcessor.reset_withRegisters _ _) rfl rfl
  | setSignals signals =>
      cases acted
      exact blank_congr (ResettableProcessor.reset_withSignals _ _) rfl rfl
  | takeNotices =>
      cases acted
      rfl
  | reset =>
      cases acted
      exact blank_reset plain

theorem blank_acts (plain : machine.board.Plain) {actions : List (HostAction ρ)}
    (acted : machine.acts actions = some after) : after.blank = machine.blank := by
  induction actions generalizing machine with
  | nil =>
      cases acted
      rfl
  | cons action actions induction =>
      rcases Option.bind_eq_some_iff.mp acted with ⟨middle, first, rest⟩
      have same := blank_act plain first
      exact (induction (plain.of_blank (congrArg Machine.board same)) rest).trans same

end Machine

/-! A machine that has just been built is as a reset would leave it. -/

namespace Setup

variable {Cpu κ ρ : Type} [Processor Cpu] [Peripheral κ] {setup : Setup κ ρ} {cpu : Cpu}
  {storage : Storage} {fresh : Machine Cpu κ ρ}

theorem Plain.board_of_build (plain : setup.Plain)
    (built : setup.build cpu storage = some (.ok fresh)) : fresh.board.Plain := by
  rcases plain.eq_of_build built with ⟨timing, rom, rfl⟩
  exact ⟨rfl, rfl⟩

theorem Plain.reset_of_build [ResettableProcessor Cpu] (plain : setup.Plain)
    (built : setup.build cpu storage = some (.ok fresh)) : fresh.reset = fresh := by
  rw [Machine.reset_eq (plain.board_of_build built)]
  rcases plain.eq_of_build built with ⟨timing, rom, rfl⟩
  let screen : Screen := { timing, canvas := Canvas.empty timing.geometry.pixelCount }
  exact congrArg (fun cpu => { setup.plainMachine cpu screen rom with cpu })
    (ResettableProcessor.reset_reset cpu)

end Setup

/-! Behind a veil of what was told before, the runs after a reset are those of a machine that has
just been built. -/

namespace Machine

variable {Cpu κ ρ : Type} [Processor Cpu] [Peripheral κ] [TapeProvider ρ]

theorem outcomes_withHostSide (machine : Machine Cpu κ ρ) (host : HostSide ρ)
    (suppressed muted : Bool) (calls : List RunCall) :
    (machine.withHostSide { host with suppressed, muted }).outcomes calls =
      (machine.withHostSide host).outcomes calls := by
  cases calls with
  | nil => rfl
  | cons call calls =>
      have called : (machine.withHostSide { host with suppressed, muted }).called call =
        (machine.withHostSide host).called call := rfl
      have tacts : Processor.tacts (machine.withHostSide { host with suppressed, muted }).cpu =
        Processor.tacts (machine.withHostSide host).cpu := rfl
      rw [outcomes, outcomes, call_eq, call_eq, called, tacts]

theorem outcomes_withHostSide_eq (machine : Machine Cpu κ ρ) {host other : HostSide ρ}
    (breakpoints : other.breakpoints = host.breakpoints) (provider : other.provider = host.provider)
    (untold : other.notices = #[]) (calls : List RunCall) :
    ((machine.withHostSide host).outcomes calls).map (Veil.outcome { observers := true }) =
      ((machine.withHostSide other).outcomes calls).map
        (Veil.outcome { observers := true, earlier := host.notices }) := by
  rcases other with ⟨_, _, observers, _, suppressed, muted⟩
  subst breakpoints provider untold
  let veil : Veil := { observers := true }
  let seen := veil.machine (machine.withHostSide { host with suppressed, muted })
  have shown : veil.shows = fun _ => true := by
    funext notice
    cases notice <;> rfl
  have notices : #[] ++ host.notices.filter veil.shows = host.notices ++ #[].filter veil.shows := by
    simp [shown]
  have alike : veil.Alike host.notices (machine.withHostSide { host with suppressed, muted })
      (machine.withHostSide { host with observers, notices := #[], suppressed, muted }) :=
    congrArg (fun notices => seen.withBoard { seen.board with notices }) notices
  rw [← machine.outcomes_withHostSide host suppressed muted]
  exact alike.outcomes rfl

variable [ResettableProcessor Cpu]

/-- Whatever a host has done with a plain machine since it was built, a reset makes it the machine
that was built, but for the host's side. From then on its runs come to what those of that machine
come to, as long as breakpoints and tape provider are the same, and tell the same after what had been
told before. -/
theorem reset_restores_power_on {setup : Setup κ ρ} (plain : setup.Plain) {cpu : Cpu}
    {storage : Storage} {fresh reached : Machine Cpu κ ρ}
    (built : setup.build cpu storage = some (.ok fresh)) {actions : List (HostAction ρ)}
    (acted : fresh.acts actions = some reached) :
    reached.reset = fresh.withHostSide reached.hostSide ∧
      ∀ host : HostSide ρ, host.breakpoints = reached.debugger.breakpoints →
        host.provider = reached.board.deck.provider → host.notices = #[] →
        ∀ calls : List RunCall,
          (reached.reset.outcomes calls).map (Veil.outcome { observers := true }) =
            ((fresh.withHostSide host).outcomes calls).map
              (Veil.outcome { observers := true, earlier := reached.board.notices }) := by
  have freshPlain := plain.board_of_build built
  have same := blank_acts freshPlain acted
  have reachedPlain : reached.board.Plain :=
    freshPlain.of_blank (congrArg Machine.board same)
  have restored : reached.reset = fresh.withHostSide reached.hostSide :=
    calc reached.reset
      _ = reached.blank.withHostSide reached.hostSide := reset_eq reachedPlain
      _ = (fresh.blank.withHostSide fresh.hostSide).withHostSide reached.hostSide := by
          rw [same]
          rfl
      _ = fresh.reset.withHostSide reached.hostSide := by rw [reset_eq freshPlain]
      _ = fresh.withHostSide reached.hostSide := by rw [plain.reset_of_build built]
  refine ⟨restored, fun host breakpoints provider untold calls => ?_⟩
  rw [restored]
  exact fresh.outcomes_withHostSide_eq breakpoints provider untold calls

theorem reset_restores_power_on_oneLine :
    let actions : List (HostAction TapeFolder) :=
      [.key 1 2 true, .poke 0x8000 7, .output 0x00FE 0x12 0,
        .tape fun deck => some (deck.subscribe.enterSave 3),
        .run { edit := fun debugger => (debugger.add 0x0010).2, budget := 9 }]
    ∃ reached, oneLine.acts actions = some reached ∧
      (reached.frameCount, reached.board.screen.border, reached.board.deck.mode,
        reached.board.notices.size, reached.debugger.breakpoints) = (1, 2, .save, 3, [0x0010]) ∧
      reached.reset = oneLine.withHostSide reached.hostSide ∧
      ∀ calls, (reached.reset.outcomes calls).map (Veil.outcome { observers := true }) =
        ((oneLine.withHostSide { breakpoints := reached.debugger.breakpoints
                                 provider := reached.board.deck.provider }).outcomes calls).map
          (Veil.outcome { observers := true, earlier := reached.board.notices }) := by
  intro actions
  have used : (oneLine.acts actions).map (fun reached =>
      (reached.frameCount, reached.board.screen.border, reached.board.deck.mode,
        reached.board.notices.size, reached.debugger.breakpoints)) =
      some (1, 2, .save, 3, [0x0010]) := by
    decide +kernel
  rcases Option.map_eq_some_iff.mp used with ⟨reached, acted, facts⟩
  have built := Setup.build_oneLine {}
  rcases reset_restores_power_on Setup.oneLine_plain built acted with ⟨restored, later⟩
  exact ⟨reached, acted, facts, restored, later _ rfl rfl rfl⟩

end Machine

end ZxSpectrum
