import ZxSpectrum.Proofs.Machine.Clock
import ZxSpectrum.Proofs.Machine.Replay
import ZxSpectrum.Proofs.Machine.StopConditions

namespace ZxSpectrum

/-! What the runs of a session draw, from power-on: each frame is drawn whole and in order, and
what has been drawn of it follows the clock. The clock counts the tacts of a frame in 32 bits. An
instruction that meets a fault passes time as well, but nothing is drawn after it. -/

namespace Machine

variable {Cpu κ ρ : Type} [Processor Cpu] [Peripheral κ] [TapeProvider ρ]

theorem PoweredOn.countsWithin {fresh machine : Machine Cpu κ ρ} (poweredOn : fresh.PoweredOn)
    {calls : List RunCall} (reached : fresh.session calls = some machine) :
    ∃ executed, CountsWithin (machine.standing executed) := by
  have counts : CountsWithin (fresh.standing 0) := by
    rw [standing_of_finished poweredOn.frameFinished]
    refine ⟨?_, fun inFrame => absurd rfl inFrame⟩
    change fresh.overflow < fresh.frameTacts
    rw [poweredOn.overflow]
    exact fresh.board.timing.raster.frameTacts_pos
  let permitted (_ : RunOptions) : Prop := True
  have allowed : ∀ call ∈ calls, permitted call.options := fun _ _ => trivial
  rcases session_follows allowed fresh 0 with ⟨last, path, ends⟩
  rcases ends machine reached with ⟨executed, rfl⟩
  exact ⟨executed, path.countsWithin counts⟩

/-! The end of a run by a fault. -/

/-- A fault comes of the instruction begun last, and of that nothing has been drawn. -/
def DrawsNoFault (latest : Option (Event Cpu κ ρ)) : Event Cpu κ ρ → Prop
  | .ended (some .faulted) after =>
    ∃ begun, latest = some (.executing begun) ∧ after.nextDrawn = begun.nextDrawn
  | _ => True

theorem drawsNoFault_of_executed {machine after : Machine Cpu κ ρ} {options : RunOptions}
    {reason : Completion} (stopped : machine.executeInstruction options = some (some reason, after)) :
    DrawsNoFault (some (.executing machine)) (.ended (some reason) (after.withCompletion reason)) := by
  cases executed_of_executeInstruction stopped with
  | faulted cycled => exact ⟨machine, rfl, congrArg Account.nextDrawn (account_cycle cycled)⟩
  | halted _ _ => trivial

omit [Peripheral κ] [TapeProvider ρ] in
theorem drawsNoFault_of_stopReason {machine asked : Machine Cpu κ ρ} {request : RunRequest}
    {progress : RunProgress} {reason : Completion}
    (stops : machine.stopReason request progress = (some reason, asked))
    (latest : Option (Event Cpu κ ρ)) :
    DrawsNoFault latest (.ended (some reason) (asked.withCompletion reason)) := by
  have considered := machine.considered request progress
  rw [stops] at considered
  generalize found : some reason = completion at considered
  cases considered with
  | cancelled | timeout | pointReached =>
      cases found
      trivial
  | @asked stop =>
      cases stop with
      | true =>
          cases found
          trivial
      | false => exact nomatch found

theorem watchFaults :
    Watch (fun _ => True) (fun _ event => some event)
      (DrawsNoFault : Option (Event Cpu κ ρ) → Event Cpu κ ρ → Prop) (fun _ _ => True)
      fun _ _ _ _ => True where
  begins _ _ := trivial
  fits turned _ := by
    cases turned with
    | cancelled => trivial
    | stopped _ _ _ => trivial
    | executed _ _ _ => exact ⟨trivial, trivial⟩
  goesOn _ _ := trivial
  stops turned _ := by
    refine ⟨?_, trivial⟩
    cases turned with
    | cancelled => trivial
    | stopped _ _ stops => exact drawsNoFault_of_stopReason stops _
    | executed _ _ advances =>
        cases advances with
        | stopped stopped => exact drawsNoFault_of_executed stopped
        | ended _ _ => trivial
  unfinished _ := ⟨trivial, trivial⟩

theorem history_fault {machine : Machine Cpu κ ρ} {calls : List RunCall}
    {before rest : List (Event Cpu κ ρ)} {after : Machine Cpu κ ρ}
    (split : machine.history calls = before ++ .ended (some .faulted) after :: rest) :
    ∃ begun, before.getLast? = some (.executing begun) ∧ after.nextDrawn = begun.nextDrawn := by
  have latest : before.foldl (fun _ event => some event) none = before.getLast? := by
    rcases before.eq_nil_or_concat with rfl | ⟨front, event, rfl⟩
    · rfl
    · rw [List.concat_eq_append, List.foldl_concat, List.getLast?_concat]
  have monitored : Monitored (fun _ event => some event) DrawsNoFault none (machine.history calls) :=
    watchFaults.history (fun _ _ => trivial) trivial
  rw [split] at monitored
  have fits := monitored.fits
  rwa [latest] at fits

/-- From power-on, after whatever runs, a session that draws the screen draws all the tacts of a
frame between its start and its completion, each once and in order. At every boundary between two
instructions, and where the session ends, those drawn of the frame are the ones before the next to
draw. Once an instruction of the run has been executed that is at least as far on as the clock, and
just as far as long as the tacts passed of the frame fit the clock. A run that ends with a fault
draws nothing of the instruction that has met it. -/
theorem session_draws_frames {fresh machine : Machine Cpu κ ρ} (poweredOn : fresh.PoweredOn)
    {earlier : List RunCall} (reached : fresh.session earlier = some machine)
    (calls : List RunCall) (drawing : ∀ call ∈ calls, call.options.withoutDrawing = false) :
    let log := machine.sessionLog calls
    (∀ after, machine.session calls = some after →
      log.foldl Moment.replay machine.sheet = after.sheet ∧
        ∀ before inside start, log = before ++ .frameStarted start :: inside →
          (∀ moment ∈ inside, moment.bounds = false) →
            drawnTacts inside = List.range after.nextDrawn) ∧
    (∀ before inside after start last,
      log = before ++ .frameStarted start :: inside ++ .frameCompleted last :: after →
        (∀ moment ∈ inside, moment.bounds = false) →
          drawnTacts inside = List.range machine.frameTacts) ∧
    (∀ before inside after start executed state,
      log = before ++ .frameStarted start :: inside ++ .boundary executed state :: after →
        (∀ moment ∈ inside, moment.bounds = false) →
          drawnTacts inside = List.range state.nextDrawn) ∧
    (∀ before after rest,
      machine.history calls = before ++ .ended (some .faulted) after :: rest →
        ∃ begun, before.getLast? = some (.executing begun) ∧ after.nextDrawn = begun.nextDrawn) ∧
    ∀ [LawfulProcessor Cpu] [MonotonicProcessor Cpu] executed state,
      .boundary executed state ∈ log → 0 < executed →
        min state.frameTact state.frameTacts ≤ state.nextDrawn ∧
          (state.elapsed < UInt32.size → state.nextDrawn = min state.frameTact state.frameTacts) := by
  intro log
  let permitted (options : RunOptions) : Prop := options.withoutDrawing = false
  have allowed : ∀ call ∈ calls, permitted call.options := drawing
  have drawing : ∀ options : RunOptions, options.withoutDrawing = false →
      options.withoutDrawing = false := fun _ drawing => drawing
  rcases poweredOn.countsWithin reached with ⟨executed, counts⟩
  rcases session_follows allowed machine executed with ⟨last, path, ends⟩
  -- The start of a frame begun before the session is not in the log: nothing of it is counted.
  rcases path.draws drawing counts.draws with ⟨inOrder, draws⟩
  refine ⟨fun after ended => ?_, ?_, ?_, fun _ _ _ => history_fault, ?_⟩
  · rcases ends after ended with ⟨executed, rfl⟩
    refine ⟨path.replay, fun before inside start split within => ?_⟩
    rcases drawnTacts_of_started inOrder split within with ⟨many, tacts, count⟩
    have next : after.nextDrawn = many := draws.nextDrawn count
    rw [tacts, next]
  · intro before inside after start last split within
    rcases drawnTacts_of_split inOrder split within with ⟨many, tacts, total⟩
    have total : machine.frameTacts = many := total
    rw [tacts, total]
  · intro before inside after start executed state split within
    rcases drawnTacts_of_split inOrder split within with ⟨many, tacts, next⟩
    have next : state.nextDrawn = many := next
    rw [tacts, next]
  · intro _ _ executed state member ran
    have accounted := session_accounted poweredOn.accounted reached
    rcases session_follows allowed machine 0 with ⟨last, path, -⟩
    exact path.upToDate drawing (accounted.keepsUp True) member ran

theorem session_draws_frames_oneLine :
    let earlier : List RunCall :=
      [{ options := { mode := .debugger .stepInto, withoutDrawing := true }, budget := 9 }]
    let calls : List RunCall :=
      [{ options := { mode := .untilFrameEnds }, budget := 9 },
        { options := { mode := .untilFrameEnds }, budget := 9 },
        { options := { mode := .continuous, timeout := 3 }, budget := 9 }]
    oneLine.PoweredOn ∧ (∀ call ∈ calls, call.options.withoutDrawing = false) ∧
      ∃ machine, oneLine.session earlier = some machine ∧
        (machine.sessionLog calls).countP Moment.bounds = 4 ∧
        (∀ before inside after start last,
          machine.sessionLog calls =
              before ++ .frameStarted start :: inside ++ .frameCompleted last :: after →
            (∀ moment ∈ inside, moment.bounds = false) → drawnTacts inside = List.range 20) ∧
        ∀ executed state, .boundary executed state ∈ machine.sessionLog calls → 0 < executed →
          state.elapsed < UInt32.size → state.nextDrawn = min state.frameTact state.frameTacts := by
  intro earlier calls
  have poweredOn : oneLine.PoweredOn := .built (Setup.build_oneLine {})
  have drawing : ∀ call ∈ calls, call.options.withoutDrawing = false := by decide
  have runs : (oneLine.session earlier).any (fun machine =>
      machine.frameTacts = 20 ∧ (machine.sessionLog calls).countP Moment.bounds = 4) = true := by
    decide +kernel
  rcases (Option.any_eq_true _ _).mp runs with ⟨machine, reached, counts⟩
  rcases of_decide_eq_true counts with ⟨frameTacts, bounds⟩
  rcases session_draws_frames poweredOn reached calls drawing with ⟨-, frames, -, -, upToDate⟩
  rw [frameTacts] at frames
  exact ⟨poweredOn, drawing, machine, reached, bounds, frames,
    fun executed state member ran => (upToDate executed state member ran).2⟩

end Machine

/-! What is drawn leaves the clock where the clock wraps, and where a fault comes after some tacts. -/

/-- A processor that only passes time, for each instruction as long as it is told, and then meets
the fault that it is told to meet. -/
structure TimedProcessor where
  lengths : List (Nat × Option ProcessorFault)
  tacts : Nat := 0
  registers : Registers := {}
  signals : Signals := {}

namespace TimedProcessor

def step (cpu : TimedProcessor) : BusProgram (TimedProcessor × Option ProcessorFault) :=
  match cpu.lengths with
  | [] => .done ({ cpu with tacts := cpu.tacts + 4 }, none)
  | (length, fault) :: lengths =>
    .done ({ cpu with lengths, tacts := cpu.tacts + length }, fault)

instance : Processor TimedProcessor where
  tacts := tacts
  registers := registers
  withRegisters registers cpu := { cpu with registers }
  signals := signals
  withSignals signals cpu := { cpu with signals }
  midInstruction _ := false
  interruptBlocked _ := false
  step := step
  callLength _ _ := 0
  reset cpu := { lengths := cpu.lengths }

instance : LawfulProcessor TimedProcessor where
  registers_withRegisters _ _ := rfl
  tacts_withRegisters _ _ := rfl
  signals_withRegisters _ _ := rfl
  withRegisters_registers _ := rfl
  signals_withSignals _ _ := rfl
  tacts_withSignals _ _ := rfl
  registers_withSignals _ _ := rfl

instance : MonotonicProcessor TimedProcessor where
  tacts_le_step cpu := by
    rcases cpu with ⟨_ | ⟨⟨length, fault⟩, lengths⟩, tacts, registers, signals⟩
    · exact Nat.le_add_right tacts 4
    · exact Nat.le_add_right tacts length

end TimedProcessor

def Moment.boundary? {Cpu κ ρ : Type} : Moment Cpu κ ρ → Option (Nat × Machine Cpu κ ρ)
  | .boundary executed machine => some (executed, machine)
  | _ => none

theorem boundary_mem_of_getElem? {Cpu κ ρ : Type} {log : List (Moment Cpu κ ρ)} {index executed : Nat}
    {machine : Machine Cpu κ ρ}
    (found : log[index]?.bind Moment.boundary? = some (executed, machine)) :
    .boundary executed machine ∈ log := by
  rcases Option.bind_eq_some_iff.mp found with ⟨moment, there, boundary⟩
  cases moment with
  | boundary _ _ =>
      cases boundary
      exact List.mem_of_getElem? there
  | frameStarted _ | drawn _ _ _ _ | executing _ | frameCompleted _ => exact nomatch boundary

/-- Ten tacts are drawn after an instruction of ten tacts. The next takes so long that the clock
wraps and shows five. A fault after four tacts leaves only the four drawn of the instruction before
it. In both cases the machine stands between two instructions of its frame of twenty tacts. -/
theorem Machine.drawing_leaves_clock :
    let run : RunCall := { options := { mode := .continuous }, budget := 3 }
    let wraps : Machine TimedProcessor PortCard TapeFolder :=
      oneLine.around { lengths := [(10, none), (2 ^ 32 - 5, none)] }
    let faults : Machine TimedProcessor PortCard TapeFolder :=
      oneLine.around { lengths := [(4, none), (4, some (.other "bus"))] }
    (LawfulProcessor TimedProcessor ∧ MonotonicProcessor TimedProcessor) ∧
    (wraps.PoweredOn ∧ ∃ state, .boundary 2 state ∈ wraps.sessionLog [run] ∧
      state.frameFinished = false ∧ state.nextDrawn = 10 ∧
      min state.frameTact state.frameTacts = 5) ∧
    (faults.PoweredOn ∧ ∃ state after, .boundary 1 state ∈ faults.sessionLog [run] ∧
      faults.call run = some (some .faulted, after) ∧ after.frameFinished = false ∧
      after.nextDrawn = 4 ∧ min after.frameTact after.frameTacts = 8) := by
  intro run wraps faults
  have poweredOn (cpu : TimedProcessor) :
      (oneLine.around (Processor.reset cpu) : Machine _ PortCard TapeFolder).PoweredOn :=
    .built (Setup.build_oneLine_around 48000 cpu {})
  have wrapped : ((wraps.sessionLog [run])[15]?.bind Moment.boundary?).any (fun found =>
      found.1 = 2 ∧ found.2.frameFinished = false ∧ found.2.nextDrawn = 10 ∧
        min found.2.frameTact found.2.frameTacts = 5) = true := by
    decide +kernel
  have retired : ((faults.sessionLog [run])[7]?.bind Moment.boundary?).any (·.1 = 1) = true := by
    decide +kernel
  have failed : (faults.call run).any (fun result =>
      result.1 = some .faulted ∧ result.2.frameFinished = false ∧ result.2.nextDrawn = 4 ∧
        min result.2.frameTact result.2.frameTacts = 8) = true := by
    decide +kernel
  rcases (Option.any_eq_true _ _).mp wrapped with ⟨⟨executed, state⟩, found, shows⟩
  rcases of_decide_eq_true shows with ⟨rfl, inFrame, drawn, clock⟩
  rcases (Option.any_eq_true _ _).mp retired with ⟨⟨executed, first⟩, foundFirst, one⟩
  cases of_decide_eq_true one
  rcases (Option.any_eq_true _ _).mp failed with ⟨⟨reason, after⟩, ran, stands⟩
  rcases of_decide_eq_true stands with ⟨rfl, unfinished, left, passed⟩
  refine ⟨⟨inferInstance, inferInstance⟩, ?_, ?_⟩
  · exact ⟨poweredOn ⟨_, 0, {}, {}⟩, state, boundary_mem_of_getElem? found, inFrame, drawn, clock⟩
  · exact ⟨poweredOn ⟨_, 0, {}, {}⟩, first, after, boundary_mem_of_getElem? foundFirst, ran,
      unfinished, left, passed⟩

end ZxSpectrum
