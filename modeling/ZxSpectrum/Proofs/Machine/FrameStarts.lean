import ZxSpectrum.Proofs.Machine.Pace

namespace ZxSpectrum

/-! Where frames start. The tacts by which a frame has run past its end are carried into the next
one as machine tacts, so a part of one that the processor has executed already is lost: the next
frame starts that much later, and what is lost in one frame is not made up for in another. -/

/-- The processor tacts of the frame that do not make up a machine tact. -/
def Machine.leftover {Cpu κ ρ : Type} [Processor Cpu] (machine : Machine Cpu κ ρ) : Nat :=
  (Processor.tacts machine.cpu - machine.board.frameStart) % machine.board.multiplier

namespace Moment

variable {Cpu κ ρ : Type} [Processor Cpu]

/-- Where the present frame has started, or the next one will, with frames of a number of processor
tacts. -/
def expectedStart (period : Nat) (expected : Option Nat) : Moment Cpu κ ρ → Option Nat
  | .frameStarted machine => some machine.board.frameStart
  | .frameCompleted machine => expected.map (· + period + machine.leftover)
  | _ => expected

def StartsAsExpected (expected : Option Nat) : Moment Cpu κ ρ → Prop
  | .frameStarted machine => ∀ start ∈ expected, machine.board.frameStart = start
  | _ => True

def Scheduled (period : Nat) (expected : Option Nat) (log : List (Moment Cpu κ ρ)) : Prop :=
  Monitored (expectedStart period) StartsAsExpected expected log

theorem expectedStart_of_scheduled {period : Nat} {log : List (Moment Cpu κ ρ)} {start : Nat}
    (scheduled : Scheduled period (some start) log) :
    log.foldl (expectedStart period) (some start) =
      some (start + (completions log).length * period +
        ((completions log).map Machine.leftover).sum) := by
  induction log generalizing start with
  | nil =>
      rw [completions, List.filterMap_nil, List.length_nil, Nat.zero_mul]
      rfl
  | cons moment log induction =>
      rcases scheduled with ⟨fits, scheduled⟩
      cases moment with
      | frameStarted machine =>
          have same : machine.board.frameStart = start := fits start rfl
          rw [← same] at scheduled ⊢
          exact induction scheduled
      | frameCompleted machine =>
          refine (induction scheduled).trans (congrArg some ?_)
          have more : completions (.frameCompleted machine :: log) = machine :: completions log :=
            rfl
          rw [more, List.length_cons, List.map_cons, List.sum_cons, Nat.succ_mul]
          ring
      | drawn _ _ _ _ => exact induction scheduled
      | boundary _ _ => exact induction scheduled
      | executing _ => exact induction scheduled

theorem ignoresDrawing_scheduled (period : Nat) :
    IgnoresDrawing (expectedStart period)
      (StartsAsExpected : Option Nat → Moment Cpu κ ρ → Prop) :=
  fun _ _ _ _ _ => ⟨trivial, rfl⟩

end Moment

namespace Machine

variable {Cpu κ ρ : Type} [Processor Cpu] [Peripheral κ]

theorem leftover_completeFrame (machine : Machine Cpu κ ρ) :
    machine.completeFrame.leftover = machine.leftover := by
  rw [leftover, leftover, machine.frameStart_completeFrame, machine.multiplier_completeFrame]
  rfl

/-! The next frame starts at the end of the present one, but for what is left over. -/

theorem start_of_completeFrame {machine : Machine Cpu κ ρ}
    (started : machine.board.frameStart ≤ Processor.tacts machine.cpu)
    (past : machine.frameTacts ≤ machine.frameTact)
    (near : machine.frameTact < 2 * machine.frameTacts)
    (small : machine.elapsed < UInt32.size) :
    Processor.tacts machine.cpu - machine.completeFrame.overflow * machine.board.multiplier =
      machine.board.frameStart + machine.frameTacts * machine.board.multiplier +
        machine.leftover := by
  have same : machine.frameTact = machine.elapsed := Nat.mod_eq_of_lt small
  have passed : machine.elapsed * machine.board.multiplier + machine.leftover =
      Processor.tacts machine.cpu - machine.board.frameStart :=
    Nat.div_add_mod' _ _
  rw [overflow_completeFrame past near, same, Nat.sub_mul]
  have longer : machine.frameTacts * machine.board.multiplier ≤
      machine.elapsed * machine.board.multiplier :=
    Nat.mul_le_mul_right _ (past.trans_eq same)
  omega

variable [TapeProvider ρ]

/-! Where a session stands with its frame starts. -/

def OnSchedule (period : Nat) (expected : Option Nat) (standing : Standing Cpu κ ρ) : Prop :=
  let machine := standing.machine
  machine.frameTacts * machine.board.multiplier = period ∧
    if standing.stage = .betweenFrames then
      ∀ start ∈ expected,
        Processor.tacts machine.cpu - machine.overflow * machine.board.multiplier = start
    else
      machine.board.frameStart ≤ Processor.tacts machine.cpu ∧
        ∀ start ∈ expected, machine.board.frameStart = start

variable {permitted : RunOptions → Prop} {period : Nat} {expected : Option Nat}
  {first last : Standing Cpu κ ρ} {log : List (Moment Cpu κ ρ)}

/-- Every frame that is completed has run less than a frame past its end, on a counter that has not
wrapped. -/
def CompletedSoon (log : List (Moment Cpu κ ρ)) : Prop :=
  ∀ completed ∈ completions log,
    completed.frameTacts ≤ completed.frameTact ∧
      completed.frameTact < 2 * completed.frameTacts ∧ completed.elapsed < UInt32.size

theorem Executed.onSchedule [LawfulProcessor Cpu] [MonotonicProcessor Cpu]
    {machine after : Machine Cpu κ ρ} {options : RunOptions} {reason : Option Completion}
    (executed : Executed machine options reason after) {stage : Stage} {before later : Nat}
    (inFrame : stage ≠ .betweenFrames)
    (onSchedule : OnSchedule period expected ⟨.begun, before, machine⟩) :
    OnSchedule period expected ⟨stage, later, after⟩ := by
  rcases onSchedule with ⟨length, started, start⟩
  rcases executed.settled with ⟨fault, stepped, cycled, settled, -⟩
  have frame := executed.sameFrame
  have passed : Processor.tacts machine.cpu ≤ Processor.tacts after.cpu :=
    (tacts_le_cycle cycled).trans_eq settled.tacts.symm
  refine ⟨?_, ?_⟩
  · rw [frame.frameTacts, frame.multiplier]
    exact length
  · rw [if_neg inFrame, frame.frameStart]
    exact ⟨started.trans passed, start⟩

theorem Step.onSchedule [LawfulProcessor Cpu] [MonotonicProcessor Cpu]
    (step : Step permitted first log last) (onSchedule : OnSchedule period expected first)
    (soon : CompletedSoon log) :
    Moment.Scheduled period expected log ∧
      OnSchedule period (log.foldl (Moment.expectedStart period) expected) last := by
  have ignores : IgnoresDrawing (Moment.expectedStart period)
      (Moment.StartsAsExpected : Option Nat → Moment Cpu κ ρ → Prop) :=
    Moment.ignoresDrawing_scheduled period
  cases step with
  | note _ _ => exact ⟨trivial, onSchedule⟩
  | call _ => exact ⟨trivial, onSchedule⟩
  | @startFrame _ machine =>
      rcases onSchedule with ⟨length, starts⟩
      have begun := machine.frameStart_startFrame
      have fits : Moment.StartsAsExpected expected (.frameStarted machine.startFrame) :=
        fun start member => begun.trans (starts start member)
      rcases ignores.startFrameLog fits with ⟨scheduled, same⟩
      rw [same]
      refine ⟨scheduled, ?_, ?_⟩
      · rw [machine.frameTacts_startFrame, machine.multiplier_startFrame]
        exact length
      · exact ⟨begun.trans_le (Nat.sub_le _ _), fun start there => Option.some.inj there⟩
  | boundary _ => exact ⟨⟨trivial, trivial⟩, onSchedule⟩
  | start => exact ⟨⟨trivial, trivial⟩, onSchedule⟩
  | @stop _ machine options _ _ _ stopped =>
      rcases ignores.executeLog machine options expected with ⟨scheduled, same⟩
      rw [same]
      have executed := executed_of_executeInstruction stopped
      exact ⟨scheduled, executed.onSchedule (by decide) onSchedule⟩
  | @goOn _ machine options after _ completed =>
      rcases ignores.executeLog machine options expected with ⟨scheduled, same⟩
      rw [same]
      have executed := executed_of_executeInstruction completed
      refine ⟨scheduled, executed.onSchedule ?_ onSchedule⟩
      split <;> decide
  | @completeFrame _ machine =>
      rcases onSchedule with ⟨length, started, starts⟩
      rcases soon machine.completeFrame List.mem_cons_self with ⟨past, near, small⟩
      rw [frameTact_completeFrame, frameTacts_completeFrame] at past near
      rw [elapsed_completeFrame] at small
      have next := start_of_completeFrame started past near small
      refine ⟨⟨trivial, trivial⟩, ?_, ?_⟩
      · rw [machine.frameTacts_completeFrame, machine.multiplier_completeFrame]
        exact length
      · intro start member
        rcases Option.mem_map.mp member with ⟨begun, expects, rfl⟩
        rw [machine.multiplier_completeFrame, machine.leftover_completeFrame, ← length,
          ← starts begun expects]
        exact next

variable [LawfulProcessor Cpu] [MonotonicProcessor Cpu]

theorem Path.scheduled (path : Path permitted first log last)
    (onSchedule : OnSchedule period expected first) (soon : CompletedSoon log) :
    Moment.Scheduled period expected log := by
  induction path generalizing expected with
  | nil => trivial
  | cons step _ induction =>
      rw [CompletedSoon, completions, List.filterMap_append] at soon
      rcases List.forall_mem_append.mp soon with ⟨now, later⟩
      rcases step.onSchedule onSchedule now with ⟨scheduled, onSchedule⟩
      exact monitored_append.mpr ⟨scheduled, induction onSchedule later⟩

/-- From power-on, in runs that meet no fault and do not wait for a halt, with instructions that
take no longer than a frame, a frame starts where the ones before it end, but for what they leave
over: so the frames do not drift where each takes a whole number of machine tacts. -/
theorem frames_start_apart {machine : Machine Cpu κ ρ} (poweredOn : machine.PoweredOn)
    {calls : List RunCall} (noHalt : ∀ call ∈ calls, call.options.mode ≠ .untilHalt)
    (paced : Paced machine.frameTacts none (executings (machine.sessionLog calls)))
    (small : ∀ completed ∈ completions (machine.sessionLog calls),
      completed.elapsed < UInt32.size)
    {before between after : List (Moment Cpu κ ρ)} {started later : Machine Cpu κ ρ}
    (split : machine.sessionLog calls =
      before ++ .frameStarted started :: (between ++ .frameStarted later :: after)) :
    let period := machine.frameTacts * machine.board.multiplier
    let count := (completions between).length
    let leftovers := (completions between).map leftover
    later.board.frameStart = started.board.frameStart + count * period + leftovers.sum ∧
      (later.board.frameStart = started.board.frameStart + count * period ↔
        ∀ leftover ∈ leftovers, leftover = 0) := by
  intro period count leftovers
  have onTime := session_onTime poweredOn machine.board.timing.raster.frameTacts_pos le_rfl noHalt
    paced
  have soon : CompletedSoon (machine.sessionLog calls) := by
    intro completed member
    rcases onTime _ (mem_completions.mp member) with ⟨past, near⟩
    exact ⟨past, near, small completed member⟩
  let permitted (_ : RunOptions) : Prop := True
  have allowed : ∀ call ∈ calls, permitted call.options := fun _ _ => trivial
  rcases session_follows allowed machine 0 with ⟨last, path, -⟩
  have onSchedule : OnSchedule period none (machine.standing 0) := by
    rw [standing_of_finished poweredOn.frameFinished]
    exact ⟨rfl, fun _ impossible => nomatch impossible⟩
  have scheduled := path.scheduled onSchedule soon
  rw [split] at scheduled
  rcases monitored_append.mp (monitored_append.mp scheduled).2.2 with ⟨scheduled, starts, -⟩
  have start := starts _ (Moment.expectedStart_of_scheduled scheduled)
  refine ⟨start, ?_⟩
  rw [start, Nat.add_eq_left]
  exact List.sum_eq_zero_iff

/-- With a processor clock that is twice as fast as the machine's, an instruction of seven tacts
makes a frame of forty processor tacts end after forty-three. -/
def uneven : Machine ScriptedProcessor PortCard TapeFolder :=
  ((oneLine.programmed [0x3E, 0, 0, 0, 0, 0, 0, 0, 0, 0, 0, 0x3E, 0]).accelerated 2).reset

def intoNextFrame : List RunCall :=
  [{ options := { mode := .untilFrameEnds }, budget := 19 },
    { options := { mode := .debugger .stepInto }, budget := 9 }]

theorem noHalt_intoNextFrame : ∀ call ∈ intoNextFrame, call.options.mode ≠ .untilHalt := by
  decide

theorem frames_start_apart_uneven :
    let log := uneven.sessionLog intoNextFrame
    let between := (log.drop 1).take 41
    uneven.PoweredOn ∧ Paced uneven.frameTacts none (executings log) ∧
      (∀ completed ∈ completions log, completed.elapsed < UInt32.size) ∧
      ∃ started later,
        log = log.take 0 ++ .frameStarted started ::
          (between ++ .frameStarted later :: (log.drop 1).drop 42) ∧
        (completions between).map leftover = [1] ∧
        later.board.frameStart = started.board.frameStart + 1 * 40 + 1 := by
  intro log between
  have poweredOn : uneven.PoweredOn := .reset (by decide)
  obtain ⟨paced, small, begins, goesOn, leftovers, count, period⟩ :
      Paced uneven.frameTacts none (executings log) ∧
      (∀ completed ∈ completions log, completed.elapsed < UInt32.size) ∧
      (log[0]?.bind Moment.frameStarted?).isSome ∧
      ((log.drop 1)[41]?.bind Moment.frameStarted?).isSome ∧
      (completions between).map leftover = [1] ∧ (completions between).length = 1 ∧
      uneven.frameTacts * uneven.board.multiplier = 40 := by
    decide +kernel
  rcases Option.isSome_iff_exists.mp begins with ⟨started, found⟩
  rcases Option.isSome_iff_exists.mp goesOn with ⟨later, foundLater⟩
  have split := split_of_getElem?_twice (getElem?_of_frameStarted found)
    (getElem?_of_frameStarted foundLater)
  rcases frames_start_apart poweredOn noHalt_intoNextFrame paced small split with ⟨start, -⟩
  rw [period, count, leftovers] at start
  exact ⟨poweredOn, paced, small, started, later, split, leftovers, start⟩

/-- Frames start a number of processor tacts apart. -/
def EvenlySpaced (period : Nat) (log : List (Moment Cpu κ ρ)) : Prop :=
  ∀ before started between later after,
    log = before ++ .frameStarted started :: (between ++ .frameStarted later :: after) →
      later.board.frameStart = started.board.frameStart + (completions between).length * period

/-- No instruction takes more than half a frame, and yet the second frame does not start where the
first one ends. -/
theorem frames_drift_uneven :
    let log := uneven.sessionLog intoNextFrame
    uneven.PoweredOn ∧ (∀ call ∈ intoNextFrame, call.options.mode ≠ .untilHalt) ∧
      Paced 10 none (executings log) ∧ 10 < uneven.frameTacts ∧
      ¬ EvenlySpaced (uneven.frameTacts * uneven.board.multiplier) log := by
  intro log
  obtain ⟨paced, short, begins, goesOn, count⟩ :
      Paced 10 none (executings log) ∧ 10 < uneven.frameTacts ∧
      (log[0]?.bind Moment.frameStarted?).any (·.board.frameStart = 0) = true ∧
      ((log.drop 1)[41]?.bind Moment.frameStarted?).any (·.board.frameStart = 41) = true ∧
      (completions ((log.drop 1).take 41)).length *
        (uneven.frameTacts * uneven.board.multiplier) = 40 := by
    decide +kernel
  refine ⟨.reset (by decide), noHalt_intoNextFrame, paced, short, fun spaced => ?_⟩
  rcases (Option.any_eq_true _ _).mp begins with ⟨started, found, start⟩
  rcases (Option.any_eq_true _ _).mp goesOn with ⟨later, foundLater, next⟩
  have split := split_of_getElem?_twice (getElem?_of_frameStarted found)
    (getElem?_of_frameStarted foundLater)
  have spacing := spaced _ _ _ _ _ split
  rw [of_decide_eq_true start, of_decide_eq_true next, count] at spacing
  exact absurd spacing (by decide)

end Machine

end ZxSpectrum
