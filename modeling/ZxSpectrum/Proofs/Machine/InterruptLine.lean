import ZxSpectrum.Proofs.Machine.InterruptWindow

namespace ZxSpectrum

/-! The interrupt line. Polls of the window assert and release it, and a processor may release it.
A frame that is completed before its window has been found closed leaves the line asserted: the
next frame forgets that there is something to release, and the line stays asserted there up to the
first poll behind the window. -/

namespace Interrupt

inductive Drives (interrupt : Interrupt) (tact : Nat) : Interrupt → LineChange → Prop
  | kept (quiet : interrupt.revoked = true ∨ tact ≤ interrupt.tact + longestInstruction) :
    Drives interrupt tact interrupt .keep
  | released (late : interrupt.tact + longestInstruction < tact) :
    Drives interrupt tact { interrupt with revoked := true } .release
  | asserted (unrevoked : interrupt.revoked = false) (opened : interrupt.tact ≤ tact)
    (early : tact ≤ interrupt.tact + longestInstruction) :
    Drives interrupt tact { interrupt with raised := true, count := interrupt.count + 1 } .assert

theorem drives_of_poll {interrupt after : Interrupt} {blocked : Bool} {tact : Nat}
    {change : LineChange} (polls : interrupt.poll blocked tact = some (after, change)) :
    interrupt.Drives tact after change := by
  cases answers_of_poll polls with
  | closed quiet =>
      exact .kept (quiet.imp_right fun before => before.le.trans (Nat.le_add_right _ _))
  | released _ late => exact .released late
  | held _ _ early _ => exact .kept (.inr early)
  | asserted unrevoked opened early _ _ => exact .asserted unrevoked opened early

end Interrupt

/-! The line from poll to poll, and across the end of a frame. -/

inductive InterruptLine
  | clear
  | asserted
  /-- It has been asserted in a frame that has been completed since. -/
  | leftAsserted
deriving DecidableEq

namespace InterruptLine

def driven (line : InterruptLine) : Interrupt.LineChange → InterruptLine
  | .keep => line
  | .assert => .asserted
  | .release => .clear

def carried : InterruptLine → InterruptLine
  | .clear => .clear
  | .asserted | .leftAsserted => .leftAsserted

theorem carried_ne_asserted (line : InterruptLine) : line.carried ≠ .asserted := by
  cases line <;> decide

theorem carried_eq_clear_iff {line : InterruptLine} : line.carried = .clear ↔ line = .clear := by
  cases line <;> decide

def next {Cpu κ ρ : Type} [Processor Cpu] (line : InterruptLine) :
    Moment Cpu κ ρ → InterruptLine
  | .executing machine =>
    match machine.interrupt.poll (Processor.interruptBlocked machine.cpu) machine.frameTact with
    | some (_, change) => line.driven change
    | none => line
  | .frameCompleted _ => line.carried
  | _ => line

end InterruptLine

namespace Machine

variable {Cpu κ ρ : Type} [Processor Cpu]

/-- The poll before the next step of the processor leaves the line asserted in the window only. -/
def AssertsInWindow (window : Nat) (machine : Machine Cpu κ ρ) : Prop :=
  ∀ polled ∈ machine.pollInterrupt, Processor.interrupted polled.cpu = true →
    window ≤ machine.frameTact ∧ machine.frameTact ≤ window + Interrupt.longestInstruction

instance (window : Nat) (machine : Machine Cpu κ ρ) : Decidable (machine.AssertsInWindow window) :=
  inferInstanceAs (Decidable (∀ polled ∈ machine.pollInterrupt, _))

theorem drives_of_pollInterrupt [LawfulProcessor Cpu] {machine polled : Machine Cpu κ ρ}
    (poll : machine.pollInterrupt = some polled) :
    ∃ change, machine.interrupt.Drives machine.frameTact polled.interrupt change ∧
      Processor.signals polled.cpu = change.apply (Processor.signals machine.cpu) ∧
      ∀ line : InterruptLine, line.next (.executing machine) = line.driven change := by
  rcases Option.bind_eq_some_iff.mp poll with ⟨⟨interrupt, change⟩, polls, rest⟩
  have next (line : InterruptLine) : line.next (.executing machine) = line.driven change := by
    rw [InterruptLine.next, polls]
  have drives := Interrupt.drives_of_poll polls
  refine ⟨change, ?_⟩
  cases change <;> cases rest
  · exact ⟨drives, rfl, next⟩
  · exact ⟨drives, LawfulProcessor.signals_withSignals _ _, next⟩
  · exact ⟨drives, LawfulProcessor.signals_withSignals _ _, next⟩

theorem elapsed_pollInterrupt [LawfulProcessor Cpu] {machine polled : Machine Cpu κ ρ}
    (poll : machine.pollInterrupt = some polled) : polled.elapsed = machine.elapsed := by
  have frame := SameFrame.of_account (account_pollInterrupt poll)
  rw [elapsed, elapsed, tacts_pollInterrupt poll, frame.frameStart, frame.multiplier]

theorem cpu_drawnBy (machine : Machine Cpu κ ρ) (options : RunOptions) :
    (machine.drawnBy options).cpu = machine.cpu := by
  rw [drawnBy]
  split
  · rfl
  · rw [drawTo_eq]

/-- The polls account for the interrupt line. A processor that never releases it leaves it as they
do. At a pace, no frame leaves the line asserted, and its window is that far from its end. -/
structure LineAccounted (pace : Option Nat) (passive : Prop) (window : Nat) (line : InterruptLine)
    (machine : Machine Cpu κ ρ) : Prop where
  tact_eq : machine.interrupt.tact = window
  multiplier_pos : 0 < machine.board.multiplier
  interrupted : Processor.interrupted machine.cpu = true → line ≠ .clear
  held : passive → line ≠ .clear → Processor.interrupted machine.cpu = true
  revoked : machine.interrupt.revoked = true → line = .clear
  spare : ∀ limit ∈ pace, line ≠ .leftAsserted ∧
    window + Interrupt.longestInstruction + limit < machine.frameTacts

/-- A line asserted in the present frame has been asserted in its window. At a pace, the frame is
not over before its window has been found closed. -/
structure LineInFrame (pace : Option Nat) (passive : Prop) (window : Nat) (line : InterruptLine)
    (machine : Machine Cpu κ ρ) : Prop extends LineAccounted pace passive window line machine where
  opened : line = .asserted → window ≤ machine.elapsed
  closes : ∀ limit ∈ pace, machine.interrupt.revoked = false →
    machine.elapsed < machine.frameTacts

variable {pace : Option Nat} {passive : Prop} {window : Nat} {line : InterruptLine}

/-! The line through an instruction: a poll, and the step of the processor after it. -/

theorem LineInFrame.polled [LawfulProcessor Cpu] {machine polled : Machine Cpu κ ρ}
    (inFrame : machine.LineInFrame pace passive window line)
    (poll : machine.pollInterrupt = some polled) :
    polled.LineInFrame pace passive window (line.next (.executing machine)) ∧
      (polled.interrupt.revoked = false →
        machine.frameTact ≤ window + Interrupt.longestInstruction) := by
  rcases drives_of_pollInterrupt poll with ⟨change, drives, signals, next⟩
  have frame := SameFrame.of_account (account_pollInterrupt poll)
  have elapsed := elapsed_pollInterrupt poll
  have positive : 0 < polled.board.multiplier := frame.multiplier ▸ inFrame.multiplier_pos
  have interrupted : Processor.interrupted polled.cpu =
      (change.apply (Processor.signals machine.cpu)).contains .interrupt :=
    congrArg (Signals.contains · .interrupt) signals
  rw [next]
  generalize left : polled.interrupt = after at drives
  cases drives with
  | kept quiet =>
      constructor
      · constructor
        · constructor
          · exact left ▸ inFrame.tact_eq
          · exact positive
          · exact fun asserted => inFrame.interrupted (interrupted.symm.trans asserted)
          · exact fun passes line => interrupted.trans (inFrame.held passes line)
          · exact left ▸ inFrame.revoked
          · exact frame.frameTacts ▸ inFrame.spare
        · exact elapsed ▸ inFrame.opened
        · rw [left, elapsed, frame.frameTacts]
          exact inFrame.closes
      · intro unrevoked
        rcases quiet with revoked | early
        · exact absurd (unrevoked.symm.trans revoked) Bool.false_ne_true
        · exact inFrame.tact_eq ▸ early
  | released late =>
      have released : Processor.interrupted polled.cpu = false :=
        interrupted.trans (Signals.contains_remove _)
      have revoked : polled.interrupt.revoked = true := by rw [left]
      change polled.LineInFrame pace passive window .clear ∧ _
      constructor
      · constructor
        · constructor
          · exact left ▸ inFrame.tact_eq
          · exact positive
          · exact fun asserted => absurd (released.symm.trans asserted) Bool.false_ne_true
          · exact fun _ line => absurd rfl line
          · exact fun _ => rfl
          · exact fun limit given => ⟨by decide, frame.frameTacts ▸ (inFrame.spare limit given).2⟩
        · exact fun asserted => absurd asserted (by decide)
        · exact fun _ _ unrevoked => absurd (unrevoked.symm.trans revoked) Bool.false_ne_true
      · exact fun unrevoked => Bool.noConfusion unrevoked
  | asserted unrevoked opened early =>
      have asserted : Processor.interrupted polled.cpu = true :=
        interrupted.trans (Signals.contains_insert _)
      change polled.LineInFrame pace passive window .asserted ∧ _
      constructor
      · constructor
        · constructor
          · exact left ▸ inFrame.tact_eq
          · exact positive
          · exact fun _ => by decide
          · exact fun _ _ => asserted
          · rw [left]
            exact fun revoked => absurd (unrevoked.symm.trans revoked) Bool.false_ne_true
          · exact fun limit given => ⟨by decide, frame.frameTacts ▸ (inFrame.spare limit given).2⟩
        · intro _
          rw [elapsed, ← inFrame.tact_eq]
          exact opened.trans machine.frameTact_le_elapsed
        · rw [left, elapsed, frame.frameTacts]
          exact inFrame.closes
      · exact fun _ => inFrame.tact_eq ▸ early

variable [Peripheral κ] [TapeProvider ρ]

def StepsWithin (limit : Nat) (machine : Machine Cpu κ ρ) : Prop :=
  ∀ result ∈ machine.cycle,
    Processor.tacts result.2.cpu ≤ Processor.tacts machine.cpu + limit * machine.board.multiplier

instance (limit : Nat) (machine : Machine Cpu κ ρ) : Decidable (machine.StepsWithin limit) :=
  inferInstanceAs (Decidable (∀ result ∈ machine.cycle, _))

omit [Peripheral κ] in
theorem signals_followTape [LawfulProcessor Cpu] {machine followed : Machine Cpu κ ρ} {fast : Bool}
    (tape : machine.followTape fast = some followed) :
    Processor.signals followed.cpu = Processor.signals machine.cpu := by
  rcases Option.bind_eq_some_iff.mp tape with ⟨⟨deck, registers, memory⟩, -, rest⟩
  cases rest
  exact LawfulProcessor.signals_withRegisters _ _

theorem signals_of_executed [LawfulProcessor Cpu] {machine after : Machine Cpu κ ρ}
    {options : RunOptions} {reason : Option Completion}
    (executed : Executed machine options reason after) :
    ∃ fault stepped, machine.cycle = some (fault, stepped) ∧
      Processor.signals after.cpu = Processor.signals stepped.cpu := by
  cases executed with
  | @faulted stepped fault cycled => exact ⟨some fault, stepped, cycled, rfl⟩
  | @halted stepped cycled _ => exact ⟨none, stepped, cycled, by rw [cpu_drawnBy]⟩
  | @completed stepped followed cycled tape =>
      have kept := signals_followTape tape
      rw [cpu_drawnBy] at kept
      exact ⟨none, stepped, cycled, kept⟩

/-- The processor never releases the interrupt line. -/
def KeepsInterrupt (Cpu : Type) [Processor Cpu] : Prop :=
  ∀ cpu : Cpu, (Processor.step cpu).All fun result =>
    Processor.interrupted cpu = true → Processor.interrupted result.1 = true

variable [LawfulProcessor Cpu] [MonotonicProcessor Cpu] [QuietProcessor Cpu]

theorem LineInFrame.executed {machine after : Machine Cpu κ ρ} {options : RunOptions}
    {reason : Option Completion} (inFrame : machine.LineInFrame pace passive window line)
    (keeps : passive → KeepsInterrupt Cpu) (steps : ∀ limit ∈ pace, machine.StepsWithin limit)
    (executed : Executed machine options reason after) :
    after.LineInFrame pace passive window (line.next (.executing machine)) := by
  rcases executed.settled with ⟨fault, stepped, cycled, settled, -⟩
  rcases signals_of_executed executed with ⟨_, _, again, signals⟩
  cases cycled.symm.trans again
  have frame := executed.sameFrame
  have later := frame.elapsed_le ((tacts_le_cycle cycled).trans_eq settled.tacts.symm)
  have interrupt := settled.interrupt
  have soon (limit : Nat) (given : limit ∈ pace) : after.elapsed ≤ machine.elapsed + limit := by
    rw [elapsed, frame.frameStart, frame.multiplier, settled.tacts]
    exact Board.passed_le_add inFrame.multiplier_pos (steps limit given _ cycled)
  rcases Option.bind_eq_some_iff.mp cycled with ⟨polled, poll, rest⟩
  rcases Option.bind_eq_some_iff.mp rest with ⟨⟨⟨cpu, fault⟩, board⟩, performed, rest⟩
  cases rest
  rcases inFrame.polled poll with ⟨followed, early⟩
  have elapsed := elapsed_pollInterrupt poll
  have frameTacts := (SameFrame.of_account (account_pollInterrupt poll)).frameTacts
  have signals : Processor.interrupted after.cpu = Processor.interrupted cpu :=
    congrArg (Signals.contains · .interrupt) signals
  constructor
  · constructor
    · exact interrupt ▸ followed.tact_eq
    · exact frame.multiplier ▸ inFrame.multiplier_pos
    · intro asserted
      rw [signals] at asserted
      apply followed.interrupted
      exact Board.of_perform (QuietProcessor.interrupted_of_step polled.cpu) performed asserted
    · intro passes asserted
      rw [signals]
      apply Board.of_perform (keeps passes polled.cpu) performed
      exact followed.held passes asserted
    · exact interrupt ▸ followed.revoked
    · rw [frame.frameTacts, ← frameTacts]
      exact followed.spare
  · exact fun asserted => (followed.opened asserted).trans (elapsed ▸ later)
  · intro limit given unrevoked
    rw [interrupt] at unrevoked
    -- Before the step the frame was not over, so that the clock has not wrapped.
    have within : machine.elapsed < machine.frameTacts := by
      rw [← elapsed, ← frameTacts]
      exact followed.closes limit given unrevoked
    have unwrapped : machine.frameTact = machine.elapsed :=
      Nat.mod_eq_of_lt (within.trans machine.board.timing.raster.frameFits.frameTacts_lt)
    have early := early unrevoked
    have spare := (inFrame.spare limit given).2
    have soon := soon limit given
    rw [frame.frameTacts]
    omega

/-! How the line stands at a place on a path. -/

def LineStands (pace : Option Nat) (passive : Prop) (window : Nat) (line : InterruptLine)
    (standing : Standing Cpu κ ρ) : Prop :=
  let machine := standing.machine
  match standing.stage with
  | .betweenFrames =>
    machine.LineAccounted pace passive window line ∧ machine.Carries ∧ line ≠ .asserted
  | .inFrame => machine.LineInFrame pace passive window line
  | .begun =>
    ∃ earlier : InterruptLine, line = earlier.next (.executing machine) ∧
      machine.LineInFrame pace passive window earlier ∧
      ∀ limit ∈ pace, machine.StepsWithin limit
  | .overrun =>
    machine.LineAccounted pace passive window line ∧ ∀ limit ∈ pace, line = .clear

end Machine

def Moment.AccountsForLine {Cpu κ ρ : Type} [Processor Cpu] (pace : Option Nat) (passive : Prop)
    (window : Nat) (line : InterruptLine) : Moment Cpu κ ρ → Prop
  | .executing machine =>
    (∀ polled ∈ machine.pollInterrupt, Processor.interrupted polled.cpu = true →
      machine.frameTact ≤ window + Interrupt.longestInstruction ∧
        (machine.frameTact < window → machine.elapsed < UInt32.size → line = .leftAsserted)) ∧
    (passive → ∀ polled ∈ machine.pollInterrupt, machine.frameTact < window →
      line = .leftAsserted → Processor.interrupted polled.cpu = true) ∧
    ∀ limit ∈ pace, machine.AssertsInWindow window
  | _ => True

theorem InterruptLine.ignoresDrawing {Cpu κ ρ : Type} [Processor Cpu] (pace : Option Nat)
    (passive : Prop) (window : Nat) :
    IgnoresDrawing InterruptLine.next
      (Moment.AccountsForLine pace passive window : InterruptLine → Moment Cpu κ ρ → Prop) :=
  fun _ _ _ _ _ => ⟨trivial, rfl⟩

namespace Machine

variable {Cpu κ ρ : Type} [Processor Cpu] [Peripheral κ] [TapeProvider ρ] [LawfulProcessor Cpu]
  {pace : Option Nat} {passive : Prop} {window : Nat} {line : InterruptLine}

omit [Peripheral κ] [TapeProvider ρ] in
theorem LineInFrame.accountsForLine {machine : Machine Cpu κ ρ}
    (inFrame : machine.LineInFrame pace passive window line) :
    (Moment.executing machine).AccountsForLine pace passive window line := by
  have closing {polled : Machine Cpu κ ρ} (poll : machine.pollInterrupt = some polled)
      (asserted : Processor.interrupted polled.cpu = true) :
      polled.interrupt.revoked = false ∧
        machine.frameTact ≤ window + Interrupt.longestInstruction := by
    rcases inFrame.polled poll with ⟨followed, early⟩
    have unrevoked : polled.interrupt.revoked = false := by
      apply Bool.eq_false_of_not_eq_true
      exact fun revoked => followed.interrupted asserted (followed.revoked revoked)
    exact ⟨unrevoked, early unrevoked⟩
  refine ⟨?_, ?_, ?_⟩
  · intro polled poll asserted
    refine ⟨(closing poll asserted).2, fun before unwrapped => ?_⟩
    rcases inFrame.polled poll with ⟨followed, -⟩
    rcases drives_of_pollInterrupt poll with ⟨change, -, -, next⟩
    have drove := followed.interrupted asserted
    have opened := followed.opened
    rw [elapsed_pollInterrupt poll, ← Nat.mod_eq_of_lt unwrapped] at opened
    rw [next] at drove opened
    cases change with
    | keep =>
        cases line with
        | clear => exact absurd rfl drove
        | asserted => exact absurd (opened rfl) (Nat.not_le.mpr before)
        | leftAsserted => rfl
    | assert => exact absurd (opened rfl) (Nat.not_le.mpr before)
    | release => exact absurd rfl drove
  · rintro passes polled poll before rfl
    rcases inFrame.polled poll with ⟨followed, -⟩
    rcases drives_of_pollInterrupt poll with ⟨change, drives, -, next⟩
    apply followed.held passes
    rw [next]
    have before : machine.frameTact < machine.interrupt.tact := inFrame.tact_eq.symm ▸ before
    generalize polled.interrupt = after at drives
    cases drives with
    | kept _ => exact fun impossible => InterruptLine.noConfusion impossible
    | released late => exact absurd (before.trans_le (Nat.le_add_right _ _)) late.not_gt
    | asserted _ opened _ => exact absurd before (Nat.not_lt.mpr opened)
  · intro limit given polled poll asserted
    rcases inFrame.polled poll with ⟨followed, -⟩
    rcases closing poll asserted with ⟨unrevoked, early⟩
    refine ⟨?_, early⟩
    have within := followed.closes limit given unrevoked
    have same := elapsed_pollInterrupt poll
    have unwrapped : machine.frameTact = polled.elapsed := by
      rw [frameTact_eq, ← same]
      exact Nat.mod_eq_of_lt (within.trans polled.board.timing.raster.frameFits.frameTacts_lt)
    rw [unwrapped]
    apply followed.opened
    have drove := followed.interrupted asserted
    have left := (followed.spare limit given).1
    generalize line.next (.executing machine) = line at drove left
    cases line with
    | clear => exact absurd rfl drove
    | asserted => rfl
    | leftAsserted => exact absurd rfl left

omit [TapeProvider ρ] [LawfulProcessor Cpu] in
theorem LineAccounted.startFrame {machine : Machine Cpu κ ρ}
    (accounted : machine.LineAccounted pace passive window line) (carries : machine.Carries)
    (idle : line ≠ .asserted) :
    machine.startFrame.LineInFrame pace passive window line := by
  constructor
  · constructor
    · exact accounted.tact_eq
    · exact machine.multiplier_startFrame ▸ accounted.multiplier_pos
    · exact accounted.interrupted
    · exact accounted.held
    · exact fun revoked => Bool.noConfusion revoked
    · rw [machine.frameTacts_startFrame]
      exact accounted.spare
  · exact fun asserted => absurd asserted idle
  · intro _ _ _
    rw [elapsed_startFrame carries, machine.frameTacts_startFrame]
    exact carries.overflow_lt

omit [TapeProvider ρ] [LawfulProcessor Cpu] in
theorem LineAccounted.completeFrame {machine : Machine Cpu κ ρ}
    (accounted : machine.LineAccounted pace passive window line)
    (cleared : ∀ limit ∈ pace, line = .clear) :
    machine.completeFrame.LineAccounted pace passive window line.carried := by
  have cleared_iff : line.carried ≠ .clear ↔ line ≠ .clear :=
    not_congr InterruptLine.carried_eq_clear_iff
  constructor
  · exact accounted.tact_eq
  · exact machine.multiplier_completeFrame ▸ accounted.multiplier_pos
  · exact fun asserted => cleared_iff.mpr (accounted.interrupted asserted)
  · exact fun passes drove => accounted.held passes (cleared_iff.mp drove)
  · exact fun revoked => InterruptLine.carried_eq_clear_iff.mpr (accounted.revoked revoked)
  · intro limit given
    rw [machine.frameTacts_completeFrame]
    refine ⟨?_, (accounted.spare limit given).2⟩
    rw [cleared limit given]
    decide

variable [MonotonicProcessor Cpu] [QuietProcessor Cpu] {permitted : RunOptions → Prop}
  {first last : Standing Cpu κ ρ} {log : List (Moment Cpu κ ρ)}

theorem Step.lineStands (step : Step permitted first log last)
    (keeps : passive → KeepsInterrupt Cpu) (stands : LineStands pace passive window line first)
    (steps : ∀ executing ∈ executings log, ∀ limit ∈ pace, executing.StepsWithin limit) :
    Monitored InterruptLine.next (Moment.AccountsForLine pace passive window) line log ∧
      LineStands pace passive window (log.foldl InterruptLine.next line) last := by
  have ignores : IgnoresDrawing InterruptLine.next
      (Moment.AccountsForLine pace passive window : InterruptLine → Moment Cpu κ ρ → Prop) :=
    InterruptLine.ignoresDrawing pace passive window
  cases step with
  | @note stage _ _ _ _ resting | @call stage _ _ _ _ resting =>
      refine ⟨trivial, ?_⟩
      cases stage with
      | betweenFrames => exact ⟨{ stands.1 with }, { stands.2.1 with }, stands.2.2⟩
      | inFrame => exact { stands with }
      | begun => exact absurd rfl resting
      | overrun => exact ⟨{ stands.1 with }, stands.2⟩
  | @startFrame _ machine =>
      rcases stands with ⟨accounted, carries, idle⟩
      have fitting : (Moment.frameStarted machine.startFrame).AccountsForLine pace passive window
          line := trivial
      rcases ignores.startFrameLog fitting with ⟨monitored, same⟩
      rw [same]
      exact ⟨monitored, accounted.startFrame carries idle⟩
  | boundary between => exact ⟨⟨trivial, trivial⟩, stands⟩
  | @start _ machine =>
      have inFrame : machine.LineInFrame pace passive window line := stands
      refine ⟨⟨inFrame.accountsForLine, trivial⟩, line, rfl, inFrame, ?_⟩
      exact steps machine List.mem_cons_self
  | @stop _ machine options _ after _ stopped =>
      rcases ignores.executeLog machine options line with ⟨monitored, same⟩
      rcases stands with ⟨earlier, rfl, inFrame, steps⟩
      rw [same]
      exact ⟨monitored, inFrame.executed keeps steps (executed_of_executeInstruction stopped)⟩
  | @goOn _ machine options after _ completed =>
      rcases ignores.executeLog machine options line with ⟨monitored, same⟩
      rcases stands with ⟨earlier, rfl, inFrame, steps⟩
      rw [same]
      refine ⟨monitored, ?_⟩
      have executed := executed_of_executeInstruction completed
      have afterInFrame := inFrame.executed keeps steps executed
      cases finished : after.frameFinished with
      | false => exact afterInFrame
      | true =>
          rcases executed.settled with ⟨_, _, _, _, looks⟩
          have past := ((looks rfl).2.past finished).2.trans after.frameTact_le_elapsed
          refine ⟨afterInFrame.toLineAccounted, fun limit given => afterInFrame.revoked ?_⟩
          apply Bool.eq_true_of_not_eq_false
          exact fun unrevoked => past.not_gt (afterInFrame.closes limit given unrevoked)
  | @completeFrame _ machine =>
      rcases stands with ⟨accounted, cleared⟩
      exact ⟨⟨trivial, trivial⟩, accounted.completeFrame cleared,
        completeFrame_carries accounted.multiplier_pos, line.carried_ne_asserted⟩

theorem Path.accountsForLine (path : Path permitted first log last)
    (keeps : passive → KeepsInterrupt Cpu) (stands : LineStands pace passive window line first)
    (steps : ∀ executing ∈ executings log, ∀ limit ∈ pace, executing.StepsWithin limit) :
    Monitored InterruptLine.next (Moment.AccountsForLine pace passive window) line log := by
  induction path generalizing line with
  | nil => trivial
  | cons step _ induction =>
      rw [executings_append] at steps
      rcases List.forall_mem_append.mp steps with ⟨now, later⟩
      rcases step.lineStands keeps stands now with ⟨monitored, stands⟩
      exact monitored_append.mpr ⟨monitored, induction stands later⟩

omit [LawfulProcessor Cpu] [MonotonicProcessor Cpu] [QuietProcessor Cpu] in
theorem PoweredOn.lineStands {machine : Machine Cpu κ ρ} (poweredOn : machine.PoweredOn)
    (released : Processor.interrupted machine.cpu = false)
    (spare : ∀ limit ∈ pace,
      machine.interrupt.tact + Interrupt.longestInstruction + limit < machine.frameTacts) :
    LineStands pace passive machine.interrupt.tact .clear (machine.standing 0) := by
  rw [standing_of_finished poweredOn.frameFinished]
  refine ⟨?_, poweredOn.carries, by decide⟩
  constructor
  · rfl
  · exact poweredOn.multiplier_pos
  · exact fun asserted => absurd (released.symm.trans asserted) Bool.false_ne_true
  · exact fun _ drove => absurd rfl drove
  · exact fun _ => rfl
  · exact fun limit given => ⟨by decide, spare limit given⟩

theorem PoweredOn.accountsForLine {machine : Machine Cpu κ ρ} (poweredOn : machine.PoweredOn)
    (released : Processor.interrupted machine.cpu = false)
    (keeps : passive → KeepsInterrupt Cpu) (calls : List RunCall)
    (spare : ∀ limit ∈ pace,
      machine.interrupt.tact + Interrupt.longestInstruction + limit < machine.frameTacts)
    (steps : ∀ executing ∈ executings (machine.sessionLog calls), ∀ limit ∈ pace,
      executing.StepsWithin limit) :
    Monitored InterruptLine.next
      (Moment.AccountsForLine pace passive machine.interrupt.tact) .clear
      (machine.sessionLog calls) := by
  let permitted (_ : RunOptions) : Prop := True
  have allowed : ∀ call ∈ calls, permitted call.options := fun _ _ => trivial
  rcases session_follows allowed machine 0 with ⟨last, path, -⟩
  exact path.accountsForLine keeps (poweredOn.lineStands released spare) steps

/-- From power-on, with the line released and a processor that does not assert it itself, no poll
leaves the line asserted behind the window, and a poll before the window leaves it asserted only if
a frame has done so that is completed: exactly then, where the processor never releases it. No frame
does so where the window is further from its end than a step of the processor takes, and then each
poll that leaves the line asserted falls into the window. -/
theorem interrupt_asserted_in_window {machine : Machine Cpu κ ρ} (poweredOn : machine.PoweredOn)
    (released : Processor.interrupted machine.cpu = false) (calls : List RunCall) :
    let log := machine.sessionLog calls
    let window := machine.interrupt.tact
    (∀ before polling after, log = before ++ .executing polling :: after →
      ∀ polled ∈ polling.pollInterrupt,
        (Processor.interrupted polled.cpu = true →
          polling.frameTact ≤ window + Interrupt.longestInstruction ∧
            (polling.frameTact < window → polling.elapsed < UInt32.size →
              before.foldl InterruptLine.next .clear = .leftAsserted)) ∧
        (KeepsInterrupt Cpu → polling.frameTact < window →
          before.foldl InterruptLine.next .clear = .leftAsserted →
            Processor.interrupted polled.cpu = true)) ∧
    ∀ limit, window + Interrupt.longestInstruction + limit < machine.frameTacts →
      (∀ executing ∈ executings log, executing.StepsWithin limit) →
        ∀ polling ∈ executings log, polling.AssertsInWindow window := by
  intro log window
  constructor
  · intro before polling after split polled poll
    have accounts : Monitored InterruptLine.next
        (Moment.AccountsForLine none (KeepsInterrupt Cpu) window) .clear log := by
      apply poweredOn.accountsForLine released id calls
      · exact fun limit given => absurd given (Option.not_mem_none limit)
      · exact fun _ _ limit given => absurd given (Option.not_mem_none limit)
    rw [split] at accounts
    rcases accounts.fits with ⟨inWindow, held, -⟩
    exact ⟨inWindow polled poll, fun keeps => held keeps polled poll⟩
  · intro limit spare steps polling member
    have accounts : Monitored InterruptLine.next
        (Moment.AccountsForLine (some limit) (KeepsInterrupt Cpu) window) .clear log := by
      apply poweredOn.accountsForLine released id calls
      · rintro _ ⟨⟩
        exact spare
      · rintro executing member _ ⟨⟩
        exact steps executing member
    rcases List.append_of_mem (mem_executings.mp member) with ⟨before, after, split⟩
    rw [split] at accounts
    exact accounts.fits.2.2 limit rfl

/-- A frame of twenty tacts ends in its interrupt window and leaves the line asserted. A frame of
forty tacts has closed its window long before its end. -/
theorem interrupt_asserted_in_window_lateWindow :
    let late := (oneLine.interruptedAt 15).reset
    let early := longLine.reset
    (∃ before polling after,
      late.sessionLog twoFrames = before ++ .executing polling :: after ∧
        polling.frameCount = 1 ∧ polling.frameTact = 0 ∧
          before.foldl InterruptLine.next .clear = .leftAsserted) ∧
      early.interrupt.tact + Interrupt.longestInstruction + 4 < early.frameTacts ∧
      (∀ executing ∈ executings (early.sessionLog twoFrames), executing.StepsWithin 4) ∧
      ∀ polling ∈ executings (early.sessionLog twoFrames), polling.AssertsInWindow 0 := by
  intro late early
  have lateOn : late.PoweredOn := .reset (by decide)
  have earlyOn : early.PoweredOn := .reset (by decide)
  have spare : early.interrupt.tact + Interrupt.longestInstruction + 4 < early.frameTacts := by
    decide +kernel
  have steps : ∀ executing ∈ executings (early.sessionLog twoFrames), executing.StepsWithin 4 := by
    decide +kernel
  obtain ⟨polling, member, second, start, small, polled, poll, asserted⟩ :
      ∃ polling ∈ executings (late.sessionLog twoFrames), polling.frameCount = 1 ∧
        polling.frameTact = 0 ∧ polling.elapsed < UInt32.size ∧
        ∃ polled ∈ polling.pollInterrupt, Processor.interrupted polled.cpu = true := by
    decide +kernel
  rcases List.append_of_mem (mem_executings.mp member) with ⟨before, after, split⟩
  rcases interrupt_asserted_in_window lateOn (by decide) twoFrames with ⟨polls, -⟩
  have window : polling.frameTact < late.interrupt.tact := start.trans_lt (by decide)
  refine ⟨⟨before, polling, after, split, second, start, ?_⟩, spare, steps, ?_⟩
  · exact ((polls before polling after split polled poll).1 asserted).2 window small
  · exact (interrupt_asserted_in_window earlyOn (by decide) twoFrames).2 4 spare steps

/-- The window of the first frame is open from its tact 15 on, and the frame ends at tact 20. The
line is still asserted in the next frame, long before the window of that one. -/
theorem interrupt_left_asserted :
    let machine := (oneLine.interruptedAt 15).reset
    let log := machine.sessionLog twoFrames
    machine.PoweredOn ∧ Processor.interrupted machine.cpu = false ∧
      machine.interrupt.tact < machine.frameTacts ∧
      ((executings log).take 6).map (fun polling =>
        (polling.frameTact, polling.pollInterrupt.map fun polled =>
          Processor.interrupted polled.cpu)) =
        [(0, some false), (4, some false), (8, some false), (12, some false), (16, some true),
          (0, some true)] ∧
      ¬ ∀ polling ∈ executings log, polling.AssertsInWindow machine.interrupt.tact := by
  intro machine log
  exact ⟨.reset (by decide), by decide, by decide +kernel, by decide +kernel, by decide +kernel⟩

end Machine

end ZxSpectrum
