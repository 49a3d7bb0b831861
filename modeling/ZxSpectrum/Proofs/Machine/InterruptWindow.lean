import ZxSpectrum.Proofs.Interrupt
import ZxSpectrum.Proofs.Machine.Pace

namespace ZxSpectrum

/-! Interrupts and frames. The window of a frame is as long as the longest instruction takes, so
that one of the polls before the steps of the processor falls into it. Only a frame that starts
behind its window goes without an interrupt. -/

namespace Interrupt

variable {interrupt after : Interrupt} {blocked : Bool} {tact : Nat} {change : LineChange}

/-- The interrupt of the frame is still to come at a frame tact. -/
def Waiting (interrupt : Interrupt) (tact : Nat) : Prop :=
  interrupt.raised = false ∧ interrupt.revoked = false ∧
    tact ≤ interrupt.tact + longestInstruction

def Done (interrupt : Interrupt) (tact : Nat) : Prop :=
  interrupt.raised = true ∨ interrupt.revoked = true ∨
    interrupt.tact + longestInstruction < tact

inductive Polled (interrupt : Interrupt) (blocked : Bool) (tact : Nat) : Interrupt → Prop
  | closed (before : interrupt.revoked = true ∨ tact < interrupt.tact) :
    Polled interrupt blocked tact interrupt
  | revoked (late : interrupt.tact + longestInstruction < tact) :
    Polled interrupt blocked tact { interrupt with revoked := true }
  | held (early : tact ≤ interrupt.tact + longestInstruction)
    (unready : interrupt.raised = true ∨ blocked = true) :
    Polled interrupt blocked tact interrupt
  | raised (first : interrupt.raised = false) (unrevoked : interrupt.revoked = false)
    (early : tact ≤ interrupt.tact + longestInstruction) :
    Polled interrupt blocked tact { interrupt with raised := true, count := interrupt.count + 1 }

theorem polled_of_poll (polls : interrupt.poll blocked tact = some (after, change)) :
    Polled interrupt blocked tact after := by
  cases answers_of_poll polls with
  | closed quiet => exact .closed quiet
  | released _ late => exact .revoked late
  | held _ _ early unready => exact .held early unready
  | asserted unrevoked _ early first _ => exact .raised first unrevoked early

theorem Polled.tact_eq (polls : Polled interrupt blocked tact after) :
    after.tact = interrupt.tact := by
  cases polls <;> rfl

theorem Waiting.polled (waiting : interrupt.Waiting tact)
    (polls : Polled interrupt false tact after) :
    (after = interrupt ∧ tact < interrupt.tact) ∨
      (after.raised = true ∧ after.count = interrupt.count + 1) := by
  rcases waiting with ⟨unraised, unrevoked, early⟩
  cases polls with
  | closed before =>
      rcases before with revoked | before
      · exact absurd (unrevoked.symm.trans revoked) Bool.false_ne_true
      · exact .inl ⟨rfl, before⟩
  | revoked late => exact absurd late (Nat.not_lt.mpr early)
  | held _ unready =>
      rcases unready with raised | blocked
      · exact absurd (unraised.symm.trans raised) Bool.false_ne_true
      · exact Bool.noConfusion blocked
  | raised _ _ _ => exact .inr ⟨rfl, rfl⟩

theorem Done.polled (done : interrupt.Done tact) (polls : Polled interrupt blocked tact after)
    (later : Nat) : after.Done later ∧ after.count = interrupt.count := by
  cases polls with
  | closed before =>
      refine ⟨?_, rfl⟩
      rcases done with raised | revoked | late
      · exact .inl raised
      · exact .inr (.inl revoked)
      · rcases before with revoked | before
        · exact .inr (.inl revoked)
        · omega
  | revoked _ => exact ⟨.inr (.inl rfl), rfl⟩
  | held early _ =>
      rcases done with raised | revoked | late
      · exact ⟨.inl raised, rfl⟩
      · exact ⟨.inr (.inl revoked), rfl⟩
      · exact absurd late (Nat.not_lt.mpr early)
  | raised unraised unrevoked early =>
      rcases done with raised | revoked | late
      · exact absurd (unraised.symm.trans raised) Bool.false_ne_true
      · exact absurd (unrevoked.symm.trans revoked) Bool.false_ne_true
      · exact absurd late (Nat.not_lt.mpr early)

end Interrupt

namespace Moment

variable {Cpu κ ρ : Type} [Processor Cpu]

/-! Frames that have started late, and the balance of interrupts and frames. -/

def startsLate : Moment Cpu κ ρ → Bool
  | .frameStarted machine =>
    machine.interrupt.tact + Interrupt.longestInstruction < machine.frameTact
  | _ => false

def countLate (late : Nat) (moment : Moment Cpu κ ρ) : Nat :=
  late + if moment.startsLate then 1 else 0

theorem foldl_countLate (log : List (Moment Cpu κ ρ)) (late : Nat) :
    log.foldl countLate late = late + log.countP startsLate := by
  induction log generalizing late with
  | nil => rfl
  | cons moment log induction =>
      rw [List.foldl_cons, induction, countLate, List.countP_cons]
      ring

theorem startsLate_of_onTime {moment : Moment Cpu κ ρ}
    (onTime : moment.OnTime Interrupt.longestInstruction) : moment.startsLate = false := by
  cases moment with
  | frameStarted machine =>
      exact decide_eq_false (Nat.not_lt.mpr (onTime.le.trans (Nat.le_add_left _ _)))
  | frameCompleted _ => rfl
  | drawn _ _ _ _ => rfl
  | boundary _ _ => rfl
  | executing _ => rfl

def Balances (late : Nat) : Moment Cpu κ ρ → Prop
  | .frameCompleted machine => machine.interrupt.count + late = machine.frameCount
  | _ => True

theorem ignoresDrawing_balances :
    IgnoresDrawing countLate (Balances : Nat → Moment Cpu κ ρ → Prop) :=
  fun _ _ _ _ _ => ⟨trivial, rfl⟩

end Moment

namespace Machine

variable {Cpu κ ρ : Type} [Processor Cpu]

/-! The interrupt of the present frame, through its start and through an instruction. -/

def InWindow (late : Nat) (machine : Machine Cpu κ ρ) : Prop :=
  (machine.interrupt.Waiting machine.frameTact ∧ machine.frameTact < machine.frameTacts ∧
    machine.interrupt.count + late = machine.frameCount) ∨
  (machine.interrupt.Done machine.frameTact ∧
    machine.interrupt.count + late = machine.frameCount + 1)

variable [Peripheral κ]

theorem inWindow_startFrame {machine : Machine Cpu κ ρ} {late : Nat} (carries : machine.Carries)
    (balance : machine.interrupt.count + late = machine.frameCount) :
    machine.startFrame.InWindow
      (Moment.countLate late (.frameStarted machine.startFrame)) := by
  by_cases behind : machine.interrupt.tact + Interrupt.longestInstruction <
      machine.startFrame.frameTact
  · have counts : Moment.countLate late (.frameStarted machine.startFrame) = late + 1 :=
      congrArg (late + ·) (if_pos (decide_eq_true behind))
    rw [counts]
    exact .inr ⟨.inr (.inr behind), congrArg (· + 1) balance⟩
  · have counts : Moment.countLate late (.frameStarted machine.startFrame) = late :=
      congrArg (late + ·) (if_neg (Bool.eq_false_iff.mp (decide_eq_false behind)))
    rw [counts]
    refine .inl ⟨⟨rfl, rfl, Nat.not_lt.mp behind⟩, ?_, balance⟩
    rw [machine.frameTacts_startFrame]
    exact (frameTact_startFrame_le carries).trans_lt carries.overflow_lt

variable [TapeProvider ρ]

/-- The next step of the processor takes no longer than the longest instruction, and interrupts are
not blocked before it. -/
def StepsThroughWindow (machine : Machine Cpu κ ρ) : Prop :=
  Processor.interruptBlocked machine.cpu = false ∧
    ∀ result ∈ machine.cycle,
      Processor.tacts result.2.cpu ≤ Processor.tacts machine.cpu +
        Interrupt.longestInstruction * machine.board.multiplier

instance (machine : Machine Cpu κ ρ) : Decidable machine.StepsThroughWindow :=
  inferInstanceAs (Decidable (_ = false ∧ ∀ result ∈ machine.cycle, _))

def Balanced (late : Nat) (standing : Standing Cpu κ ρ) : Prop :=
  let machine := standing.machine
  0 < machine.board.multiplier ∧
    machine.interrupt.tact + Interrupt.longestInstruction ≤ machine.frameTacts ∧
    match standing.stage with
    | .betweenFrames =>
      machine.Carries ∧ machine.interrupt.count + late = machine.frameCount
    | .inFrame => machine.InWindow late
    | .begun => machine.InWindow late ∧ machine.StepsThroughWindow
    | .overrun => machine.interrupt.count + late = machine.frameCount + 1

theorem polled_of_cycle {machine stepped : Machine Cpu κ ρ} {fault : Option ProcessorFault}
    (cycled : machine.cycle = some (fault, stepped)) :
    machine.interrupt.Polled (Processor.interruptBlocked machine.cpu) machine.frameTact
      stepped.interrupt := by
  rcases Option.bind_eq_some_iff.mp cycled with ⟨polled, poll, rest⟩
  rcases Option.bind_eq_some_iff.mp rest with ⟨⟨⟨cpu, fault⟩, board⟩, performed, rest⟩
  cases rest
  rcases Option.bind_eq_some_iff.mp poll with ⟨⟨interrupt, change⟩, polls, rest⟩
  cases change <;> (cases rest; exact Interrupt.polled_of_poll polls)

variable [LawfulProcessor Cpu] [MonotonicProcessor Cpu]

theorem InWindow.executed {machine after : Machine Cpu κ ρ} {options : RunOptions}
    {reason : Option Completion} {late : Nat} (inWindow : machine.InWindow late)
    (steps : machine.StepsThroughWindow)
    (multiplier_pos : 0 < machine.board.multiplier)
    (fits : machine.interrupt.tact + Interrupt.longestInstruction ≤ machine.frameTacts)
    (executed : Executed machine options reason after) :
    after.interrupt.tact = machine.interrupt.tact ∧ after.InWindow late := by
  rcases executed.settled with ⟨fault, stepped, cycled, settled, -⟩
  have frame := executed.sameFrame
  have polls := polled_of_cycle cycled
  rw [← settled.interrupt] at polls
  have count : after.frameCount = machine.frameCount :=
    settled.frameCount.trans (congrArg Account.frameCount (account_cycle cycled))
  have near : after.frameTact ≤ machine.frameTact + Interrupt.longestInstruction := by
    have same : after.board.frameTact (Processor.tacts machine.cpu) = machine.frameTact := by
      rw [frameTact, Board.frameTact, Board.frameTact, frame.frameStart, frame.multiplier]
    rw [← same]
    apply Board.frameTact_le_add
    · exact frame.multiplier ▸ multiplier_pos
    · exact (tacts_le_cycle cycled).trans_eq settled.tacts.symm
    · rw [settled.tacts, frame.multiplier]
      exact steps.2 _ cycled
  refine ⟨polls.tact_eq, ?_⟩
  rcases inWindow with ⟨waiting, inFrame, balance⟩ | ⟨done, balance⟩
  · rw [steps.1] at polls
    rcases waiting.polled polls with ⟨same, early⟩ | ⟨raised, counted⟩
    · -- Even the longest instruction does not pass the window from here.
      have soon : after.frameTact < after.interrupt.tact + Interrupt.longestInstruction := by
        rw [same]
        omega
      refine .inl ⟨⟨same ▸ waiting.1, same ▸ waiting.2.1, soon.le⟩, ?_, ?_⟩
      · rw [frame.frameTacts]
        exact soon.trans_le (same ▸ fits)
      · rw [same, balance, count]
    · refine .inr ⟨.inl raised, ?_⟩
      rw [counted, count, ← balance]
      ring
  · rcases done.polled polls after.frameTact with ⟨done, counted⟩
    exact .inr ⟨done, by rw [counted, balance, count]⟩

variable {permitted : RunOptions → Prop} {late : Nat} {first last : Standing Cpu κ ρ}
  {log : List (Moment Cpu κ ρ)}

theorem Step.balanced (step : Step permitted first log last) (balanced : Balanced late first)
    (steps : ∀ executing ∈ executings log, executing.StepsThroughWindow) :
    Monitored Moment.countLate Moment.Balances late log ∧
      Balanced (log.foldl Moment.countLate late) last := by
  rcases balanced with ⟨multiplier_pos, fits, stands⟩
  cases step with
  | @note stage _ _ _ _ resting | @call stage _ _ _ _ resting =>
      refine ⟨trivial, multiplier_pos, fits, ?_⟩
      cases stage with
      | betweenFrames => exact ⟨⟨stands.1.1, stands.1.2, stands.1.3⟩, stands.2⟩
      | inFrame => exact stands
      | begun => exact absurd rfl resting
      | overrun => exact stands
  | @startFrame _ machine =>
      rcases stands with ⟨carries, balance⟩
      have fitting : Moment.Balances late (.frameStarted machine.startFrame) := trivial
      rcases Moment.ignoresDrawing_balances.startFrameLog fitting with ⟨monitored, same⟩
      rw [same]
      refine ⟨monitored, ?_, ?_, inWindow_startFrame carries balance⟩
      · exact machine.multiplier_startFrame ▸ multiplier_pos
      · exact machine.frameTacts_startFrame.symm ▸ fits
  | boundary between => exact ⟨⟨trivial, trivial⟩, multiplier_pos, fits, stands⟩
  | start =>
      exact ⟨⟨trivial, trivial⟩, multiplier_pos, fits, stands, steps _ List.mem_cons_self⟩
  | @stop _ machine options _ after _ stopped =>
      rcases Moment.ignoresDrawing_balances.executeLog machine options late with ⟨monitored, same⟩
      rw [same]
      have executed := executed_of_executeInstruction stopped
      have frame := executed.sameFrame
      rcases stands.1.executed stands.2 multiplier_pos fits executed with ⟨tact, inWindow⟩
      refine ⟨monitored, frame.multiplier ▸ multiplier_pos, ?_, inWindow⟩
      rw [tact, frame.frameTacts]
      exact fits
  | @goOn _ machine options after _ completed =>
      rcases Moment.ignoresDrawing_balances.executeLog machine options late with ⟨monitored, same⟩
      rw [same]
      have executed := executed_of_executeInstruction completed
      have frame := executed.sameFrame
      rcases stands.1.executed stands.2 multiplier_pos fits executed with ⟨tact, inWindow⟩
      refine ⟨monitored, frame.multiplier ▸ multiplier_pos, ?_, ?_⟩
      · rw [tact, frame.frameTacts]
        exact fits
      · rcases executed.settled with ⟨_, _, _, _, looks⟩
        cases finished : after.frameFinished with
        | false => exact inWindow
        | true =>
            have past := ((looks rfl).2.past finished).2
            rcases inWindow with ⟨-, inFrame, -⟩ | ⟨-, balance⟩
            · exact absurd inFrame (Nat.not_lt.mpr past)
            · exact balance
  | @completeFrame _ machine =>
      refine ⟨⟨stands, trivial⟩, machine.multiplier_completeFrame ▸ multiplier_pos,
        machine.frameTacts_completeFrame.symm ▸ fits, completeFrame_carries multiplier_pos, stands⟩

theorem Path.balances (path : Path permitted first log last) (balanced : Balanced late first)
    (steps : ∀ executing ∈ executings log, executing.StepsThroughWindow) :
    Monitored Moment.countLate Moment.Balances late log := by
  induction path generalizing late with
  | nil => trivial
  | cons step _ induction =>
      rw [executings_append] at steps
      rcases List.forall_mem_append.mp steps with ⟨now, later⟩
      rcases step.balanced balanced now with ⟨monitored, balanced⟩
      exact monitored_append.mpr ⟨monitored, induction balanced later⟩

/-- From power-on, where no step of the processor takes longer than the interrupt window and
interrupts are never blocked, an interrupt is counted in every frame but those that start behind
their window. There are none of these where no instruction takes longer than the window, whatever
the number of its steps, in runs that meet no fault and do not wait for a halt. -/
theorem interrupts_follow_frames {machine : Machine Cpu κ ρ} (poweredOn : machine.PoweredOn)
    (fits : machine.interrupt.tact + Interrupt.longestInstruction ≤ machine.frameTacts)
    {calls : List RunCall}
    (steps : ∀ executing ∈ executings (machine.sessionLog calls), executing.StepsThroughWindow) :
    (∀ before completed after,
      machine.sessionLog calls = before ++ .frameCompleted completed :: after →
        completed.interrupt.count + before.countP Moment.startsLate = completed.frameCount) ∧
      ((∀ call ∈ calls, call.options.mode ≠ .untilHalt) →
        Paced Interrupt.longestInstruction none (executings (machine.sessionLog calls)) →
          ∀ completed ∈ completions (machine.sessionLog calls),
            completed.interrupt.count = completed.frameCount) := by
  let permitted (_ : RunOptions) : Prop := True
  have allowed : ∀ call ∈ calls, permitted call.options := fun _ _ => trivial
  rcases session_follows allowed machine 0 with ⟨last, path, -⟩
  have nothing : machine.interrupt.count = machine.frameCount := by rw [poweredOn.eq]
  have balanced : Balanced 0 (machine.standing 0) := by
    rw [standing_of_finished poweredOn.frameFinished]
    exact ⟨poweredOn.multiplier_pos, fits, poweredOn.carries, nothing⟩
  have balances := path.balances balanced steps
  have counts (before : List (Moment Cpu κ ρ)) (completed : Machine Cpu κ ρ) after
      (split : machine.sessionLog calls = before ++ .frameCompleted completed :: after) :
      completed.interrupt.count + before.countP Moment.startsLate = completed.frameCount := by
    rw [split] at balances
    have balance := balances.fits
    rw [Moment.foldl_countLate, Nat.zero_add] at balance
    exact balance
  refine ⟨counts, fun noHalt paced completed member => ?_⟩
  have short : Interrupt.longestInstruction ≤ machine.frameTacts :=
    (Nat.le_add_left _ _).trans fits
  have onTime := session_onTime poweredOn (by decide) short noHalt paced
  rcases List.append_of_mem (mem_completions.mp member) with ⟨before, after, split⟩
  have noneLate : before.countP Moment.startsLate = 0 := by
    refine List.countP_eq_zero.mpr fun moment member => Bool.eq_false_iff.mp ?_
    refine Moment.startsLate_of_onTime (onTime moment ?_)
    rw [split]
    exact List.mem_append_left _ member
  have balance := counts before completed after split
  rwa [noneLate] at balance

def twoFrames : List RunCall :=
  List.replicate 2 { options := { mode := .untilFrameEnds }, budget := 19 }

theorem interrupts_follow_frames_longLine :
    let machine := longLine.reset
    let log := machine.sessionLog twoFrames
    machine.PoweredOn ∧
      machine.interrupt.tact + Interrupt.longestInstruction ≤ machine.frameTacts ∧
      (∀ executing ∈ executings log, executing.StepsThroughWindow) ∧
      (∀ call ∈ twoFrames, call.options.mode ≠ .untilHalt) ∧
      Paced Interrupt.longestInstruction none (executings log) ∧
      (completions log).map Machine.frameCount = [1, 2] ∧
      (∀ completed ∈ completions log, completed.interrupt.count = completed.frameCount) := by
  intro machine log
  have poweredOn : machine.PoweredOn := .reset (by decide)
  have fits : machine.interrupt.tact + Interrupt.longestInstruction ≤ machine.frameTacts := by
    decide +kernel
  have steps : ∀ executing ∈ executings log, executing.StepsThroughWindow := by decide +kernel
  have noHalt : ∀ call ∈ twoFrames, call.options.mode ≠ .untilHalt := by decide
  have paced : Paced Interrupt.longestInstruction none (executings log) := by decide +kernel
  have counts : (completions log).map Machine.frameCount = [1, 2] := by decide +kernel
  exact ⟨poweredOn, fits, steps, noHalt, paced, counts,
    (interrupts_follow_frames poweredOn fits steps).2 noHalt paced⟩

/-- An instruction of seven steps, each of four tacts, is begun in the first frame. It ends behind
the interrupt window of the second, which goes without an interrupt. -/
theorem interrupt_missed_longLine :
    let machine := (longLine.midInstructionAt [10, 11, 12, 13, 14, 15]).reset
    let log := machine.sessionLog twoFrames
    machine.PoweredOn ∧
      machine.interrupt.tact + Interrupt.longestInstruction ≤ machine.frameTacts ∧
      (∀ executing ∈ executings log, executing.StepsThroughWindow) ∧
      (∀ call ∈ twoFrames, call.options.mode ≠ .untilHalt) ∧
      (machine.history twoFrames).filterMap Event.completion? =
        [.frameCompleted, .frameCompleted] ∧
      ¬ ∀ completed ∈ completions log, completed.interrupt.count = completed.frameCount := by
  intro machine log
  exact ⟨.reset (by decide), by decide +kernel, by decide +kernel, by decide, by decide +kernel,
    by decide +kernel⟩

end Machine

end ZxSpectrum
