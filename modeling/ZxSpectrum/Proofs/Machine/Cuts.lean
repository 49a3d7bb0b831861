import ZxSpectrum.Proofs.Machine.Building
import ZxSpectrum.Proofs.Machine.Path

namespace ZxSpectrum

/-! Cutting an execution into runs changes nothing that the program running on the machine could
notice. From what a machine is when an instruction is about to be executed follows what it will be
before the next one, however often the host stops it in between. -/

/-- The options treat drawing, delivery and tape as others do, and do not wait for a halt. -/
structure RunOptions.Alike (pattern options : RunOptions) : Prop where
  mode : options.mode ≠ .untilHalt
  withoutDrawing : options.withoutDrawing = pattern.withoutDrawing
  withoutDelivery : options.withoutDelivery = pattern.withoutDelivery
  fastTape : options.fastTape = pattern.fastTape

instance (pattern options : RunOptions) : Decidable (pattern.Alike options) :=
  decidable_of_iff (options.mode ≠ .untilHalt ∧
      options.withoutDrawing = pattern.withoutDrawing ∧
      options.withoutDelivery = pattern.withoutDelivery ∧ options.fastTape = pattern.fastTape)
    ⟨fun ⟨mode, drawing, delivery, tape⟩ => ⟨mode, drawing, delivery, tape⟩,
      fun alike => ⟨alike.1, alike.2, alike.3, alike.4⟩⟩

namespace Moment

variable {Cpu κ ρ : Type}

def executing? : Moment Cpu κ ρ → Option (Machine Cpu κ ρ)
  | .executing machine => some machine
  | _ => none

end Moment

/-- The machines about to execute an instruction, in order. -/
def executings {Cpu κ ρ : Type} (log : List (Moment Cpu κ ρ)) : List (Machine Cpu κ ρ) :=
  log.filterMap Moment.executing?

namespace Machine

variable {Cpu κ ρ : Type}

/-! What belongs to the host: the debugger, how the latest run ended, and whether anything is handed
over. -/

def bare (machine : Machine Cpu κ ρ) : Machine Cpu κ ρ :=
  (machine.withDebugger {}).withCompletion .notRun

def delivery (machine : Machine Cpu κ ρ) : Bool × Bool :=
  (machine.board.screen.suppressed, machine.board.beeper.muted)

theorem delivery_of_backdrop {machine after : Machine Cpu κ ρ}
    (same : after.board.backdrop = machine.board.backdrop) : after.delivery = machine.delivery :=
  congrArg (fun backdrop => (backdrop.suppressed, backdrop.muted)) same

theorem bare_prepare {machine : Machine Cpu κ ρ} {options : RunOptions}
    (prepared : machine.delivery = (options.withoutDelivery, options.withoutDelivery)) :
    (machine.prepare options).bare = machine.bare := by
  rcases Prod.mk.inj prepared with ⟨suppressed, muted⟩
  have screen : { machine.board.screen with suppressed := options.withoutDelivery } =
      machine.board.screen := by
    rw [← suppressed]
  have beeper : { machine.board.beeper with muted := options.withoutDelivery } =
      machine.board.beeper := by
    rw [← muted]
  simp only [prepare, screen, beeper]
  rfl

variable [Processor Cpu]

theorem delivery_drawnBy (machine : Machine Cpu κ ρ) (options : RunOptions) :
    (machine.drawnBy options).delivery = machine.delivery := by
  rw [drawnBy]
  split
  · rfl
  · rw [drawTo_eq]
    rfl

theorem delivery_startFrame [Peripheral κ] (machine : Machine Cpu κ ρ) :
    machine.startFrame.delivery = machine.delivery :=
  congrArg (fun backdrop => (backdrop.suppressed, backdrop.muted)) (Board.backdrop_callCards _ _ _)

/-! What the machine does, it does without looking at what belongs to the host. -/

theorem pollInterrupt_bare (machine : Machine Cpu κ ρ) :
    machine.bare.pollInterrupt = machine.pollInterrupt.map bare := by
  have same : machine.bare.interrupt.poll (Processor.interruptBlocked machine.bare.cpu)
      machine.bare.frameTact =
    machine.interrupt.poll (Processor.interruptBlocked machine.cpu) machine.frameTact := rfl
  rw [pollInterrupt, pollInterrupt, same]
  cases machine.interrupt.poll (Processor.interruptBlocked machine.cpu) machine.frameTact with
  | none => rfl
  | some polled =>
      rcases polled with ⟨interrupt, change⟩
      cases change <;> rfl

theorem drawnBy_bare (machine : Machine Cpu κ ρ) (options : RunOptions) :
    machine.bare.drawnBy options = (machine.drawnBy options).bare := by
  rw [drawnBy, drawnBy]
  split
  · rfl
  · rw [drawTo_eq, drawTo_eq]
    rfl

variable [TapeProvider ρ]

theorem followTape_bare (machine : Machine Cpu κ ρ) (fast : Bool) :
    machine.bare.followTape fast = (machine.followTape fast).map bare := by
  rcases machine with ⟨cpu, board, interrupt, debugger, finished, count, overflow, drawn,
    completion, fault⟩
  simp only [followTape, bare, withDebugger, withCompletion]
  cases board.deck.follow fast (board.machineTact (Processor.tacts cpu))
    (Processor.registers cpu) board.memory with
  | none => rfl
  | some followed => rfl

theorem settle_bare {pattern options : RunOptions} (alike : pattern.Alike options)
    (stepped : Machine Cpu κ ρ) :
    stepped.bare.settle { pattern with mode := .continuous } =
      (stepped.settle options).map (Prod.map id bare) := by
  have drawn : stepped.bare.drawnBy { pattern with mode := .continuous } =
      (stepped.drawnBy options).bare := by
    rw [← drawnBy_bare, drawnBy, drawnBy, alike.withoutDrawing]
  have running : RunMode.continuous ≠ .untilHalt := by decide
  rw [settle, settle, if_neg (fun halted => running halted.1),
    if_neg (fun halted => alike.mode halted.1), drawn, followTape_bare, alike.fastTape]
  cases (stepped.drawnBy options).followTape pattern.fastTape with
  | none => rfl
  | some followed => rfl

variable [Peripheral κ]

theorem cycle_bare (machine : Machine Cpu κ ρ) :
    machine.bare.cycle = machine.cycle.map (Prod.map id bare) := by
  rw [cycle, cycle, pollInterrupt_bare]
  cases machine.pollInterrupt with
  | none => rfl
  | some polled =>
      have same : polled.bare.board.perform (Processor.step polled.bare.cpu) =
        polled.board.perform (Processor.step polled.cpu) := rfl
      simp only [Option.map_some, Option.bind_eq_bind, Option.bind_some, same]
      cases polled.board.perform (Processor.step polled.cpu) with
      | none => rfl
      | some performed => rfl

theorem executeInstruction_bare {pattern options : RunOptions} (alike : pattern.Alike options)
    (machine : Machine Cpu κ ρ) :
    machine.bare.executeInstruction { pattern with mode := .continuous } =
      (machine.executeInstruction options).map (Prod.map id bare) := by
  rw [executeInstruction_eq, executeInstruction_eq, cycle_bare]
  cases machine.cycle with
  | none => rfl
  | some result =>
      rcases result with ⟨fault, stepped⟩
      cases fault with
      | some fault => rfl
      | none => exact settle_bare alike stepped

/-! What comes next. -/

def next (pattern : RunOptions) (machine : Machine Cpu κ ρ) : Option (Machine Cpu κ ρ) := do
  let (reason, after) ← machine.executeInstruction { pattern with mode := .continuous }
  return if reason = none ∧ after.frameFinished then after.completeFrame.startFrame else after

def Standing.upcoming (pattern : RunOptions) (standing : Standing Cpu κ ρ) :
    Option (Machine Cpu κ ρ) :=
  let machine := standing.machine.bare
  match standing.stage with
  | .betweenFrames => some machine.startFrame
  | .inFrame => some machine
  | .begun => machine.next pattern
  | .overrun => some machine.completeFrame.startFrame

/-- The machine about to execute the instruction after so many others. -/
def course (pattern : RunOptions) (first : Option (Machine Cpu κ ρ)) :
    Nat → Option (Machine Cpu κ ρ)
  | 0 => first
  | count + 1 => course pattern (first.bind (next pattern)) count

theorem next_bare {pattern options : RunOptions} (alike : pattern.Alike options)
    {machine after : Machine Cpu κ ρ} {reason : Option Completion}
    (executed : machine.executeInstruction options = some (reason, after)) :
    machine.bare.next pattern = some
      (if reason = none ∧ after.frameFinished then after.bare.completeFrame.startFrame
        else after.bare) := by
  rw [next, executeInstruction_bare alike, executed]
  rfl

theorem Executed.delivery {machine after : Machine Cpu κ ρ} {options : RunOptions}
    {reason : Option Completion} (executed : Executed machine options reason after) :
    after.delivery = machine.delivery := by
  have cycle {fault stepped} (cycled : machine.cycle = some (fault, stepped)) :
      stepped.delivery = machine.delivery :=
    delivery_of_backdrop (congrArg Account.backdrop (account_cycle cycled))
  cases executed with
  | faulted cycled =>
      have same := cycle cycled
      exact same
  | halted cycled _ => exact (delivery_drawnBy _ _).trans (cycle cycled)
  | completed cycled tape =>
      have followed := delivery_of_backdrop (congrArg Account.backdrop (account_followTape tape))
      exact followed.trans ((delivery_drawnBy _ _).trans (cycle cycled))

theorem Step.delivery {pattern : RunOptions} {first last : Standing Cpu κ ρ}
    {log : List (Moment Cpu κ ρ)} (step : Step pattern.Alike first log last)
    (prepared : first.machine.delivery = (pattern.withoutDelivery, pattern.withoutDelivery)) :
    last.machine.delivery = (pattern.withoutDelivery, pattern.withoutDelivery) := by
  cases step with
  | note debugger completion => exact prepared
  | call allowed => exact congrArg (fun silent => (silent, silent)) allowed.withoutDelivery
  | startFrame => exact (delivery_startFrame _).trans prepared
  | boundary between => exact prepared
  | start => exact prepared
  | stop allowed stopped => exact (executed_of_executeInstruction stopped).delivery.trans prepared
  | goOn allowed completed =>
      exact (executed_of_executeInstruction completed).delivery.trans prepared
  | completeFrame => exact (delivery_of_backdrop (backdrop_completeFrame _)).trans prepared

omit [Processor Cpu] [TapeProvider ρ] [Peripheral κ] in
theorem executings_of_drawn {log : List (Moment Cpu κ ρ)}
    (drawn : ∀ moment ∈ log, ∃ tact border flash memory,
      moment = .drawn tact border flash memory) : executings log = [] := by
  apply List.filterMap_eq_nil_iff.mpr
  intro moment member
  rcases drawn moment member with ⟨_, _, _, _, rfl⟩
  rfl

/-! Only executing an instruction brings the machine any further, so the machines that execute the
instructions of a path are those of its course. -/

theorem Step.upcoming_eq {pattern : RunOptions} {first last : Standing Cpu κ ρ}
    {log : List (Moment Cpu κ ρ)} (step : Step pattern.Alike first log last)
    (prepared : first.machine.delivery = (pattern.withoutDelivery, pattern.withoutDelivery)) :
    (executings log = [] ∧ last.upcoming pattern = first.upcoming pattern) ∨
      ∃ machine, executings log = [machine] ∧ first.upcoming pattern = some machine.bare ∧
        last.upcoming pattern = machine.bare.next pattern := by
  cases step with
  | note debugger completion => exact .inl ⟨rfl, rfl⟩
  | @call stage executed machine options allowed =>
      have same : (machine.prepare options).bare = machine.bare :=
        bare_prepare (allowed.withoutDelivery ▸ prepared)
      refine .inl ⟨rfl, ?_⟩
      rw [Standing.upcoming, Standing.upcoming, same]
  | @startFrame _ machine =>
      let log : List (Moment Cpu κ ρ) := machine.board.drawnMoments 0 machine.overflow
      have drawn : executings log = [] :=
        executings_of_drawn fun _ => Board.drawn_of_mem_drawnMoments
      exact .inl ⟨drawn, rfl⟩
  | boundary between => exact .inl ⟨rfl, rfl⟩
  | @start _ machine => exact .inr ⟨machine, rfl, rfl, rfl⟩
  | @stop _ machine options _ _ allowed stopped =>
      have drawn : executings (machine.executeLog options) = [] :=
        executings_of_drawn fun _ => drawn_of_mem_executeLog
      exact .inl ⟨drawn, (next_bare allowed stopped).symm⟩
  | @goOn _ machine options after allowed completed =>
      have drawn : executings (machine.executeLog options) = [] :=
        executings_of_drawn fun _ => drawn_of_mem_executeLog
      refine .inl ⟨drawn, Eq.trans ?_ (next_bare allowed completed).symm⟩
      cases finished : after.frameFinished with
      | false => rfl
      | true => rfl
  | completeFrame => exact .inl ⟨rfl, rfl⟩

theorem Path.course_eq {pattern : RunOptions} {first last : Standing Cpu κ ρ}
    {log : List (Moment Cpu κ ρ)} (path : Path pattern.Alike first log last)
    (prepared : first.machine.delivery = (pattern.withoutDelivery, pattern.withoutDelivery))
    {count : Nat} {machine : Machine Cpu κ ρ} (reached : (executings log)[count]? = some machine) :
    course pattern (first.upcoming pattern) count = some machine.bare := by
  induction path generalizing count with
  | nil => exact nomatch reached
  | @cons first log middle later last step _ induction =>
      have split : executings (log ++ later) = executings log ++ executings later :=
        List.filterMap_append
      rw [split] at reached
      -- A step either keeps its place in the course or executes what the course has there.
      rcases step.upcoming_eq prepared with ⟨none, same⟩ | ⟨executing, one, now, after⟩
      · rw [none, List.nil_append] at reached
        rw [← same]
        exact induction (step.delivery prepared) reached
      · rw [one] at reached
        cases count with
        | zero =>
            cases reached
            exact now
        | succ count =>
            rw [course, now, Option.bind_some, ← after]
            exact induction (step.delivery prepared) reached

theorem session_course {pattern : RunOptions} {calls : List RunCall}
    (alike : ∀ call ∈ calls, pattern.Alike call.options) {machine reached : Machine Cpu κ ρ}
    {count : Nat} (reaches : (executings (machine.sessionLog calls))[count]? = some reached) :
    course pattern (((machine.prepare pattern).standing 0).upcoming pattern) count =
      some reached.bare := by
  cases calls with
  | nil => exact nomatch reaches
  | cons call calls =>
      have silent := (alike call List.mem_cons_self).withoutDelivery
      have bare : (machine.called call).bare = (machine.prepare pattern).bare := by
        simp only [called, prepare, silent]
        rfl
      have first : ((machine.prepare pattern).standing 0).upcoming pattern =
          ((machine.called call).standing 0).upcoming pattern := by
        simp only [Standing.upcoming, standing, bare]
        rfl
      rcases session_follows_called alike machine with ⟨last, path, -⟩
      rw [first]
      exact path.course_eq (congrArg (fun silent => (silent, silent)) silent) reaches

/-- In two sessions that differ in how they cut the execution into runs, the same instructions are
executed by the same machine. -/
theorem sessions_execute_alike (pattern : RunOptions) {calls others : List RunCall}
    (alike : ∀ call ∈ calls, pattern.Alike call.options)
    (othersAlike : ∀ call ∈ others, pattern.Alike call.options) (machine : Machine Cpu κ ρ)
    {count : Nat} {one other : Machine Cpu κ ρ}
    (reached : (executings (machine.sessionLog calls))[count]? = some one)
    (otherReached : (executings (machine.sessionLog others))[count]? = some other) :
    one.bare = other.bare :=
  Option.some.inj ((session_course alike reached).symm.trans
    (session_course othersAlike otherReached))

/-- A frame of twenty tacts holds five instructions of four. The seventh is reached alike step by
step, with a breakpoint on the way, and in one run across the end of the frame. -/
theorem sessions_execute_alike_oneLine :
    let step : RunCall := { options := { mode := .debugger .stepInto }, budget := 9 }
    let toBreakpoint : RunCall :=
      { edit := fun debugger => (debugger.add 3).2
        options := { mode := .debugger .stopAtBreakpoint }
        budget := 9 }
    let toFrameEnd : RunCall := { options := { timeout := 100 }, budget := 9 }
    let stepwise := [step, toBreakpoint, toFrameEnd, step, step]
    let atOnce : List RunCall := [{ options := { mode := .continuous }, budget := 9 }]
    (∀ call ∈ stepwise, RunOptions.Alike {} call.options) ∧
      (∀ call ∈ atOnce, RunOptions.Alike {} call.options) ∧
      ∃ one other, (executings (oneLine.sessionLog stepwise))[6]? = some one ∧
        (executings (oneLine.sessionLog atOnce))[6]? = some other ∧ one.bare = other.bare := by
  intro step toBreakpoint toFrameEnd stepwise atOnce
  have alike : ∀ call ∈ stepwise, RunOptions.Alike {} call.options := by decide
  have othersAlike : ∀ call ∈ atOnce, RunOptions.Alike {} call.options := by decide
  have reached : (executings (oneLine.sessionLog stepwise))[6]?.isSome := by decide +kernel
  have otherReached : (executings (oneLine.sessionLog atOnce))[6]?.isSome := by decide +kernel
  rcases Option.isSome_iff_exists.mp reached with ⟨one, reached⟩
  rcases Option.isSome_iff_exists.mp otherReached with ⟨other, otherReached⟩
  exact ⟨alike, othersAlike, one, other, reached, otherReached,
    sessions_execute_alike {} alike othersAlike oneLine reached otherReached⟩

end Machine

end ZxSpectrum
