import ZxSpectrum.Proofs.Machine.Session

namespace ZxSpectrum.Machine

/-! The log of every session is that of a path: bookkeeping, and the few things that a machine does,
each with what must come before it. What every step keeps therefore holds throughout a session. -/

variable {Cpu κ ρ : Type}

inductive Stage
  | betweenFrames
  | inFrame
  /-- An instruction is about to be executed. -/
  | begun
  /-- The instruction executed last has finished the frame. -/
  | overrun
deriving DecidableEq

structure Standing (Cpu κ ρ : Type) where
  stage : Stage
  /-- The instructions that the present run has executed; none once it has met a fault. -/
  executed : Nat
  machine : Machine Cpu κ ρ

def stage (machine : Machine Cpu κ ρ) : Stage :=
  if machine.frameFinished then .betweenFrames else .inFrame

def standing (machine : Machine Cpu κ ρ) (executed : Nat) : Standing Cpu κ ρ :=
  ⟨machine.stage, executed, machine⟩

theorem standing_of_finished {machine : Machine Cpu κ ρ} (finished : machine.frameFinished = true)
    (executed : Nat) : machine.standing executed = ⟨.betweenFrames, executed, machine⟩ := by
  rw [standing, stage, if_pos finished]

theorem standing_of_running {machine : Machine Cpu κ ρ} (running : machine.frameFinished = false)
    (executed : Nat) : machine.standing executed = ⟨.inFrame, executed, machine⟩ := by
  rw [standing, stage, running]
  rfl

theorem stage_ne_begun (machine : Machine Cpu κ ρ) : machine.stage ≠ .begun := by
  rw [stage]
  split <;> decide

variable [Processor Cpu] [Peripheral κ] [TapeProvider ρ]

inductive Step (permitted : RunOptions → Prop) :
    Standing Cpu κ ρ → List (Moment Cpu κ ρ) → Standing Cpu κ ρ → Prop
  | note {stage executed machine} (debugger : Debugger) (completion : Completion)
    (resting : stage ≠ .begun) :
    Step permitted ⟨stage, executed, machine⟩ []
      ⟨stage, executed, (machine.withDebugger debugger).withCompletion completion⟩
  | call {stage executed machine options} (allowed : permitted options)
    (resting : stage ≠ .begun) :
    Step permitted ⟨stage, executed, machine⟩ [] ⟨stage, 0, machine.prepare options⟩
  | startFrame {executed machine} :
    Step permitted ⟨.betweenFrames, executed, machine⟩ machine.startFrameLog
      ⟨.inFrame, executed, machine.startFrame⟩
  | boundary {executed machine} (between : Processor.midInstruction machine.cpu = false) :
    Step permitted ⟨.inFrame, executed, machine⟩ [.boundary executed machine]
      ⟨.inFrame, executed, machine⟩
  | start {executed machine} :
    Step permitted ⟨.inFrame, executed, machine⟩ [.executing machine]
      ⟨.begun, executed, machine⟩
  | stop {executed machine options reason after} (allowed : permitted options)
    (stopped : machine.executeInstruction options = some (some reason, after)) :
    Step permitted ⟨.begun, executed, machine⟩ (machine.executeLog options)
      ⟨.inFrame, if reason = .halted then executed + 1 else 0, after⟩
  | goOn {executed machine options after} (allowed : permitted options)
    (completed : machine.executeInstruction options = some (none, after)) :
    Step permitted ⟨.begun, executed, machine⟩ (machine.executeLog options)
      ⟨if after.frameFinished then .overrun else .inFrame, executed + 1, after⟩
  | completeFrame {executed machine} :
    Step permitted ⟨.overrun, executed, machine⟩ [.frameCompleted machine.completeFrame]
      ⟨.betweenFrames, executed, machine.completeFrame⟩

inductive Path (permitted : RunOptions → Prop) :
    Standing Cpu κ ρ → List (Moment Cpu κ ρ) → Standing Cpu κ ρ → Prop
  | nil {standing} : Path permitted standing [] standing
  | cons {first log middle later last} (step : Step permitted first log middle)
    (rest : Path permitted middle later last) : Path permitted first (log ++ later) last

variable {permitted : RunOptions → Prop}

theorem Step.path {first last : Standing Cpu κ ρ} {log : List (Moment Cpu κ ρ)}
    (step : Step permitted first log last) : Path permitted first log last := by
  rw [← List.append_nil log]
  exact .cons step .nil

theorem Path.append {first middle last : Standing Cpu κ ρ} {log later : List (Moment Cpu κ ρ)}
    (path : Path permitted first log middle) (rest : Path permitted middle later last) :
    Path permitted first (log ++ later) last := by
  induction path with
  | nil => exact rest
  | cons step _ induction =>
      rw [List.append_assoc]
      exact .cons step (induction rest)

/-! What an instruction leaves in the log is drawing only, so that a boundary in the log of a step
is the place where the step began. -/

theorem drawn_of_mem_executeLog {machine : Machine Cpu κ ρ} {options : RunOptions}
    {moment : Moment Cpu κ ρ} (member : moment ∈ machine.executeLog options) :
    ∃ tact border flash memory, moment = .drawn tact border flash memory := by
  rw [executeLog] at member
  split at member
  · split at member
    · exact nomatch member
    · exact Board.drawn_of_mem_drawnMoments member
  · exact nomatch member

theorem Step.of_boundary_mem {first last : Standing Cpu κ ρ} {log : List (Moment Cpu κ ρ)}
    (step : Step permitted first log last) {executed : Nat} {machine : Machine Cpu κ ρ}
    (member : .boundary executed machine ∈ log) : first = ⟨.inFrame, executed, machine⟩ := by
  cases step with
  | note debugger completion => exact nomatch member
  | call allowed => exact nomatch member
  | startFrame =>
      rcases List.mem_cons.mp member with impossible | member
      · exact nomatch impossible
      · rcases Board.drawn_of_mem_drawnMoments member with ⟨_, _, _, _, impossible⟩
        exact nomatch impossible
  | boundary between =>
      cases List.mem_singleton.mp member
      rfl
  | start => exact nomatch List.mem_singleton.mp member
  | stop allowed stopped =>
      rcases drawn_of_mem_executeLog member with ⟨_, _, _, _, impossible⟩
      exact nomatch impossible
  | goOn allowed completed =>
      rcases drawn_of_mem_executeLog member with ⟨_, _, _, _, impossible⟩
      exact nomatch impossible
  | completeFrame => exact nomatch List.mem_singleton.mp member

/-! The steps of a turn. -/

/-- A path on which a turn comes to its result. -/
def LeadsTo (permitted : RunOptions → Prop) (first : Standing Cpu κ ρ)
    (log : List (Moment Cpu κ ρ)) (turn : Option (Turn Cpu κ ρ)) : Prop :=
  ∃ last, Path permitted first log last ∧
    match turn with
    | none => True
    | some (.stop _ machine) => ∃ executed, last = machine.standing executed
    | some (.goOn progress machine) => last = machine.standing progress.executed ∧
        (machine.frameFinished = true → progress.betweenFrames = true)

theorem LeadsTo.after {first middle : Standing Cpu κ ρ} {log later : List (Moment Cpu κ ρ)}
    {turn : Option (Turn Cpu κ ρ)} (path : Path permitted first log middle)
    (rest : LeadsTo permitted middle later turn) : LeadsTo permitted first (log ++ later) turn := by
  rcases rest with ⟨last, rest, ends⟩
  exact ⟨last, path.append rest, ends⟩

theorem frameFinished_executeInstruction {machine after : Machine Cpu κ ρ} {options : RunOptions}
    {reason : Completion}
    (stopped : machine.executeInstruction options = some (some reason, after)) :
    after.frameFinished = machine.frameFinished := by
  cases executed_of_executeInstruction stopped with
  | faulted cycled => exact congrArg Account.frameFinished (account_cycle cycled)
  | halted cycled _ =>
      rw [frameFinished_drawnBy]
      exact congrArg Account.frameFinished (account_cycle cycled)

theorem endTurn_leadsTo (permitted : RunOptions → Prop) (machine : Machine Cpu κ ρ)
    (request : RunRequest) (progress : RunProgress) :
    LeadsTo permitted
      ⟨if machine.frameFinished then .overrun else .inFrame, progress.executed, machine⟩
      (if machine.frameFinished then [.frameCompleted machine.completeFrame] else [])
      (some (machine.endTurn request progress)) := by
  cases finished : machine.frameFinished with
  | false =>
      refine ⟨_, .nil, ?_⟩
      rw [endTurn, finished]
      exact ⟨(standing_of_running finished _).symm,
        fun impossible => absurd (finished.symm.trans impossible) nofun⟩
  | true =>
      have still : machine.completeFrame.frameFinished = true := finished
      refine ⟨_, Step.path .completeFrame, ?_⟩
      rw [endTurn, if_pos finished]
      cases request.options.mode.endsWithFrame with
      | true => exact ⟨_, (standing_of_finished still _).symm⟩
      | false => exact ⟨(standing_of_finished still _).symm, fun _ => rfl⟩

theorem advance_leadsTo {machine : Machine Cpu κ ρ} (running : machine.frameFinished = false)
    {request : RunRequest} (allowed : permitted request.options) (progress : RunProgress) :
    LeadsTo permitted (machine.standing progress.executed) (machine.advanceLog request progress)
      (machine.advance request progress) := by
  have start : Path permitted ⟨.inFrame, progress.executed, machine⟩ [.executing machine]
      ⟨.begun, progress.executed, machine⟩ := Step.path .start
  rw [standing_of_running running]
  refine LeadsTo.after start ?_
  rw [advance]
  cases executed : machine.executeInstruction request.options with
  | none => exact ⟨_, .nil, trivial⟩
  | some result =>
      rcases result with ⟨reason, after⟩
      cases reason with
      | some reason =>
          have still := (frameFinished_executeInstruction executed).trans running
          have path : Path permitted ⟨.begun, progress.executed, machine⟩
              (machine.executeLog request.options)
              ⟨.inFrame, if reason = .halted then progress.executed + 1 else 0, after⟩ :=
            Step.path (.stop allowed executed)
          have rest : Path permitted
              ⟨.inFrame, if reason = .halted then progress.executed + 1 else 0, after⟩
              (after.stopLog reason (progress.executed + 1))
              ⟨.inFrame, if reason = .halted then progress.executed + 1 else 0, after⟩ := by
            by_cases halted : reason = .halted ∧ Processor.midInstruction after.cpu = false
            · rw [stopLog, if_pos halted, if_pos halted.1]
              exact Step.path (.boundary halted.2)
            · rw [stopLog, if_neg halted]
              exact .nil
          exact ⟨_, path.append rest, _, (standing_of_running still _).symm⟩
      | none =>
          have path : Path permitted ⟨.begun, progress.executed, machine⟩
              (machine.executeLog request.options)
              ⟨if after.frameFinished then .overrun else .inFrame, progress.executed + 1, after⟩ :=
            Step.path (.goOn allowed executed)
          exact LeadsTo.after path (endTurn_leadsTo permitted after request
            { progress with executed := progress.executed + 1 })

omit [Peripheral κ] [TapeProvider ρ] in
theorem stopReason_eq (machine : Machine Cpu κ ρ) (request : RunRequest) (progress : RunProgress) :
    ∃ debugger, (machine.stopReason request progress).2 = machine.withDebugger debugger := by
  have asked (mode : RunMode) (executed : Nat) :
      ∃ debugger, (machine.askDebugger mode executed).2 = machine.withDebugger debugger := by
    cases mode <;> exact ⟨_, rfl⟩
  rw [stopReason]
  split_ifs
  · exact ⟨_, rfl⟩
  · exact ⟨_, rfl⟩
  · exact ⟨_, rfl⟩
  · exact asked _ _

theorem turnAtBoundary_leadsTo {machine : Machine Cpu κ ρ}
    (running : machine.frameFinished = false) {request : RunRequest}
    (allowed : permitted request.options) (progress : RunProgress) :
    LeadsTo permitted (machine.standing progress.executed) (machine.boundaryLog request progress)
      (machine.turnAtBoundary request progress) := by
  rw [turnAtBoundary, boundaryLog]
  cases between : Processor.midInstruction machine.cpu with
  | true => exact advance_leadsTo running allowed progress
  | false =>
      rcases machine.stopReason_eq request progress with ⟨debugger, same⟩
      cases stop : machine.stopReason request progress with
      | mk reason asked =>
          rw [stop] at same
          subst same
          have still : (machine.withDebugger debugger).frameFinished = false := running
          have path : Path permitted (machine.standing progress.executed)
              [.boundary progress.executed machine]
              ((machine.withDebugger debugger).standing progress.executed) := by
            rw [standing_of_running running, standing_of_running still]
            exact (Step.path (.boundary between)).append
              (Step.path (.note debugger machine.completion (by decide)))
          cases reason with
          | some reason => exact ⟨_, path, _, rfl⟩
          | none =>
              exact LeadsTo.after path
                (advance_leadsTo still allowed { progress with polls := progress.polls + 1 })

theorem turn_leadsTo {machine : Machine Cpu κ ρ} {request : RunRequest}
    (allowed : permitted request.options) {progress : RunProgress}
    (consistent : machine.frameFinished = true → progress.betweenFrames = true) :
    LeadsTo permitted (machine.standing progress.executed) (machine.turnLog request progress)
      (machine.turn request progress) := by
  rw [turn, turnLog]
  cases between : progress.betweenFrames with
  | false =>
      cases finished : machine.frameFinished with
      | true => exact absurd ((consistent finished).symm.trans between) nofun
      | false => exact turnAtBoundary_leadsTo finished allowed progress
  | true =>
      cases cancelled : request.cancelled progress.polls with
      | true => exact ⟨_, .nil, _, rfl⟩
      | false =>
          cases finished : machine.frameFinished with
          | false =>
              exact turnAtBoundary_leadsTo finished allowed
                { progress with polls := progress.polls + 1 }
          | true =>
              have path : Path permitted (machine.standing progress.executed) machine.startFrameLog
                  (machine.startFrame.standing progress.executed) := by
                rw [standing_of_finished finished]
                exact Step.path .startFrame
              exact LeadsTo.after path (turnAtBoundary_leadsTo rfl allowed
                { progress with polls := progress.polls + 1 })

/-! Turn after turn, and whole runs. -/

theorem turns_succ (request : RunRequest) (budget : Nat) (progress : RunProgress)
    (machine : Machine Cpu κ ρ) :
    turns request (budget + 1) progress machine =
      match machine.turn request progress with
      | none => none
      | some (.stop completion after) => some (some completion, after)
      | some (.goOn progress after) => turns request budget progress after := by
  rw [turns]
  cases machine.turn request progress with
  | none => rfl
  | some turn => cases turn <;> rfl

theorem turns_path {request : RunRequest} (allowed : permitted request.options) (budget : Nat)
    (progress : RunProgress) (machine : Machine Cpu κ ρ)
    (consistent : machine.frameFinished = true → progress.betweenFrames = true) :
    ∃ last, Path permitted (machine.standing progress.executed)
        (turnsLog request budget progress machine) last ∧
      ∀ completion after, turns request budget progress machine = some (completion, after) →
        ∃ executed, last = after.standing executed := by
  induction budget generalizing progress machine with
  | zero =>
      refine ⟨_, .nil, fun completion after ended => ?_⟩
      cases ended
      exact ⟨_, rfl⟩
  | succ budget induction =>
      rcases turn_leadsTo allowed consistent with ⟨middle, path, ends⟩
      rw [turnsLog, turns_succ]
      cases result : machine.turn request progress with
      | none =>
          rw [List.append_nil]
          exact ⟨middle, path, fun _ _ ended => nomatch ended⟩
      | some turn =>
          rw [result] at ends
          cases turn with
          | stop completion stopped =>
              rw [List.append_nil]
              refine ⟨middle, path, fun completion after ended => ?_⟩
              cases ended
              exact ends
          | goOn progress after =>
              rcases ends with ⟨rfl, consistent⟩
              rcases induction _ _ consistent with ⟨last, rest, ends⟩
              exact ⟨last, path.append rest, ends⟩

theorem run_path {options : RunOptions} (allowed : permitted options) (machine : Machine Cpu κ ρ)
    (cancelled : Nat → Bool) (budget : Nat) :
    ∃ last, Path permitted ((machine.prepare options).standing 0)
        (machine.runLog options cancelled budget) last ∧
      ∀ completion after, machine.run options cancelled budget = some (completion, after) →
        ∃ executed, last = after.standing executed := by
  let request : RunRequest := { options, cancelled, started := Processor.tacts machine.cpu }
  have requested : permitted request.options := allowed
  rcases turns_path requested budget {} (machine.prepare options) fun _ => rfl
    with ⟨last, path, ends⟩
  rw [run]
  cases turned : turns request budget {} (machine.prepare options) with
  | none => exact ⟨last, path, fun _ _ ended => nomatch ended⟩
  | some result =>
      rcases result with ⟨completion, stopped⟩
      rcases ends completion stopped turned with ⟨executed, rfl⟩
      cases completion with
      | none =>
          refine ⟨_, path, fun completion after ended => ?_⟩
          cases ended
          exact ⟨_, rfl⟩
      | some reason =>
          have noted : Step permitted (stopped.standing executed) []
            ((stopped.withCompletion reason).standing executed) :=
            .note stopped.debugger reason stopped.stage_ne_begun
          rw [← List.append_nil (runLog _ _ _ _)]
          refine ⟨_, path.append noted.path, fun completion after ended => ?_⟩
          cases ended
          exact ⟨_, rfl⟩

/-! The session of some calls follows a path from a standing on. -/

def Follows (permitted : RunOptions → Prop) (first : Standing Cpu κ ρ) (calls : List RunCall)
    (machine : Machine Cpu κ ρ) : Prop :=
  ∃ last, Path permitted first (machine.sessionLog calls) last ∧
    ∀ after, machine.session calls = some after → ∃ executed, last = after.standing executed

theorem follows_cons {call : RunCall} (allowed : permitted call.options)
    {calls : List RunCall}
    (rest : ∀ (after : Machine Cpu κ ρ) executed,
      Follows permitted (after.standing executed) calls after)
    (machine : Machine Cpu κ ρ) :
    Follows permitted ((machine.called call).standing 0) (call :: calls) machine := by
  rcases run_path allowed (machine.withDebugger (call.edit machine.debugger)) call.cancelled
    call.budget with ⟨middle, path, ends⟩
  rw [Follows, session, sessionLog]
  cases ran : machine.call call with
  | none =>
      rw [List.append_nil]
      exact ⟨middle, path, fun _ ended => nomatch ended⟩
  | some result =>
      rcases result with ⟨completion, after⟩
      rcases ends completion after ran with ⟨executed, rfl⟩
      rcases rest after executed with ⟨last, rest, ends⟩
      exact ⟨last, path.append rest, ends⟩

/-- Every session follows a path. -/
theorem session_follows {calls : List RunCall} (allowed : ∀ call ∈ calls, permitted call.options)
    (machine : Machine Cpu κ ρ) (executed : Nat) :
    Follows permitted (machine.standing executed) calls machine := by
  induction calls generalizing machine executed with
  | nil =>
      refine ⟨_, .nil, fun after ended => ?_⟩
      cases ended
      exact ⟨_, rfl⟩
  | cons call calls induction =>
      have edited : Step permitted (machine.standing executed) []
          ((machine.withDebugger (call.edit machine.debugger)).standing executed) :=
        .note (call.edit machine.debugger) machine.completion machine.stage_ne_begun
      have prepared : Step permitted
          ((machine.withDebugger (call.edit machine.debugger)).standing executed) []
          ((machine.called call).standing 0) :=
        .call (allowed call List.mem_cons_self) machine.stage_ne_begun
      have later := induction fun other member => allowed other (List.mem_cons_of_mem _ member)
      rcases follows_cons (allowed call List.mem_cons_self) later machine
        with ⟨last, path, ends⟩
      exact ⟨last, (edited.path.append prepared.path).append path, ends⟩

theorem session_follows_called {call : RunCall} {calls : List RunCall}
    (allowed : ∀ other ∈ call :: calls, permitted other.options) (machine : Machine Cpu κ ρ) :
    Follows permitted ((machine.called call).standing 0) (call :: calls) machine :=
  follows_cons (allowed call List.mem_cons_self)
    (fun after => session_follows (fun other member =>
      allowed other (List.mem_cons_of_mem _ member)) after) machine

end ZxSpectrum.Machine
