import ZxSpectrum.Proofs.Machine.Excursion

namespace ZxSpectrum

/-! Stepping over an instruction that is no call: the run executes it, be it in several goes, and
stops. -/

namespace Machine

variable {Cpu κ ρ : Type} [Processor Cpu] [Peripheral κ] [TapeProvider ρ]

/-- One instruction, from the machine before each of its parts to the machine after it. -/
inductive Completes (options : RunOptions) :
    Machine Cpu κ ρ → List (Machine Cpu κ ρ) → Machine Cpu κ ρ → Prop
  | last {machine after} (executed : machine.executeInstruction options = some (none, after))
    (complete : Processor.midInstruction after.cpu = false) :
    Completes options machine [machine] after
  | more {machine after rest last}
    (executed : machine.executeInstruction options = some (none, after))
    (within : Processor.midInstruction after.cpu = true)
    (continues : Completes options after rest last) :
    Completes options machine (machine :: rest) last

def stepEnd (last : Machine Cpu κ ρ) : Option Completion × Machine Cpu κ ρ :=
  if last.frameFinished then (some .frameCompleted, last.completeFrame)
  else (some .breakpointReached,
    last.withDebugger { last.debugger with lastStop := some last.pc })

omit [TapeProvider ρ] in
theorem stepEnd_of_finished {last : Machine Cpu κ ρ} (finished : last.frameFinished = true) :
    stepEnd last = (some .frameCompleted, last.completeFrame) := by
  rw [stepEnd, if_pos finished]

omit [TapeProvider ρ] in
theorem stepEnd_of_running {last : Machine Cpu κ ρ} (running : last.frameFinished = false) :
    stepEnd last = (some .breakpointReached,
      last.withDebugger { last.debugger with lastStop := some last.pc }) := by
  rw [stepEnd, running]
  rfl

omit [Peripheral κ] [TapeProvider ρ] in
theorem stopReason_stepOver {machine : Machine Cpu κ ρ} {request : RunRequest}
    {progress : RunProgress} {stop : Bool} {debugger : Debugger}
    (mode : request.options.mode = .debugger .stepOver)
    (goesOn : request.cancelled progress.polls = false)
    (inTime : ¬machine.Overdue request.options request.started)
    (answer : machine.debugger.shouldStop .stepOver machine.pc progress.executed (fun _ =>
      Processor.callLength machine.cpu machine.board.memory.read) = (stop, debugger)) :
    machine.stopReason request progress =
      (if stop then some .breakpointReached else none, machine.withDebugger debugger) := by
  have early : machine.timedOut request = false :=
    Bool.eq_false_of_not_eq_true fun late => inTime ((machine.timedOut_iff request).mp late)
  have asks : machine.askDebugger (.debugger .stepOver) progress.executed =
      (stop, machine.withDebugger debugger) := by
    rw [askDebugger, answer]
    rfl
  rw [stopReason, goesOn, early, mode, asks]
  rfl

/-! What a turn and a run come to, and the instructions that they execute. -/

def BoundaryYields (machine : Machine Cpu κ ρ) (request : RunRequest) (progress : RunProgress)
    (executed : List (Machine Cpu κ ρ)) (result : Option (Turn Cpu κ ρ)) : Prop :=
  machine.turnAtBoundary request progress = result ∧
    executings (machine.boundaryLog request progress) = executed

def TurnYields (machine : Machine Cpu κ ρ) (request : RunRequest) (progress : RunProgress)
    (executed : List (Machine Cpu κ ρ)) (result : Option (Turn Cpu κ ρ)) : Prop :=
  machine.turn request progress = result ∧
    executings (machine.turnLog request progress) = executed

def TurnsYield (request : RunRequest) (budget : Nat) (progress : RunProgress)
    (machine : Machine Cpu κ ρ) (executed : List (Machine Cpu κ ρ))
    (result : Option (Option Completion × Machine Cpu κ ρ)) : Prop :=
  turns request budget progress machine = result ∧
    executings (turnsLog request budget progress machine) = executed

def entered (machine : Machine Cpu κ ρ) : Machine Cpu κ ρ :=
  if machine.frameFinished then machine.startFrame else machine

section Yields

variable {request : RunRequest} {progress : RunProgress} {machine after asked : Machine Cpu κ ρ}
  {executed later : List (Machine Cpu κ ρ)} {reason : Completion} {budget : Nat}
  {result : Option (Turn Cpu κ ρ)}

theorem boundaryYields_within (within : Processor.midInstruction machine.cpu = true) :
    BoundaryYields machine request progress [machine] (machine.advance request progress) := by
  rw [BoundaryYields, turnAtBoundary, boundaryLog, within]
  exact ⟨rfl, executings_advanceLog machine request progress⟩

theorem boundaryYields_stop (between : Processor.midInstruction machine.cpu = false)
    (stops : machine.stopReason request progress = (some reason, after)) :
    BoundaryYields machine request progress [] (some (.stop reason after)) := by
  rw [BoundaryYields, turnAtBoundary, boundaryLog, between, stops]
  exact ⟨rfl, rfl⟩

theorem boundaryYields_goOn (between : Processor.midInstruction machine.cpu = false)
    (goesOn : machine.stopReason request progress = (none, asked)) :
    BoundaryYields machine request progress [asked]
      (asked.advance request { progress with polls := progress.polls + 1 }) := by
  rw [BoundaryYields, turnAtBoundary, boundaryLog, between, goesOn]
  exact ⟨rfl, executings_advanceLog asked request progress⟩

theorem BoundaryYields.inFrame (yields : BoundaryYields machine request progress executed result)
    (inFrame : progress.betweenFrames = false) :
    TurnYields machine request progress executed result := by
  rw [TurnYields, turn, turnLog, inFrame]
  exact yields

theorem BoundaryYields.first
    (yields : BoundaryYields machine.entered request { polls := 1 } executed result)
    (goesOn : request.cancelled 0 = false) :
    TurnYields machine request {} executed result := by
  rw [TurnYields, turn, turnLog]
  dsimp only
  rw [goesOn]
  rw [entered] at yields
  cases finished : machine.frameFinished with
  | false =>
      rw [finished] at yields
      exact yields
  | true =>
      rw [finished] at yields
      refine ⟨yields.1, ?_⟩
      change executings (machine.startFrameLog ++ _) = executed
      rw [executings_append, executings_startFrameLog]
      exact yields.2

theorem TurnYields.stop (yields : TurnYields machine request progress executed
    (some (.stop reason after))) (budget : Nat) :
    TurnsYield request (budget + 1) progress machine executed (some (some reason, after)) := by
  rcases yields with ⟨turned, executes⟩
  rw [TurnsYield, turns_succ, turnsLog, turned, executings_append, executes]
  exact ⟨rfl, List.append_nil _⟩

theorem TurnYields.goOn {next : RunProgress}
    {final : Option (Option Completion × Machine Cpu κ ρ)}
    (yields : TurnYields machine request progress executed (some (.goOn next after)))
    (rest : TurnsYield request budget next after later final) :
    TurnsYield request (budget + 1) progress machine (executed ++ later) final := by
  rcases yields with ⟨turned, executes⟩
  rw [TurnsYield, turns_succ, turnsLog, turned, executings_append, executes]
  exact ⟨rest.1, congrArg _ rest.2⟩

end Yields

section StepOver

variable {request : RunRequest} {progress : RunProgress} {machine after last : Machine Cpu κ ρ}

/-! Turns of a run that steps over. -/

theorem boundaryYields_of_pending (mode : request.options.mode = .debugger .stepOver)
    (between : Processor.midInstruction machine.cpu = false)
    (pending : machine.debugger.returnAddress = some machine.pc)
    (goesOn : request.cancelled progress.polls = false)
    (inTime : ¬machine.Overdue request.options request.started) :
    BoundaryYields machine request progress [] (some (.stop .breakpointReached
      (machine.withDebugger
        { machine.debugger.cancelStepOver with lastStop := some machine.pc }))) :=
  boundaryYields_stop between (stopReason_stepOver mode goesOn inTime
    (Debugger.shouldStop_of_returned pending progress.executed _))

omit [TapeProvider ρ] in
theorem cpu_entered (machine : Machine Cpu κ ρ) : machine.entered.cpu = machine.cpu := by
  rw [entered]
  split <;> rfl

omit [TapeProvider ρ] in
theorem debugger_entered (machine : Machine Cpu κ ρ) :
    machine.entered.debugger = machine.debugger := by
  rw [entered]
  split <;> rfl

omit [TapeProvider ρ] in
theorem memory_entered (machine : Machine Cpu κ ρ) :
    machine.entered.board.memory = machine.board.memory := by
  rw [entered]
  split
  · exact memory_startFrame machine
  · rfl

omit [TapeProvider ρ] in
theorem not_overdue_entered (machine : Machine Cpu κ ρ) (options : RunOptions) :
    ¬machine.entered.Overdue options (Processor.tacts machine.cpu) := by
  rw [Overdue, cpu_entered, Nat.sub_self]
  exact fun late => Nat.not_lt_zero _ late.2

theorem between_of_frameFinished {options : RunOptions}
    (executed : machine.executeInstruction options = some (none, after))
    (finished : after.frameFinished = true) : Processor.midInstruction after.cpu = false := by
  cases executed_of_executeInstruction executed with
  | completed _ _ => exact Bool.not_eq_true' _ |>.mp (Bool.and_eq_true_iff.mp finished).1

theorem advance_of_executed (mode : request.options.mode = .debugger .stepOver)
    (executed : machine.executeInstruction request.options = some (none, after)) :
    machine.advance request progress =
      some (if after.frameFinished then .stop .frameCompleted after.completeFrame
        else .goOn { progress with executed := progress.executed + 1, betweenFrames := false }
          after) := by
  rw [advance, executed]
  change some (after.endTurn request _) = _
  rw [endTurn, mode]
  rfl

theorem turnYields_stepped (mode : request.options.mode = .debugger .stepOver)
    (inFrame : progress.betweenFrames = false) (ran : 0 < progress.executed)
    (complete : Processor.midInstruction last.cpu = false)
    (idle : last.debugger.returnAddress = none)
    (goesOn : request.cancelled progress.polls = false)
    (inTime : ¬last.Overdue request.options request.started) :
    TurnYields last request progress [] (some (.stop .breakpointReached
      (last.withDebugger { last.debugger with lastStop := some last.pc }))) :=
  (boundaryYields_stop complete (stopReason_stepOver mode goesOn inTime
    (Debugger.shouldStop_of_stepped idle last.pc ran _))).inFrame inFrame

theorem returnAddress_of_executed {options : RunOptions}
    (idle : machine.debugger.returnAddress = none)
    (executed : machine.executeInstruction options = some (none, after)) :
    after.debugger.returnAddress = none :=
  (congrArg Debugger.returnAddress (executed_of_executeInstruction executed).debugger).trans idle

/-! Runs that have come to an instruction. -/

theorem turnsYield_of_completes {options : RunOptions} {steps : List (Machine Cpu κ ρ)}
    {begun : Machine Cpu κ ρ} {asked : RunProgress} {budget : Nat}
    (completes : Completes options begun steps last)
    (same : request.options = options)
    (mode : request.options.mode = .debugger .stepOver)
    (never : ∀ poll, request.cancelled poll = false)
    (idle : begun.debugger.returnAddress = none)
    (inTime : ¬last.Overdue request.options request.started) (enough : steps.length < budget)
    (yields : TurnYields machine request progress [begun] (begun.advance request asked)) :
    TurnsYield request budget progress machine steps (some (stepEnd last)) := by
  subst same
  induction completes generalizing machine progress asked budget with
  | @last begun last executed complete =>
      obtain ⟨more, rfl⟩ : ∃ more, budget = more + 2 :=
        ⟨budget - 2, (Nat.sub_add_cancel enough).symm⟩
      rw [advance_of_executed mode executed] at yields
      cases finished : last.frameFinished with
      | true =>
          rw [finished] at yields
          rw [stepEnd_of_finished finished]
          exact yields.stop _
      | false =>
          rw [finished] at yields
          rw [stepEnd_of_running finished]
          let ran := { asked with executed := asked.executed + 1, betweenFrames := false }
          have stops : TurnYields last request ran [] (some (.stop .breakpointReached _)) :=
            turnYields_stepped mode rfl (Nat.succ_pos asked.executed) complete
              (returnAddress_of_executed idle executed) (never asked.polls) inTime
          exact yields.goOn (stops.stop _)
  | @more begun after rest last executed within continues induction =>
      obtain ⟨budget, rfl⟩ := Nat.exists_eq_succ_of_ne_zero (Nat.ne_zero_of_lt enough)
      have running : after.frameFinished = false :=
        Bool.eq_false_of_not_eq_true fun finished => by
          rw [between_of_frameFinished executed finished] at within
          exact Bool.false_ne_true within
      rw [advance_of_executed mode executed, running] at yields
      let ran := { asked with executed := asked.executed + 1, betweenFrames := false }
      have goesOn : TurnYields after request ran [after] (after.advance request ran) :=
        (boundaryYields_within within).inFrame rfl
      exact yields.goOn (induction (returnAddress_of_executed idle executed) inTime
        (Nat.lt_of_succ_lt_succ enough) goesOn)

theorem turnsYield_of_ended {ended : Machine Cpu κ ρ} {budget : Nat} {reason : Completion}
    (mode : request.options.mode = .debugger .stepOver) (inFrame : progress.betweenFrames = false)
    (ran : 0 < progress.executed) (complete : Processor.midInstruction last.cpu = false)
    (idle : last.debugger.returnAddress = none)
    (turned : turns request budget progress last = some (some reason, ended))
    (others : reason ∉ [.cancelled, .timeout, .faulted]) :
    reason = .breakpointReached ∧
      ended = last.withDebugger { last.debugger with lastStop := some last.pc } ∧
      TurnsYield request budget progress last [] (some (some reason, ended)) := by
  have inquired := last.inquired mode progress
  cases stops : last.stopReason request progress with
  | mk stopped asked =>
      rw [stops] at inquired
      cases stopped with
      | none =>
          cases inquired with
          | passed answer =>
              cases answer with
              | away pending _ => exact absurd pending (Debugger.not_pending idle)
              | begun _ first => exact absurd first (Nat.ne_of_gt ran)
      | some stopped =>
          have yields := (boundaryYields_stop complete stops).inFrame inFrame
          cases budget with
          | zero => cases turned
          | succ budget =>
              have final := yields.stop budget
              cases turned.symm.trans final.1
              cases inquired with
              | otherwise other => rcases other with rfl | rfl <;> exact absurd others (by decide)
              | stopped answer =>
                  cases answer with
                  | returned pending =>
                      exact absurd pending (Debugger.not_pending idle)
                  | stepped _ _ => exact ⟨rfl, rfl, final⟩

theorem exists_executed {begun ended : Machine Cpu κ ρ} {asked : RunProgress} {budget : Nat}
    {reason : Completion} (mode : request.options.mode = .debugger .stepOver)
    (turn : machine.turn request progress = begun.advance request asked)
    (turned : turns request (budget + 1) progress machine = some (some reason, ended))
    (unfaulted : reason ≠ .faulted) :
    ∃ after, begun.executeInstruction request.options = some (none, after) := by
  rw [turns_succ, turn, advance] at turned
  cases result : begun.executeInstruction request.options with
  | none =>
      rw [result] at turned
      cases turned
  | some executed =>
      rcases executed with ⟨stopped, after⟩
      cases stopped with
      | none => exact ⟨after, rfl⟩
      | some stopped =>
          rw [result] at turned
          cases turned
          cases executed_of_executeInstruction result with
          | faulted _ => exact absurd rfl unfaulted
          | halted _ waits =>
              rw [mode] at waits
              cases waits

/-- A run that has come to an instruction, and ends, has executed nothing but that instruction,
unless it met a fault or was given up. -/
theorem completes_of_turns {begun ended : Machine Cpu κ ρ} {asked : RunProgress} {budget : Nat}
    {reason : Completion} (mode : request.options.mode = .debugger .stepOver)
    (idle : begun.debugger.returnAddress = none)
    (turned : turns request budget progress machine = some (some reason, ended))
    (others : reason ∉ [.cancelled, .timeout, .faulted])
    (yields : TurnYields machine request progress [begun] (begun.advance request asked)) :
    ∃ steps last, Completes request.options begun steps last ∧
      TurnsYield request budget progress machine steps (some (stepEnd last)) := by
  induction budget generalizing machine progress asked begun with
  | zero => cases turned
  | succ budget induction =>
      have unfaulted : reason ≠ .faulted := fun faulted =>
        others (faulted ▸ List.mem_cons_of_mem _ (List.mem_cons_of_mem _ List.mem_cons_self))
      rcases exists_executed mode yields.1 turned unfaulted with ⟨after, executed⟩
      have still := returnAddress_of_executed idle executed
      rw [advance_of_executed mode executed] at yields
      cases finished : after.frameFinished with
      | true =>
          have complete := between_of_frameFinished executed finished
          rw [finished] at yields
          refine ⟨_, after, .last executed complete, ?_⟩
          rw [stepEnd_of_finished finished]
          exact yields.stop budget
      | false =>
          rw [finished] at yields
          let ran := { asked with executed := asked.executed + 1, betweenFrames := false }
          replace turned : turns request budget ran after = some (some reason, ended) := by
            rw [turns_succ, yields.1] at turned
            exact turned
          cases between : Processor.midInstruction after.cpu with
          | true =>
              have goesOn : TurnYields after request ran [after] (after.advance request ran) :=
                (boundaryYields_within between).inFrame rfl
              rcases induction still turned goesOn with ⟨steps, last, completes, rest⟩
              exact ⟨_, last, .more executed between completes, yields.goOn rest⟩
          | false =>
              rcases turnsYield_of_ended mode rfl (Nat.succ_pos asked.executed) between still turned
                others with ⟨rfl, rfl, stops⟩
              refine ⟨_, after, .last executed between, ?_⟩
              rw [stepEnd_of_running finished]
              exact yields.goOn stops

end StepOver

def stepHistory (steps : List (Machine Cpu κ ρ)) (last : Machine Cpu κ ρ) :
    List (Event Cpu κ ρ) :=
  steps.map .executing ++ [.ended (noted (stepEnd last)).1 (noted (stepEnd last)).2]

/-! The runs of a host. -/

section Calls

variable {machine after : Machine Cpu κ ρ} {call : RunCall}

def request (machine : Machine Cpu κ ρ) (call : RunCall) : RunRequest :=
  ⟨call.options, call.cancelled, Processor.tacts machine.cpu⟩

theorem history_of_turnsYield {steps : List (Machine Cpu κ ρ)}
    {final : Option Completion × Machine Cpu κ ρ}
    (yields : TurnsYield (machine.request call) call.budget {} (machine.called call) steps
      (some final)) :
    machine.history [call] = steps.map .executing ++ [.ended (noted final).1 (noted final).2] := by
  have called : machine.call call = some (noted final) := by
    rw [call_eq]
    exact congrArg (Option.map noted) yields.1
  have log : executings ((machine.withDebugger (call.edit machine.debugger)).runLog call.options
      call.cancelled call.budget) = steps := yields.2
  rw [history, called, log]
  rfl

theorem turnYields_of_noCall (stepsOver : Excursion.StepsOver call)
    (between : Processor.midInstruction machine.cpu = false)
    (idle : machine.debugger.returnAddress = none)
    (noCall : Processor.callLength machine.cpu machine.board.memory.read = 0)
    (starts : call.cancelled 0 = false) (goesOn : call.cancelled 1 = false) :
    let begun := (machine.called call).entered
    TurnYields (machine.called call) (machine.request call) {} [begun]
      (begun.advance (machine.request call) { polls := 2 }) := by
  intro begun
  have cpu : begun.cpu = machine.cpu := cpu_entered _
  have memory : begun.board.memory = machine.board.memory := memory_entered _
  have waits : begun.debugger.returnAddress = none := by
    rw [debugger_entered, stepsOver.returnAddress_called, idle]
  have inTime := not_overdue_entered (machine.called call) call.options
  have quiet : Processor.callLength begun.cpu begun.board.memory.read = 0 := by
    rw [cpu, memory, noCall]
  have answer : begun.debugger.shouldStop .stepOver begun.pc 0 (fun _ =>
      Processor.callLength begun.cpu begun.board.memory.read) = (false, begun.debugger) :=
    Debugger.shouldStop_of_noCall waits begun.pc quiet
  have asks : begun.stopReason (machine.request call) { polls := 1 } = (none, begun) :=
    (stopReason_stepOver stepsOver.1 goesOn inTime answer).trans rfl
  rw [← cpu] at between
  exact (boundaryYields_goOn between asks).first starts

theorem goesOn_of_ended {request : RunRequest} {budget : Nat} {reason : Completion}
    (between : Processor.midInstruction machine.cpu = false)
    (turned : turns request budget {} machine = some (some reason, after))
    (other : reason ≠ .cancelled) :
    request.cancelled 0 = false ∧ request.cancelled 1 = false := by
  cases budget with
  | zero => cases turned
  | succ budget =>
      have starts : request.cancelled 0 = false := by
        refine Bool.eq_false_of_not_eq_true fun cancelled => ?_
        have stops : machine.turn request {} = some (.stop .cancelled machine) := by
          rw [turn]
          dsimp only
          rw [cancelled]
          rfl
        rw [turns_succ, stops] at turned
        cases turned
        exact other rfl
      refine ⟨starts, Bool.eq_false_of_not_eq_true fun cancelled => ?_⟩
      have stops : machine.entered.stopReason request { polls := 1 } =
          (some .cancelled, machine.entered) := by
        rw [stopReason, cancelled]
        rfl
      rw [← cpu_entered machine] at between
      have yields := ((boundaryYields_stop between stops).first starts).stop budget
      cases turned.symm.trans yields.1
      exact other rfl

/-! Stepping over an instruction that is no call executes it, if it completes and nothing else ends
the run. -/

theorem history_of_completes (stepsOver : Excursion.StepsOver call)
    (between : Processor.midInstruction machine.cpu = false)
    (idle : machine.debugger.returnAddress = none)
    (noCall : Processor.callLength machine.cpu machine.board.memory.read = 0)
    {steps : List (Machine Cpu κ ρ)} {last : Machine Cpu κ ρ}
    (completes : Completes call.options (machine.called call).entered steps last)
    (never : ∀ poll, call.cancelled poll = false)
    (inTime : ¬last.Overdue call.options (Processor.tacts machine.cpu))
    (enough : steps.length < call.budget) :
    machine.history [call] = stepHistory steps last := by
  have begins := turnYields_of_noCall stepsOver between idle noCall (never 0) (never 1)
  have waits : (machine.called call).entered.debugger.returnAddress = none := by
    rw [debugger_entered, stepsOver.returnAddress_called, idle]
  exact history_of_turnsYield
    (turnsYield_of_completes completes rfl stepsOver.1 never waits inTime enough begins)

theorem completes_of_call (stepsOver : Excursion.StepsOver call)
    (between : Processor.midInstruction machine.cpu = false)
    (idle : machine.debugger.returnAddress = none)
    (noCall : Processor.callLength machine.cpu machine.board.memory.read = 0)
    {reason : Completion} (ended : machine.call call = some (some reason, after))
    (others : reason ∉ [.cancelled, .timeout, .faulted]) :
    ∃ steps last, Completes call.options (machine.called call).entered steps last ∧
      machine.history [call] = stepHistory steps last := by
  rw [call_eq] at ended
  rcases Option.map_eq_some_iff.mp ended with ⟨⟨completion, stopped⟩, turned, same⟩
  cases completion with
  | none => cases same
  | some completion =>
      cases same
      have called : Processor.midInstruction (machine.called call).cpu = false := between
      have goesOn := goesOn_of_ended called turned fun cancelled =>
        others (cancelled ▸ List.mem_cons_self)
      have waits : (machine.called call).entered.debugger.returnAddress = none := by
        rw [debugger_entered, stepsOver.returnAddress_called, idle]
      have begins := turnYields_of_noCall stepsOver between idle noCall goesOn.1 goesOn.2
      rcases completes_of_turns stepsOver.1 waits turned others begins with
        ⟨steps, last, completes, yields⟩
      exact ⟨steps, last, completes, history_of_turnsYield yields⟩

theorem history_of_pending (stepsOver : Excursion.StepsOver call)
    (between : Processor.midInstruction machine.cpu = false)
    (pending : machine.debugger.returnAddress = some machine.pc)
    (starts : call.cancelled 0 = false) (goesOn : call.cancelled 1 = false)
    (looks : 0 < call.budget) :
    ∃ stopped, machine.history [call] = [.ended (some .breakpointReached) stopped] ∧
      stopped.cpu = machine.cpu ∧ stopped.debugger.returnAddress = none := by
  let begun := (machine.called call).entered
  have cpu : begun.cpu = machine.cpu := cpu_entered _
  have there : begun.debugger.returnAddress = some begun.pc := by
    rw [debugger_entered, stepsOver.returnAddress_called, pending]
    exact congrArg (some ∘ Processor.pc) cpu.symm
  obtain ⟨budget, enough⟩ : ∃ budget, call.budget = budget + 1 :=
    Nat.exists_eq_succ_of_ne_zero (Nat.ne_of_gt looks)
  rw [← cpu] at between
  have stops : BoundaryYields begun (machine.request call) { polls := 1 } [] _ :=
    boundaryYields_of_pending stepsOver.1 between there goesOn
      (not_overdue_entered (machine.called call) call.options)
  have yields := (stops.first starts).stop budget
  rw [← enough] at yields
  exact ⟨_, history_of_turnsYield yields, cpu, rfl⟩

end Calls

/-! Runs without the debugger. -/

/-- A call that does without the debugger. -/
def Undebugged (call : RunCall) : Prop :=
  ∀ step, call.options.mode ≠ .debugger step

omit [Peripheral κ] [TapeProvider ρ] in
theorem stopReason_of_undebugged (machine : Machine Cpu κ ρ) {request : RunRequest}
    (undebugged : ∀ step, request.options.mode ≠ .debugger step) (progress : RunProgress) :
    (machine.stopReason request progress).2 = machine := by
  have asks : machine.askDebugger request.options.mode progress.executed = (false, machine) := by
    rw [askDebugger]
    exact undebugged
  rw [stopReason, asks]
  split_ifs <;> rfl

omit [TapeProvider ρ] in
theorem debugger_of_entered {machine begun : Machine Cpu κ ρ} {progress entered : RunProgress}
    (enters : machine.Entered progress entered begun) : begun.debugger = machine.debugger := by
  cases enters <;> rfl

omit [Peripheral κ] [TapeProvider ρ] in
theorem debugger_of_admitted {machine after : Machine Cpu κ ρ} {request : RunRequest}
    {progress admitted : RunProgress} (undebugged : ∀ step, request.options.mode ≠ .debugger step)
    (admits : machine.Admitted request progress admitted after) :
    after.debugger = machine.debugger := by
  cases admits with
  | within _ => rfl
  | asked _ goesOn =>
      have same := machine.stopReason_of_undebugged undebugged progress
      rw [goesOn] at same
      exact congrArg Machine.debugger same

theorem watchIdle :
    Watch Undebugged (fun (_ : Unit) (_ : Event Cpu κ ρ) => ())
      (fun _ event => event.machine.debugger.returnAddress = none) (fun _ _ => True)
      (fun options _ _ machine => (∀ step, options.mode ≠ .debugger step) ∧
        machine.debugger.returnAddress = none) where
  begins {call _ machine} undebugged _ := by
    refine ⟨undebugged, ?_⟩
    rw [called, prepare]
    dsimp only
    split
    · next mode => exact absurd mode (undebugged _)
    · rfl
  fits turned stands := by
    cases turned with
    | cancelled => trivial
    | stopped _ _ _ => trivial
    | executed enters admits _ =>
        have same := (debugger_of_admitted stands.1 admits).trans (debugger_of_entered enters)
        exact ⟨(congrArg Debugger.returnAddress same).trans stands.2, trivial⟩
  goesOn turned stands := by
    cases turned with
    | executed enters admits advances =>
        have same := (debugger_of_admitted stands.1 admits).trans (debugger_of_entered enters)
        have idle := (congrArg Debugger.returnAddress same).trans stands.2
        cases advances with
        | inFrame completed _ => exact ⟨stands.1, returnAddress_of_executed idle completed⟩
        | finished completed _ =>
            have still := returnAddress_of_executed idle completed
            exact ⟨stands.1, still⟩
  stops turned stands := by
    refine ⟨?_, trivial⟩
    cases turned with
    | cancelled => exact stands.2
    | @stopped entered begun _ _ enters _ stops =>
        have same := begun.stopReason_of_undebugged stands.1 entered
        rw [stops] at same
        have kept := (congrArg Machine.debugger same).trans (debugger_of_entered enters)
        exact (congrArg Debugger.returnAddress kept).trans stands.2
    | executed enters admits advances =>
        have same := (debugger_of_admitted stands.1 admits).trans (debugger_of_entered enters)
        have idle := (congrArg Debugger.returnAddress same).trans stands.2
        cases advances with
        | stopped stopped =>
            have kept := (executed_of_executeInstruction stopped).debugger
            exact (congrArg Debugger.returnAddress kept).trans idle
        | ended completed _ =>
            have still := returnAddress_of_executed idle completed
            exact still
  unfinished stands := ⟨stands.2, trivial⟩

theorem returnAddress_of_undebugged {machine after : Machine Cpu κ ρ} {call : RunCall}
    {completion : Option Completion} (undebugged : Undebugged call)
    (ended : machine.call call = some (completion, after)) :
    after.debugger.returnAddress = none := by
  have monitored : Monitored _ _ () (machine.history [call]) :=
    watchIdle.history (fun _ member => List.mem_singleton.mp member ▸ undebugged) trivial
  rw [history, ended] at monitored
  exact monitored.fits

/-- Stepping over a call, run after run, the machine stops for the first time where the call
returns, once it has executed something, and begins nothing there before; which runs have ended on
the way does not matter. Over anything else it executes a single instruction. Every run without the
debugger, and every other way of stepping, forgets where a call returns. -/
theorem steps_over_calls (machine : Machine Cpu κ ρ)
    (between : Processor.midInstruction machine.cpu = false)
    (idle : machine.debugger.returnAddress = none) :
    let length := Processor.callLength machine.cpu machine.board.memory.read
    (0 < length → ∀ calls, (∀ call ∈ calls, Excursion.StepsOver call) →
      ∀ before event later, machine.history calls = before ++ event :: later →
        Excursion.Fits (machine.pc + length) (before.foldl Excursion.next {}) event) ∧
    (∀ (arrived : Machine Cpu κ ρ) request progress,
      request.options.mode = .debugger .stepOver →
        Processor.midInstruction arrived.cpu = false →
          arrived.debugger.returnAddress = some arrived.pc →
            request.cancelled progress.polls = false →
              ¬arrived.Overdue request.options request.started →
                ∃ stopped, stopped.debugger.returnAddress = none ∧
                  arrived.turnAtBoundary request progress =
                    some (.stop .breakpointReached stopped)) ∧
    (∀ (arrived : Machine Cpu κ ρ) call, Excursion.StepsOver call →
      Processor.midInstruction arrived.cpu = false →
        arrived.debugger.returnAddress = some arrived.pc →
          call.cancelled 0 = false → call.cancelled 1 = false → 0 < call.budget →
            ∃ stopped, arrived.history [call] = [.ended (some .breakpointReached) stopped] ∧
              stopped.cpu = arrived.cpu ∧ stopped.debugger.returnAddress = none) ∧
    (length = 0 → ∀ call, Excursion.StepsOver call →
      (∀ steps last, Completes call.options (machine.called call).entered steps last →
        (∀ poll, call.cancelled poll = false) →
          ¬last.Overdue call.options (Processor.tacts machine.cpu) →
            steps.length < call.budget → machine.history [call] = stepHistory steps last) ∧
      ∀ reason after, machine.call call = some (some reason, after) →
        reason ∉ [.cancelled, .timeout, .faulted] →
          ∃ steps last, Completes call.options (machine.called call).entered steps last ∧
            machine.history [call] = stepHistory steps last) ∧
    (∀ (other : Machine Cpu κ ρ) call completion after, Undebugged call →
      other.call call = some (completion, after) → after.debugger.returnAddress = none) ∧
    ∀ (debugger : Debugger) mode pc executed callLength, mode ≠ .stepOver →
      (debugger.shouldStop mode pc executed callLength).2.returnAddress = none := by
  intro length
  refine ⟨fun isCall calls stepsOver before event later split => ?_,
    fun arrived request progress mode rests pending goesOn inTime =>
      ⟨_, rfl, (boundaryYields_of_pending mode rests pending goesOn inTime).1⟩,
    fun arrived call stepsOver rests pending starts goesOn looks =>
      history_of_pending stepsOver rests pending starts goesOn looks,
    fun noCall call stepsOver =>
      ⟨fun steps last completes never inTime enough =>
        history_of_completes stepsOver between idle noCall completes never inTime enough,
      fun reason after ended others =>
        completes_of_call stepsOver between idle noCall ended others⟩,
    fun other call completion after undebugged ended =>
      returnAddress_of_undebugged undebugged ended,
    fun debugger mode pc executed callLength otherwise =>
      debugger.returnAddress_shouldStop otherwise pc executed callLength⟩
  have monitored : Monitored Excursion.next (Excursion.Fits (machine.pc + length)) {}
      (machine.history calls) :=
    (Excursion.watch between isCall).history stepsOver (.waiting rfl rfl rfl idle)
  rw [split] at monitored
  exact monitored.fits

def calling : Machine ScriptedProcessor PortCard TapeFolder :=
  { oneLine.programmed [0xCD, 6, 0, 0, 0, 0, 0xC9] with cpu := { registers := { sp := 0x4002 } } }

def stepOverRun : RunCall :=
  { options := { mode := .debugger .stepOver }, budget := 9 }

theorem stepsOver_stepOverRun : Excursion.StepsOver stepOverRun :=
  ⟨rfl, fun _ => rfl⟩

/-- The run that steps over the call ends with the frame, at the return address, and the next run
reports the stop there. A machine that stands before an empty instruction steps over just that. A
run to the end of the frame forgets where the call returns. -/
theorem steps_over_calls_calling :
    let calls := [stepOverRun, stepOverRun]
    let before := (calling.history calls).take 3
    (∃ stopped, calling.history calls =
        before ++ .ended (some .breakpointReached) stopped :: (calling.history calls).drop 4 ∧
      (before.foldl Excursion.next {}).returned = false ∧ stopped.pc = 3 ∧
      stopped.debugger.returnAddress = none) ∧
    (∃ arrived stopped, calling.call stepOverRun = some (some .frameCompleted, arrived) ∧
      arrived.debugger.returnAddress = some 3 ∧
      arrived.history [stepOverRun] = [.ended (some .breakpointReached) stopped] ∧
      (∃ asked, arrived.turnAtBoundary (arrived.request stepOverRun) {} =
        some (.stop .breakpointReached asked)) ∧
      ∃ after, arrived.call { budget := 9 } = some (some .frameCompleted, after) ∧
        after.debugger.returnAddress = none) ∧
    ∃ last, Completes stepOverRun.options (oneLine.called stepOverRun).entered
        [(oneLine.called stepOverRun).entered] last ∧
      oneLine.history [stepOverRun] = stepHistory [(oneLine.called stepOverRun).entered] last := by
  intro calls before
  have allowed : ∀ call ∈ calls, Excursion.StepsOver call := by
    intro call member
    rcases List.mem_pair.mp member with rfl | rfl <;> exact stepsOver_stepOverRun
  rcases steps_over_calls calling (by decide) rfl with ⟨returns, boundary, arriving, -, forgets, -⟩
  rcases steps_over_calls oneLine (by decide) rfl with ⟨-, -, -, single, -, -⟩
  obtain ⟨isCall, target, reported, silent, ends, ended, completes, noCall⟩ :
      0 < Processor.callLength calling.cpu calling.board.memory.read ∧
        calling.pc + Processor.callLength calling.cpu calling.board.memory.read = 3 ∧
        ((calling.history calls)[3]?.any fun event =>
          event.completion? = some .breakpointReached) = true ∧
        (before.foldl Excursion.next {}).returned = false ∧
        ((calling.call stepOverRun).any fun (reason, arrived) =>
          reason = some .frameCompleted ∧ Processor.midInstruction arrived.cpu = false ∧
            arrived.debugger.returnAddress = some arrived.pc ∧ arrived.pc = 3) = true ∧
        (((calling.call stepOverRun).bind fun (_, arrived) =>
          arrived.call { budget := 9 }).any (·.1 = some .frameCompleted)) = true ∧
        (((oneLine.called stepOverRun).entered.executeInstruction stepOverRun.options).any
          fun (reason, after) =>
            reason = none ∧ Processor.midInstruction after.cpu = false) = true ∧
        Processor.callLength oneLine.cpu oneLine.board.memory.read = 0 := by
    decide +kernel
  refine ⟨?_, ?_, ?_⟩
  · rcases (Option.any_eq_true _ _).mp reported with ⟨event, found, completion⟩
    have split := split_of_getElem? found
    cases event with
    | executing _ => cases of_decide_eq_true completion
    | ended completion stopped =>
        cases of_decide_eq_true completion
        rcases returns isCall calls allowed _ _ _ split silent with ⟨-, -, there, idle⟩
        exact ⟨stopped, split, silent, there.trans target, idle⟩
  · rcases (Option.any_eq_true _ _).mp ends with ⟨⟨reason, arrived⟩, called, holds⟩
    rcases of_decide_eq_true holds with ⟨rfl, rests, pending, there⟩
    rw [called] at ended
    rcases (Option.any_eq_true _ _).mp ended with ⟨⟨reason, after⟩, ran, completed⟩
    cases of_decide_eq_true completed
    rcases arriving arrived stepOverRun stepsOver_stepOverRun rests pending rfl rfl (by decide)
      with ⟨stopped, history, -, -⟩
    rcases boundary arrived (arrived.request stepOverRun) {} rfl rests pending rfl
      (fun late => Nat.not_lt_zero _ late.1) with ⟨asked, -, stops⟩
    have undebugged : Undebugged { budget := 9 } := fun _ same => by cases same
    exact ⟨arrived, stopped, called, there ▸ pending, history, ⟨asked, stops⟩, after, ran,
      forgets arrived _ _ after undebugged ran⟩
  · rcases (Option.any_eq_true _ _).mp completes with ⟨⟨reason, last⟩, executed, holds⟩
    rcases of_decide_eq_true holds with ⟨rfl, complete⟩
    have instruction : Completes stepOverRun.options (oneLine.called stepOverRun).entered _ last :=
      .last executed complete
    exact ⟨last, instruction, (single noCall stepOverRun stepsOver_stepOverRun).1 _ last instruction
      (fun _ => rfl) (fun late => Nat.not_lt_zero _ late.1) (by decide)⟩

end Machine

end ZxSpectrum
