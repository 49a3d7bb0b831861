import ZxSpectrum.Proofs.Machine.FrameEnd

namespace ZxSpectrum

/-! Sessions in which every instruction takes no more than so many machine tacts. An instruction
that the processor executes in several steps is finished with the last of them, and only then the
frame can be. So no frame runs longer past its end than an instruction takes. -/

theorem Board.passed_le_add {κ ρ : Type} {board : Board κ ρ}
    (multiplier_pos : 0 < board.multiplier) {first last limit : Nat}
    (soon : last ≤ first + limit * board.multiplier) :
    (last - board.frameStart) / board.multiplier ≤
      (first - board.frameStart) / board.multiplier + limit := by
  calc (last - board.frameStart) / board.multiplier
      ≤ (first - board.frameStart + limit * board.multiplier) / board.multiplier := by
        refine Nat.div_le_div_right ?_
        omega
    _ = (first - board.frameStart) / board.multiplier + limit :=
        Nat.add_mul_div_right _ _ multiplier_pos

theorem Board.frameTact_le_add {κ ρ : Type} {board : Board κ ρ}
    (multiplier_pos : 0 < board.multiplier) {first last limit : Nat} (later : first ≤ last)
    (soon : last ≤ first + limit * board.multiplier) :
    board.frameTact last ≤ board.frameTact first + limit := by
  let elapsed (tact : Nat) : Nat := (tact - board.frameStart) / board.multiplier
  have monotone : elapsed first ≤ elapsed last :=
    Nat.div_le_div_right (Nat.sub_le_sub_right later _)
  have bound : elapsed last ≤ elapsed first + limit := passed_le_add multiplier_pos soon
  -- The counter may wrap in between, which only makes it smaller.
  obtain ⟨passed, total⟩ := Nat.exists_eq_add_of_le monotone
  calc elapsed last % UInt32.size
      = (elapsed first % UInt32.size + passed) % UInt32.size := by rw [total, Nat.mod_add_mod]
    _ ≤ elapsed first % UInt32.size + passed := Nat.mod_le _ _
    _ ≤ elapsed first % UInt32.size + limit := by omega

namespace Machine

variable {Cpu κ ρ : Type} [Processor Cpu]

/-! Where the latest instruction has been begun, maybe by an earlier step of the processor. -/

def instructionStart (begun : Option Nat) (machine : Machine Cpu κ ρ) : Nat :=
  if Processor.midInstruction machine.cpu then begun.getD (Processor.tacts machine.cpu)
  else Processor.tacts machine.cpu

def latestStart (begun : Option Nat) (machine : Machine Cpu κ ρ) : Option Nat :=
  some (machine.instructionStart begun)

theorem instructionStart_of_between {machine : Machine Cpu κ ρ}
    (between : Processor.midInstruction machine.cpu = false) (begun : Option Nat) :
    machine.instructionStart begun = Processor.tacts machine.cpu := by
  rw [instructionStart, between]
  rfl

variable [Peripheral κ] [TapeProvider ρ]

/-- The next step of the processor meets no fault, and takes its instruction no further than so
many machine tacts from its beginning. -/
def KeepsPace (limit : Nat) (begun : Option Nat) (machine : Machine Cpu κ ρ) : Prop :=
  ∀ result ∈ machine.cycle, result.1 = none ∧
    Processor.tacts result.2.cpu ≤
      machine.instructionStart begun + limit * machine.board.multiplier

instance (limit : Nat) (begun : Option Nat) (machine : Machine Cpu κ ρ) :
    Decidable (machine.KeepsPace limit begun) :=
  inferInstanceAs (Decidable (∀ result ∈ machine.cycle, _))

def Paced (limit : Nat) (begun : Option Nat) (machines : List (Machine Cpu κ ρ)) : Prop :=
  Monitored latestStart (KeepsPace limit) begun machines

instance (limit : Nat) (begun : Option Nat) (machines : List (Machine Cpu κ ρ)) :
    Decidable (Paced limit begun machines) :=
  Monitored.decidable _ _ _ _

end Machine

/-- A frame that is started begins with less than so many tacts, and one that is completed has run
past its end by less than a frame. -/
def Moment.OnTime {Cpu κ ρ : Type} [Processor Cpu] (limit : Nat) : Moment Cpu κ ρ → Prop
  | .frameStarted machine => machine.frameTact < limit
  | .frameCompleted machine =>
    machine.frameTacts ≤ machine.frameTact ∧ machine.frameTact < 2 * machine.frameTacts
  | _ => True

namespace Machine

variable {Cpu κ ρ : Type} [Processor Cpu]

/-! A session that keeps pace, step by step. -/

structure BegunInFrame (machine : Machine Cpu κ ρ) (start : Nat) : Prop where
  start_le : start ≤ Processor.tacts machine.cpu
  within : machine.board.frameTact start < machine.frameTacts

variable [Peripheral κ] [TapeProvider ρ]

def OnPace (limit : Nat) (begun : Option Nat) (standing : Standing Cpu κ ρ) : Prop :=
  let machine := standing.machine
  0 < machine.board.multiplier ∧
    match standing.stage with
    | .betweenFrames =>
      machine.Carries ∧ machine.overflow < limit ∧
        machine.instructionStart begun = Processor.tacts machine.cpu
    | .inFrame => machine.BegunInFrame (machine.instructionStart begun)
    | .begun =>
      ∃ start ∈ begun, machine.BegunInFrame start ∧
        ∀ result ∈ machine.cycle, result.1 = none ∧
          Processor.tacts result.2.cpu ≤ start + limit * machine.board.multiplier
    | .overrun =>
      Processor.midInstruction machine.cpu = false ∧ machine.frameTacts ≤ machine.frameTact ∧
        machine.frameTact < machine.frameTacts + limit

theorem BegunInFrame.executed [LawfulProcessor Cpu] [MonotonicProcessor Cpu]
    {machine after : Machine Cpu κ ρ} {options : RunOptions} {start limit : Nat}
    (executed : Executed machine options none after)
    (multiplier_pos : 0 < machine.board.multiplier) (begun : machine.BegunInFrame start)
    (soon : ∀ result ∈ machine.cycle, result.1 = none ∧
      Processor.tacts result.2.cpu ≤ start + limit * machine.board.multiplier) :
    after.BegunInFrame start ∧ after.frameTact < after.frameTacts + limit ∧ after.LooksAtClock := by
  rcases executed.settled with ⟨fault, stepped, cycled, settled, looks⟩
  have frame := executed.sameFrame
  have later : start ≤ Processor.tacts after.cpu := by
    rw [settled.tacts]
    exact begun.start_le.trans (tacts_le_cycle cycled)
  have within : after.board.frameTact start < after.frameTacts := by
    rw [Board.frameTact, frame.frameStart, frame.multiplier, frame.frameTacts]
    exact begun.within
  have bound : Processor.tacts after.cpu ≤ start + limit * after.board.multiplier := by
    rw [settled.tacts, frame.multiplier]
    exact (soon _ cycled).2
  have near : after.frameTact ≤ after.board.frameTact start + limit :=
    Board.frameTact_le_add (frame.multiplier ▸ multiplier_pos) later bound
  exact ⟨⟨later, within⟩, near.trans_lt (Nat.add_lt_add_right within limit), (looks rfl).2⟩

variable {permitted : RunOptions → Prop} {limit : Nat} {begun : Option Nat}
  {first last : Standing Cpu κ ρ} {log : List (Moment Cpu κ ρ)}

omit [TapeProvider ρ] in
theorem overflow_completeFrame {machine : Machine Cpu κ ρ}
    (past : machine.frameTacts ≤ machine.frameTact)
    (near : machine.frameTact < 2 * machine.frameTacts) :
    machine.completeFrame.overflow = machine.frameTact - machine.frameTacts := by
  have overflow : machine.completeFrame.overflow = machine.frameTact % machine.frameTacts := rfl
  rw [overflow, Nat.mod_eq_sub_mod past, Nat.mod_eq_of_lt]
  omega

theorem Step.frameTacts_eq (step : Step permitted first log last) :
    last.machine.frameTacts = first.machine.frameTacts := by
  cases step with
  | note _ _ => rfl
  | call _ => rfl
  | startFrame => exact frameTacts_startFrame _
  | boundary _ => rfl
  | start => rfl
  | stop _ stopped => exact (executed_of_executeInstruction stopped).sameFrame.frameTacts
  | goOn _ completed => exact (executed_of_executeInstruction completed).sameFrame.frameTacts
  | completeFrame => exact frameTacts_completeFrame _

theorem not_stopped {machine after : Machine Cpu κ ρ} {options : RunOptions} {reason : Completion}
    (stopped : machine.executeInstruction options = some (some reason, after))
    (sound : ∀ result ∈ machine.cycle, result.1 = none) : options.mode = .untilHalt := by
  cases executed_of_executeInstruction stopped with
  | faulted cycled => exact nomatch sound _ cycled
  | halted _ waits => exact waits

variable [LawfulProcessor Cpu] [MonotonicProcessor Cpu]

theorem Step.onPace (noHalt : ∀ options, permitted options → options.mode ≠ .untilHalt)
    (short : limit ≤ first.machine.frameTacts)
    (step : Step permitted first log last) (onPace : OnPace limit begun first)
    (paced : Paced limit begun (executings log)) :
    OnPace limit ((executings log).foldl latestStart begun) last := by
  rcases onPace with ⟨multiplier_pos, stands⟩
  cases step with
  | @note stage _ _ _ _ resting | @call stage _ _ _ _ resting =>
      cases stage with
      | betweenFrames => exact ⟨multiplier_pos, ⟨stands.1.1, stands.1.2, stands.1.3⟩, stands.2⟩
      | inFrame => exact ⟨multiplier_pos, stands.1, stands.2⟩
      | begun => exact absurd rfl resting
      | overrun => exact ⟨multiplier_pos, stands⟩
  | @startFrame _ machine =>
      rcases stands with ⟨carries, overflow, start⟩
      rw [executings_startFrameLog]
      refine ⟨machine.multiplier_startFrame ▸ multiplier_pos, ?_⟩
      have same : machine.startFrame.instructionStart begun = Processor.tacts machine.cpu := start
      rw [List.foldl_nil]
      refine ⟨same.le, ?_⟩
      rw [same, machine.frameTacts_startFrame]
      exact (frameTact_startFrame_le carries).trans_lt carries.overflow_lt
  | boundary between => exact ⟨multiplier_pos, stands⟩
  | @start _ machine =>
      exact ⟨multiplier_pos, machine.instructionStart begun, rfl, stands, paced.1⟩
  | stop allowed stopped =>
      rcases stands with ⟨start, -, -, soon⟩
      exact absurd (not_stopped stopped fun result cycled => (soon result cycled).1)
        (noHalt _ allowed)
  | @goOn _ machine options after allowed completed =>
      rcases stands with ⟨start, rfl, within, soon⟩
      have executed := executed_of_executeInstruction completed
      rcases within.executed executed multiplier_pos soon with ⟨within, near, looks⟩
      have positive : 0 < after.board.multiplier := executed.sameFrame.multiplier ▸ multiplier_pos
      rw [executings_executeLog]
      cases finished : after.frameFinished with
      | true =>
          rcases looks.past finished with ⟨between, past⟩
          exact ⟨positive, between, past, near⟩
      | false =>
          -- Within an instruction its start remains, between two it is the present tact.
          refine ⟨positive, ?_⟩
          cases between : Processor.midInstruction after.cpu with
          | true =>
              have same : after.instructionStart (some start) = start := by
                rw [instructionStart, between]
                rfl
              exact same.symm ▸ within
          | false =>
              have same := instructionStart_of_between between (some start)
              exact ⟨same.le, same.symm ▸ looks.inFrame finished between⟩
  | @completeFrame _ machine =>
      rcases stands with ⟨between, past, near⟩
      refine ⟨machine.multiplier_completeFrame ▸ multiplier_pos,
        completeFrame_carries multiplier_pos, ?_, instructionStart_of_between between _⟩
      have short : limit ≤ machine.frameTacts := short
      rw [overflow_completeFrame past (by omega)]
      omega

omit [LawfulProcessor Cpu] [MonotonicProcessor Cpu] in
theorem Step.onTime (short : limit ≤ first.machine.frameTacts)
    (step : Step permitted first log last) (onPace : OnPace limit begun first) :
    ∀ moment ∈ log, moment.OnTime limit := by
  rcases onPace with ⟨-, stands⟩
  have drawn {drawn : List (Moment Cpu κ ρ)} (all : ∀ moment ∈ drawn, ∃ tact border flash memory,
      moment = .drawn tact border flash memory) : ∀ moment ∈ drawn, moment.OnTime limit := by
    intro moment member
    rcases all moment member with ⟨_, _, _, _, rfl⟩
    exact trivial
  cases step with
  | note _ _ => exact List.forall_mem_nil _
  | call _ => exact List.forall_mem_nil _
  | startFrame =>
      rcases stands with ⟨carries, overflow, -⟩
      refine List.forall_mem_cons.mpr ⟨(frameTact_startFrame_le carries).trans_lt overflow, ?_⟩
      exact drawn fun _ => Board.drawn_of_mem_drawnMoments
  | boundary _ => exact List.forall_mem_singleton.mpr trivial
  | start => exact List.forall_mem_singleton.mpr trivial
  | stop _ _ => exact drawn fun _ => drawn_of_mem_executeLog
  | goOn _ _ => exact drawn fun _ => drawn_of_mem_executeLog
  | @completeFrame _ machine =>
      refine List.forall_mem_singleton.mpr ?_
      rw [Moment.OnTime, machine.frameTact_completeFrame, machine.frameTacts_completeFrame]
      have short : limit ≤ machine.frameTacts := short
      have near : machine.frameTact < machine.frameTacts + limit := stands.2.2
      exact ⟨stands.2.1, by omega⟩

theorem Path.onTime (noHalt : ∀ options, permitted options → options.mode ≠ .untilHalt)
    (short : limit ≤ first.machine.frameTacts) (path : Path permitted first log last)
    (onPace : OnPace limit begun first) (paced : Paced limit begun (executings log)) :
    ∀ moment ∈ log, moment.OnTime limit := by
  induction path generalizing begun with
  | nil => exact List.forall_mem_nil _
  | cons step _ induction =>
      rw [executings_append] at paced
      rcases monitored_append.mp paced with ⟨now, later⟩
      refine List.forall_mem_append.mpr ⟨step.onTime short onPace, ?_⟩
      exact induction (step.frameTacts_eq.symm ▸ short) (step.onPace noHalt short onPace now) later

/-- From power-on, frames end and start on time where every instruction keeps pace. -/
theorem session_onTime {machine : Machine Cpu κ ρ} (poweredOn : machine.PoweredOn)
    (positive : 0 < limit) (short : limit ≤ machine.frameTacts) {calls : List RunCall}
    (noHalt : ∀ call ∈ calls, call.options.mode ≠ .untilHalt)
    (paced : Paced limit none (executings (machine.sessionLog calls))) :
    ∀ moment ∈ machine.sessionLog calls, moment.OnTime limit := by
  let permitted (options : RunOptions) : Prop := options.mode ≠ .untilHalt
  have allowed : ∀ call ∈ calls, permitted call.options := noHalt
  rcases session_follows allowed machine 0 with ⟨last, path, -⟩
  have onPace : OnPace limit none (machine.standing 0) := by
    rw [standing_of_finished poweredOn.frameFinished]
    refine ⟨poweredOn.multiplier_pos, poweredOn.carries, ?_, ite_self _⟩
    exact poweredOn.overflow.trans_lt positive
  have modes : ∀ options, permitted options → options.mode ≠ .untilHalt := fun _ mode => mode
  have short : limit ≤ (machine.standing 0).machine.frameTacts := short
  have onTime := path.onTime modes short onPace paced
  exact onTime

end Machine

end ZxSpectrum
