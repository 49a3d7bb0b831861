import ZxSpectrum.Proofs.Machine.Building
import ZxSpectrum.Proofs.Machine.Drawing

namespace ZxSpectrum

/-! The clock keeps ahead of what is drawn, and what is drawn keeps up with the clock once a run
has executed an instruction. -/

namespace Machine

variable {Cpu κ ρ : Type} [Processor Cpu]

def elapsed (machine : Machine Cpu κ ρ) : Nat :=
  (Processor.tacts machine.cpu - machine.board.frameStart) / machine.board.multiplier

theorem frameTact_eq (machine : Machine Cpu κ ρ) :
    machine.frameTact = machine.elapsed % UInt32.size :=
  rfl

/-! The account of frames. No more is carried into a frame, or drawn of it, than there is and than
has passed. -/

structure Carries (machine : Machine Cpu κ ρ) : Prop where
  multiplier_pos : 0 < machine.board.multiplier
  overflow_lt : machine.overflow < machine.frameTacts
  overflow_le : machine.overflow * machine.board.multiplier ≤ Processor.tacts machine.cpu

structure DrawsBehind (machine : Machine Cpu κ ρ) : Prop where
  nextDrawn_le : machine.nextDrawn ≤ machine.frameTacts
  nextDrawn_le_elapsed : machine.nextDrawn ≤ machine.elapsed

structure Accounted (machine : Machine Cpu κ ρ) : Prop where
  carries : machine.Carries
  drawsBehind : machine.frameFinished = false → machine.DrawsBehind

/-- All is drawn that is due, and no more unless the counter of frame tacts has wrapped. -/
def UpToDate (machine : Machine Cpu κ ρ) : Prop :=
  machine.drawBound ≤ machine.nextDrawn ∧
    (machine.elapsed < UInt32.size → machine.nextDrawn = machine.drawBound)

theorem frameTact_le_elapsed (machine : Machine Cpu κ ρ) : machine.frameTact ≤ machine.elapsed :=
  Nat.mod_le _ _

theorem drawBound_le_elapsed (machine : Machine Cpu κ ρ) : machine.drawBound ≤ machine.elapsed :=
  (min_le_left _ _).trans machine.frameTact_le_elapsed

theorem drawBound_eq {machine : Machine Cpu κ ρ} (small : machine.elapsed < UInt32.size) :
    machine.drawBound = min machine.elapsed machine.frameTacts := by
  rw [drawBound, frameTact_eq, Nat.mod_eq_of_lt small]

theorem SameFrame.elapsed_le {machine after : Machine Cpu κ ρ} (same : SameFrame machine after)
    (later : Processor.tacts machine.cpu ≤ Processor.tacts after.cpu) :
    machine.elapsed ≤ after.elapsed := by
  rw [elapsed, elapsed, same.frameStart, same.multiplier]
  exact Nat.div_le_div_right (Nat.sub_le_sub_right later _)

theorem SameFrame.carries {machine after : Machine Cpu κ ρ} (same : SameFrame machine after)
    (later : Processor.tacts machine.cpu ≤ Processor.tacts after.cpu) (carries : machine.Carries) :
    after.Carries where
  multiplier_pos := same.multiplier ▸ carries.multiplier_pos
  overflow_lt := by
    rw [same.overflow, same.frameTacts]
    exact carries.overflow_lt
  overflow_le := by
    rw [same.overflow, same.multiplier]
    exact carries.overflow_le.trans later

/-! What an instruction leaves of the account, up to its look at the clock. -/

structure Settled (stepped after : Machine Cpu κ ρ) : Prop extends SameFrame stepped after where
  tacts : Processor.tacts after.cpu = Processor.tacts stepped.cpu
  interrupt : after.interrupt = stepped.interrupt
  frameCount : after.frameCount = stepped.frameCount

theorem Settled.elapsed {stepped after : Machine Cpu κ ρ} (settled : Settled stepped after) :
    after.elapsed = stepped.elapsed := by
  rw [Machine.elapsed, Machine.elapsed, settled.tacts, settled.frameStart, settled.multiplier]

theorem Settled.frameTact {stepped after : Machine Cpu κ ρ} (settled : Settled stepped after) :
    after.frameTact = stepped.frameTact := by
  rw [frameTact_eq, frameTact_eq, settled.elapsed]

theorem settled_drawnBy (stepped : Machine Cpu κ ρ) (options : RunOptions) :
    Settled stepped (stepped.drawnBy options) := by
  refine ⟨sameFrame_drawnBy stepped options, ?_, ?_, ?_⟩ <;>
    (rw [drawnBy]
     split
     · rfl
     · rw [drawTo_eq])

def LooksAtClock (machine : Machine Cpu κ ρ) : Prop :=
  machine.frameFinished =
    (!Processor.midInstruction machine.cpu && machine.frameTacts ≤ machine.frameTact)

theorem LooksAtClock.inFrame {machine : Machine Cpu κ ρ} (looks : machine.LooksAtClock)
    (running : machine.frameFinished = false)
    (between : Processor.midInstruction machine.cpu = false) :
    machine.frameTact < machine.frameTacts := by
  have late := (running.symm.trans looks).symm
  rw [between] at late
  exact Nat.not_le.mp (of_decide_eq_false late)

theorem LooksAtClock.past {machine : Machine Cpu κ ρ} (looks : machine.LooksAtClock)
    (finished : machine.frameFinished = true) :
    Processor.midInstruction machine.cpu = false ∧ machine.frameTacts ≤ machine.frameTact := by
  have late := Bool.and_eq_true_iff.mp (finished.symm.trans looks).symm
  exact ⟨Bool.not_eq_eq_eq_not.mp late.1, of_decide_eq_true late.2⟩

/-- How the tacts drawn stand to those passed of the frame, at a place on a path that may have to
draw. -/
def KeepsUp (drawing : Prop) (standing : Standing Cpu κ ρ) : Prop :=
  standing.machine.Carries ∧
    (standing.stage ≠ .betweenFrames → standing.machine.DrawsBehind ∧
      (drawing → 0 < standing.executed → standing.machine.UpToDate))

theorem Accounted.keepsUp {machine : Machine Cpu κ ρ} (accounted : machine.Accounted)
    (drawing : Prop) : KeepsUp drawing (machine.standing 0) := by
  refine ⟨accounted.carries, fun inFrame => ⟨?_, fun _ ran => absurd ran (Nat.lt_irrefl 0)⟩⟩
  cases finished : machine.frameFinished with
  | true =>
      rw [standing_of_finished finished] at inFrame
      exact absurd rfl inFrame
  | false => exact accounted.drawsBehind finished

theorem KeepsUp.accounted {drawing : Prop} {machine : Machine Cpu κ ρ} {executed : Nat}
    (keepsUp : KeepsUp drawing (machine.standing executed)) : machine.Accounted := by
  refine ⟨keepsUp.1, fun running => (keepsUp.2 ?_).1⟩
  rw [standing_of_running running]
  exact nofun

variable [Peripheral κ]

/-! The account across the end of a frame. -/

theorem elapsed_startFrame {machine : Machine Cpu κ ρ} (carries : machine.Carries) :
    machine.startFrame.elapsed = machine.overflow := by
  have cpu : machine.startFrame.cpu = machine.cpu := rfl
  rw [elapsed, cpu, machine.frameStart_startFrame, machine.multiplier_startFrame,
    Nat.sub_sub_self carries.overflow_le]
  exact Nat.mul_div_cancel _ carries.multiplier_pos

theorem frameTact_startFrame_le {machine : Machine Cpu κ ρ} (carries : machine.Carries) :
    machine.startFrame.frameTact ≤ machine.overflow :=
  (frameTact_le_elapsed _).trans_eq (elapsed_startFrame carries)

theorem startFrame_keepsUp {machine : Machine Cpu κ ρ} (carries : machine.Carries) :
    machine.startFrame.Carries ∧ machine.startFrame.DrawsBehind ∧ machine.startFrame.UpToDate := by
  have frame := machine.frameTacts_startFrame
  have elapsed := elapsed_startFrame carries
  refine ⟨⟨?_, ?_, ?_⟩, ⟨?_, ?_⟩, ?_, fun small => ?_⟩
  · exact machine.multiplier_startFrame ▸ carries.multiplier_pos
  · exact carries.overflow_lt.trans_eq frame.symm
  · rw [machine.multiplier_startFrame]
    exact carries.overflow_le
  · exact (carries.overflow_lt.trans_eq frame.symm).le
  · exact elapsed.ge
  · exact (drawBound_le_elapsed _).trans_eq elapsed
  · rw [drawBound_eq small, elapsed, frame]
    exact (min_eq_left carries.overflow_lt.le).symm

theorem elapsed_completeFrame (machine : Machine Cpu κ ρ) :
    machine.completeFrame.elapsed = machine.elapsed := by
  rw [elapsed, elapsed, machine.frameStart_completeFrame, machine.multiplier_completeFrame]
  rfl

theorem frameTact_completeFrame (machine : Machine Cpu κ ρ) :
    machine.completeFrame.frameTact = machine.frameTact :=
  congrArg (· % UInt32.size) machine.elapsed_completeFrame

theorem completeFrame_carries {machine : Machine Cpu κ ρ}
    (multiplier_pos : 0 < machine.board.multiplier) : machine.completeFrame.Carries := by
  have multiplier := machine.multiplier_completeFrame
  have overflow : machine.completeFrame.overflow = machine.frameTact % machine.frameTacts := rfl
  refine ⟨multiplier ▸ multiplier_pos, ?_, ?_⟩
  · rw [overflow, machine.frameTacts_completeFrame]
    exact Nat.mod_lt _ machine.board.timing.raster.frameTacts_pos
  · rw [overflow, multiplier]
    calc machine.frameTact % machine.frameTacts * machine.board.multiplier
        ≤ machine.elapsed * machine.board.multiplier :=
          Nat.mul_le_mul_right _ ((Nat.mod_le _ _).trans machine.frameTact_le_elapsed)
      _ ≤ Processor.tacts machine.cpu - machine.board.frameStart := Nat.div_mul_le_self _ _
      _ ≤ Processor.tacts machine.cpu := Nat.sub_le _ _

variable [TapeProvider ρ]

/-! Every instruction keeps the account, and so does every step of a path. -/

omit [Peripheral κ] in
theorem interrupt_followTape {machine followed : Machine Cpu κ ρ} {fast : Bool}
    (tape : machine.followTape fast = some followed) : followed.interrupt = machine.interrupt := by
  rcases Option.bind_eq_some_iff.mp tape with ⟨⟨deck, registers, memory⟩, -, rest⟩
  cases rest
  rfl

section Laws

variable [LawfulProcessor Cpu]

theorem Executed.settled {machine after : Machine Cpu κ ρ}
    {options : RunOptions} {reason : Option Completion} (executed : Executed machine options reason after) :
    ∃ fault stepped, machine.cycle = some (fault, stepped) ∧ Settled stepped after ∧
      (reason = none → fault = none ∧ after.LooksAtClock) := by
  cases executed with
  | @faulted stepped fault cycled =>
      exact ⟨some fault, stepped, cycled, ⟨⟨rfl, rfl, rfl, rfl⟩, rfl, rfl, rfl⟩,
        fun impossible => nomatch impossible⟩
  | @halted stepped cycled _ =>
      exact ⟨none, stepped, cycled, settled_drawnBy stepped options,
        fun impossible => nomatch impossible⟩
  | @completed stepped followed cycled tape =>
      have drawn := settled_drawnBy stepped options
      have account := account_followTape tape
      have settled : Settled stepped followed :=
        { drawn.toSameFrame.trans (.of_account account) with
          tacts := (tacts_followTape tape).trans drawn.tacts
          interrupt := (interrupt_followTape tape).trans drawn.interrupt
          frameCount := (congrArg Account.frameCount account).trans drawn.frameCount }
      refine ⟨none, stepped, cycled, { settled with }, fun _ => ⟨rfl, ?_⟩⟩
      rw [← settled.frameTact]
      rfl

variable [MonotonicProcessor Cpu]

theorem Executed.keepsUp {machine after : Machine Cpu κ ρ} {options : RunOptions}
    {reason : Option Completion} (executed : Executed machine options reason after)
    (carries : machine.Carries) (behind : machine.DrawsBehind) :
    after.Carries ∧ after.DrawsBehind ∧
      (options.withoutDrawing = false → reason ≠ some .faulted → after.UpToDate) := by
  rcases executed.settled with ⟨fault, stepped, cycled, settled, -⟩
  have later := (tacts_le_cycle cycled).trans_eq settled.tacts.symm
  have frame := executed.sameFrame
  have elapsed := frame.elapsed_le later
  refine ⟨frame.carries later carries, ?_⟩
  have still (next : after.nextDrawn = machine.nextDrawn) : after.DrawsBehind := by
    constructor
    · rw [next, frame.frameTacts]
      exact behind.nextDrawn_le
    · rw [next]
      exact behind.nextDrawn_le_elapsed.trans elapsed
  cases drawing : options.withoutDrawing with
  | true => exact ⟨still (executed.nextDrawn_eq drawing), nofun⟩
  | false =>
      rcases executed.drawn drawing with ⟨fault, -, next⟩ | ⟨_, again, -, next, -⟩
      · exact ⟨still next, fun _ sound => absurd fault sound⟩
      · cases cycled.symm.trans again
        have bound : after.drawBound = stepped.drawBound := by
          rw [drawBound, drawBound, settled.frameTact, settled.frameTacts]
        rw [← bound] at next
        refine ⟨⟨?_, ?_⟩, fun _ _ => ⟨?_, fun small => ?_⟩⟩
        · rw [next, frame.frameTacts]
          refine max_le behind.nextDrawn_le ?_
          rw [← frame.frameTacts]
          exact min_le_right _ _
        · rw [next]
          exact max_le (behind.nextDrawn_le_elapsed.trans elapsed) after.drawBound_le_elapsed
        · rw [next]
          exact le_max_right _ _
        · rw [next]
          apply max_eq_right
          rw [drawBound_eq small, frame.frameTacts]
          exact le_min (behind.nextDrawn_le_elapsed.trans elapsed) behind.nextDrawn_le

variable {permitted : RunOptions → Prop} {drawing : Prop}

theorem Step.keepsUp
    (draws : drawing → ∀ options, permitted options → options.withoutDrawing = false)
    {first last : Standing Cpu κ ρ} {log : List (Moment Cpu κ ρ)}
    (step : Step permitted first log last) (keepsUp : KeepsUp drawing first) :
    KeepsUp drawing last := by
  rcases keepsUp with ⟨carries, drawn⟩
  cases step with
  | note debugger completion =>
      exact ⟨⟨carries.1, carries.2, carries.3⟩,
        fun inFrame => ⟨⟨(drawn inFrame).1.1, (drawn inFrame).1.2⟩, (drawn inFrame).2⟩⟩
  | call allowed =>
      exact ⟨⟨carries.1, carries.2, carries.3⟩,
        fun inFrame => ⟨⟨(drawn inFrame).1.1, (drawn inFrame).1.2⟩, nofun⟩⟩
  | startFrame =>
      rcases startFrame_keepsUp carries with ⟨carries, behind, upToDate⟩
      exact ⟨carries, fun _ => ⟨behind, fun _ _ => upToDate⟩⟩
  | boundary between => exact ⟨carries, drawn⟩
  | start => exact ⟨carries, fun _ => drawn nofun⟩
  | stop allowed stopped =>
      rcases (executed_of_executeInstruction stopped).keepsUp carries (drawn nofun).1
        with ⟨carries, behind, upToDate⟩
      refine ⟨carries, fun _ => ⟨behind, fun draw ran => upToDate (draws draw _ allowed) ?_⟩⟩
      rintro ⟨⟩
      exact absurd ran (Nat.lt_irrefl 0)
  | goOn allowed completed =>
      rcases (executed_of_executeInstruction completed).keepsUp carries (drawn nofun).1
        with ⟨carries, behind, upToDate⟩
      exact ⟨carries, fun _ => ⟨behind, fun draw _ => upToDate (draws draw _ allowed) nofun⟩⟩
  | completeFrame => exact ⟨completeFrame_carries carries.multiplier_pos, fun inFrame => absurd rfl inFrame⟩

theorem Path.keepsUp
    (draws : drawing → ∀ options, permitted options → options.withoutDrawing = false)
    {first last : Standing Cpu κ ρ} {log : List (Moment Cpu κ ρ)}
    (path : Path permitted first log last) (keepsUp : KeepsUp drawing first) :
    KeepsUp drawing last := by
  induction path with
  | nil => exact keepsUp
  | cons step _ induction => exact induction (step.keepsUp draws keepsUp)

theorem Path.upToDate
    (draws : ∀ options, permitted options → options.withoutDrawing = false)
    {first last : Standing Cpu κ ρ} {log : List (Moment Cpu κ ρ)}
    (path : Path permitted first log last) (keepsUp : KeepsUp True first) {executed : Nat}
    {machine : Machine Cpu κ ρ} (member : .boundary executed machine ∈ log)
    (ran : 0 < executed) : machine.UpToDate := by
  induction path with
  | nil => exact nomatch member
  | cons step _ induction =>
      rcases List.mem_append.mp member with member | member
      · cases step.of_boundary_mem member
        exact (keepsUp.2 nofun).2 trivial ran
      · exact induction (step.keepsUp (fun _ => draws) keepsUp) member

/-! From power-on, whatever the host asks for, the account stays consistent. -/

theorem session_accounted {machine after : Machine Cpu κ ρ} (accounted : machine.Accounted)
    {calls : List RunCall} (ended : machine.session calls = some after) : after.Accounted := by
  let permitted (_ : RunOptions) : Prop := True
  have allowed : ∀ call ∈ calls, permitted call.options := fun _ _ => trivial
  rcases session_follows allowed machine 0 with ⟨last, path, ends⟩
  rcases ends after ended with ⟨executed, rfl⟩
  exact (path.keepsUp False.elim (accounted.keepsUp False)).accounted

end Laws

omit [TapeProvider ρ] in
theorem PoweredOn.carries {machine : Machine Cpu κ ρ} (poweredOn : machine.PoweredOn) :
    machine.Carries := by
  refine ⟨poweredOn.multiplier_pos, ?_, ?_⟩
  · rw [poweredOn.overflow]
    exact machine.board.timing.raster.frameTacts_pos
  · rw [poweredOn.overflow, Nat.zero_mul]
    exact Nat.zero_le _

omit [TapeProvider ρ] in
theorem PoweredOn.accounted {machine : Machine Cpu κ ρ} (poweredOn : machine.PoweredOn) :
    machine.Accounted :=
  ⟨poweredOn.carries, fun running =>
    absurd (poweredOn.frameFinished.symm.trans running) Bool.noConfusion⟩

end Machine

end ZxSpectrum
