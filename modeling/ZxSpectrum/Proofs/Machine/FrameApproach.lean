import ZxSpectrum.Proofs.Machine.FrameHooks

namespace ZxSpectrum

/-! What a session has come to when its devices are told of a frame. A frame starts where a run
stands between two turns, which is what the run leaves if it is looked at for fewer turns. It is
complete once the instruction begun last has been executed. -/

section Logs

variable {Cpu κ ρ : Type}

def record (log : List (Moment Cpu κ ρ)) (moment : Moment Cpu κ ρ) : List (Moment Cpu κ ρ) :=
  log ++ [moment]

theorem foldl_record (log later : List (Moment Cpu κ ρ)) :
    later.foldl record log = log ++ later := by
  have joined : (later.map fun moment => [moment]).flatten = later := List.flatMap_singleton' later
  exact List.foldl_append_eq_append.trans (congrArg (log ++ ·) joined)

/-! Logs in which each frame suits what has been told before it. -/

def SuitsFrame (suits : List (Moment Cpu κ ρ) → FrameHook × Machine Cpu κ ρ → Prop)
    (log : List (Moment Cpu κ ρ)) (moment : Moment Cpu κ ρ) : Prop :=
  ∀ frame, moment.frame? = some frame → suits log frame

variable {suits : List (Moment Cpu κ ρ) → FrameHook × Machine Cpu κ ρ → Prop}
  {log later : List (Moment Cpu κ ρ)}

theorem suitsFrame_of_quiet (quiet : frames later = []) :
    Monitored record (SuitsFrame suits) log later := by
  induction later generalizing log with
  | nil => trivial
  | cons moment later induction =>
      rw [frames, List.filterMap_eq_nil_iff, List.forall_mem_cons] at quiet
      refine ⟨fun _ told => absurd (told.symm.trans quiet.1) (Option.some_ne_none _), ?_⟩
      exact induction (List.filterMap_eq_nil_iff.mpr quiet.2)

theorem suitsFrame_append (first : Monitored record (SuitsFrame suits) log later)
    {more : List (Moment Cpu κ ρ)}
    (rest : Monitored record (SuitsFrame suits) (log ++ later) more) :
    Monitored record (SuitsFrame suits) log (later ++ more) := by
  rw [monitored_append, foldl_record]
  exact ⟨first, rest⟩

end Logs

namespace Machine

variable {Cpu κ ρ : Type} [Processor Cpu] [Peripheral κ] [TapeProvider ρ]
  {suits : List (Moment Cpu κ ρ) → FrameHook × Machine Cpu κ ρ → Prop}
  {machine : Machine Cpu κ ρ} {request : RunRequest} {log : List (Moment Cpu κ ρ)}

/-! What suits the start of a frame and the instruction that finishes one suits the whole log of a
session. -/

def SuitsCompletion (suits : List (Moment Cpu κ ρ) → FrameHook × Machine Cpu κ ρ → Prop)
    (options : RunOptions) : Prop :=
  ∀ (log : List (Moment Cpu κ ρ)) (begun before : Machine Cpu κ ρ),
    begun.executeInstruction options = some (none, before) →
      suits (log ++ .executing begun :: begun.executeLog options)
        (.completeFrame before.completeFrame.overflow, before.completeFrame)

theorem advanceLog_suits (completes : SuitsCompletion suits request.options)
    (progress : RunProgress) :
    Monitored record (SuitsFrame suits) log (machine.advanceLog request progress) := by
  have begun : Monitored record (SuitsFrame suits) log [.executing machine] :=
    suitsFrame_of_quiet rfl
  have quiet : Monitored record (SuitsFrame suits) (log ++ [.executing machine])
      (machine.executeLog request.options) :=
    suitsFrame_of_quiet (machine.frames_executeLog request.options)
  rw [advanceLog]
  apply suitsFrame_append begun
  cases executed : machine.executeInstruction request.options with
  | none => trivial
  | some result =>
      rcases result with ⟨reason, after⟩
      cases reason with
      | some reason =>
          refine suitsFrame_append quiet (suitsFrame_of_quiet ?_)
          rw [stopLog]
          split <;> rfl
      | none =>
          apply suitsFrame_append quiet
          cases after.frameFinished with
          | false => trivial
          | true =>
              refine ⟨fun frame told => ?_, trivial⟩
              cases told
              rw [List.append_assoc]
              exact completes log machine after executed

theorem boundaryLog_suits (completes : SuitsCompletion suits request.options)
    (progress : RunProgress) :
    Monitored record (SuitsFrame suits) log (machine.boundaryLog request progress) := by
  have boundary : Monitored record (SuitsFrame suits) log [.boundary progress.executed machine] :=
    suitsFrame_of_quiet rfl
  rw [boundaryLog]
  split
  · exact advanceLog_suits completes progress
  · apply suitsFrame_append boundary
    rcases machine.stopReason request progress with ⟨_ | reason, asked⟩
    · exact advanceLog_suits completes progress
    · trivial

omit [TapeProvider ρ] in
theorem startFrameLog_suits (starts : suits log (.newFrame, machine.startFrame)) :
    Monitored record (SuitsFrame suits) log machine.startFrameLog := by
  refine ⟨fun frame told => ?_, suitsFrame_of_quiet (frames_drawnMoments _ _ _)⟩
  cases told
  exact starts

theorem turnLog_suits (starts : suits log (.newFrame, machine.startFrame))
    (completes : SuitsCompletion suits request.options) (progress : RunProgress) :
    Monitored record (SuitsFrame suits) log (machine.turnLog request progress) := by
  rw [turnLog]
  cases progress.betweenFrames with
  | false => exact boundaryLog_suits completes progress
  | true =>
      cases request.cancelled progress.polls with
      | true => trivial
      | false =>
          cases machine.frameFinished with
          | false => exact boundaryLog_suits completes _
          | true =>
              exact suitsFrame_append (startFrameLog_suits starts) (boundaryLog_suits completes _)

theorem turnsLog_suits (completes : SuitsCompletion suits request.options) {budget : Nat}
    {progress : RunProgress}
    (starts : ∀ fewer before, fewer < budget →
      turns request fewer progress machine = some (none, before) →
        suits (log ++ turnsLog request fewer progress machine) (.newFrame, before.startFrame)) :
    Monitored record (SuitsFrame suits) log (turnsLog request budget progress machine) := by
  induction budget generalizing log progress machine with
  | zero => trivial
  | succ budget induction =>
      have first := starts 0 machine budget.succ_pos rfl
      rw [turnsLog, List.append_nil] at first
      rw [turnsLog]
      refine suitsFrame_append (turnLog_suits first completes progress) ?_
      cases taken : machine.turn request progress with
      | none => trivial
      | some turn =>
          cases turn with
          | stop _ _ => trivial
          | goOn after next =>
              refine induction fun fewer before less left => ?_
              have later := starts (fewer + 1) before (Nat.succ_lt_succ less)
              rw [turns_succ, turnsLog, taken, ← List.append_assoc] at later
              exact later left

theorem session_singleton (machine : Machine Cpu κ ρ) (call : RunCall) :
    machine.session [call] = (machine.call call).map Prod.snd := by
  rw [session]
  cases machine.call call <;> rfl

theorem sessionLog_singleton (machine : Machine Cpu κ ρ) (call : RunCall) :
    machine.sessionLog [call] =
      (machine.withDebugger (call.edit machine.debugger)).runLog call.options call.cancelled
        call.budget := by
  rw [sessionLog]
  split <;> exact List.append_nil _

theorem sessionLog_suits {calls : List RunCall}
    (completes : ∀ call ∈ calls, SuitsCompletion suits call.options)
    (starts : ∀ earlier call later fewer before, calls = earlier ++ call :: later →
      fewer < call.budget →
      machine.session (earlier ++ [{ call with budget := fewer }]) = some before →
        suits (log ++ machine.sessionLog (earlier ++ [{ call with budget := fewer }]))
          (.newFrame, before.startFrame)) :
    Monitored record (SuitsFrame suits) log (machine.sessionLog calls) := by
  induction calls generalizing log machine with
  | nil => trivial
  | cons call calls induction =>
      rw [sessionLog]
      refine suitsFrame_append ?_ ?_
      · refine turnsLog_suits (completes call List.mem_cons_self) fun fewer before less left => ?_
        have first := starts [] call calls fewer before rfl less
        rw [List.nil_append, sessionLog_singleton, session_singleton, call_eq] at first
        exact first (congrArg (fun result => (result.map noted).map Prod.snd) left)
      · cases ran : machine.call call with
        | none => trivial
        | some result =>
            rcases result with ⟨completion, next⟩
            apply induction fun other member => completes other (List.mem_cons_of_mem _ member)
            intro earlier other later fewer before split less left
            subst split
            have suited := starts (call :: earlier) other later fewer before rfl less
            rw [List.cons_append, session, ran, sessionLog, ran, ← List.append_assoc] at suited
            exact suited left

/-- What a session has come to, with its log so far, when its devices are about to be told of a
frame. Before the start this is what the session leaves if it is not pursued any further, before
the completion it is what the instruction begun last leaves. -/
inductive ComesTo (machine : Machine Cpu κ ρ) (calls : List RunCall) :
    List (Moment Cpu κ ρ) → FrameHook → Machine Cpu κ ρ → Prop
  | starts {earlier call later fewer before} (cut : calls = earlier ++ call :: later)
    (less : fewer < call.budget)
    (left : machine.session (earlier ++ [{ call with budget := fewer }]) = some before) :
    ComesTo machine calls (machine.sessionLog (earlier ++ [{ call with budget := fewer }]))
      .newFrame before
  | completes {log call begun before overflow} (made : call ∈ calls)
    (executed : begun.executeInstruction call.options = some (none, before)) :
    ComesTo machine calls (log ++ .executing begun :: begun.executeLog call.options)
      (.completeFrame overflow) before

/-- The devices are told of a frame in the machine that the session has come to. -/
theorem session_comesTo {calls : List RunCall} {front rest : List (Moment Cpu κ ρ)}
    {moment : Moment Cpu κ ρ} (split : machine.sessionLog calls = front ++ moment :: rest)
    {hook : FrameHook} {after : Machine Cpu κ ρ} (told : moment.frame? = some (hook, after)) :
    ∃ before, machine.ComesTo calls front hook before ∧
      after = before.hooked after.board.frameSetting.devices hook := by
  let suits (log : List (Moment Cpu κ ρ)) (frame : FrameHook × Machine Cpu κ ρ) : Prop :=
    ∃ before, machine.ComesTo calls log frame.1 before ∧
      frame.2 = before.hooked frame.2.board.frameSetting.devices frame.1
  have completes : ∀ call ∈ calls, SuitsCompletion suits call.options := by
    intro call made log begun before executed
    have hooked := before.completeFrame_eq_hooked
    rw [← before.frameSetting_completeFrame] at hooked
    exact ⟨before, .completes made executed, hooked⟩
  have suited : Monitored record (SuitsFrame suits) [] (machine.sessionLog calls) := by
    refine sessionLog_suits completes fun earlier call later fewer before cut less left => ?_
    have hooked := before.startFrame_eq_hooked
    rw [← before.frameSetting_startFrame] at hooked
    exact ⟨before, .starts cut less left, hooked⟩
  rw [split] at suited
  have fits := suited.fits
  rw [foldl_record] at fits
  exact fits _ told

end Machine

end ZxSpectrum
