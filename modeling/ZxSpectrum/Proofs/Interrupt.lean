import ZxSpectrum.Machine.Basic
import ZxSpectrum.Proofs.Processor.Monotonic

namespace ZxSpectrum

/-! The polls of a frame. Two latches and the tact decide each of them, and yet what a poll does to
the interrupt line can be told from the polls before it: which tacts they had, and whether one of
them has asserted the line. -/

namespace Signals

variable (signals : Signals)

theorem remove_insert :
    (signals.insert .interrupt).remove .interrupt = signals.remove .interrupt := by
  have removed : (signals.bits ||| 0x01) &&& ~~~0x01 = signals.bits &&& ~~~0x01 := by
    apply UInt8.toBitVec_inj.mp
    simp [BitVec.and_or_distrib_right]
  exact congrArg Signals.mk removed

theorem remove_remove :
    (signals.remove .interrupt).remove .interrupt = signals.remove .interrupt := by
  rw [remove, remove, UInt8.and_assoc, UInt8.and_self]

end Signals

namespace Interrupt

/-! What a poll does, with all that leads there. -/

inductive Answers (interrupt : Interrupt) (blocked : Bool) (tact : Nat) :
    Interrupt → LineChange → Prop
  | closed (quiet : interrupt.revoked = true ∨ tact < interrupt.tact) :
    Answers interrupt blocked tact interrupt .keep
  | released (unrevoked : interrupt.revoked = false)
    (late : interrupt.tact + longestInstruction < tact) :
    Answers interrupt blocked tact { interrupt with revoked := true } .release
  | held (unrevoked : interrupt.revoked = false) (opened : interrupt.tact ≤ tact)
    (early : tact ≤ interrupt.tact + longestInstruction)
    (unready : interrupt.raised = true ∨ blocked = true) :
    Answers interrupt blocked tact interrupt .keep
  | asserted (unrevoked : interrupt.revoked = false) (opened : interrupt.tact ≤ tact)
    (early : tact ≤ interrupt.tact + longestInstruction)
    (first : interrupt.raised = false) (ready : blocked = false) :
    Answers interrupt blocked tact
      { interrupt with raised := true, count := interrupt.count + 1 } .assert

variable {interrupt after : Interrupt} {blocked : Bool} {tact : Nat} {change : LineChange}

theorem answers_of_poll (polls : interrupt.poll blocked tact = some (after, change)) :
    interrupt.Answers blocked tact after change := by
  rw [poll] at polls
  split at polls
  · next quiet =>
      cases polls
      exact .closed quiet
  · next opened =>
      rcases Option.bind_eq_some_iff.mp polls with ⟨last, word, rest⟩
      rcases Bound.word_eq_some_iff.mp word with ⟨-, rfl⟩
      rw [not_or, Bool.not_eq_true, Nat.not_lt] at opened
      split_ifs at rest with late unready
      · cases rest
        exact .released opened.1 late
      · cases rest
        exact .held opened.1 opened.2 (Nat.not_lt.mp late) unready
      · cases rest
        rw [not_or, Bool.not_eq_true, Bool.not_eq_true] at unready
        exact .asserted opened.1 opened.2 (Nat.not_lt.mp late) unready.1 unready.2

theorem exists_poll (fits : interrupt.tact + longestInstruction < UInt32.size) (blocked : Bool)
    (tact : Nat) : ∃ after change, interrupt.poll blocked tact = some (after, change) := by
  unfold poll
  split
  · exact ⟨_, _, rfl⟩
  · simp only [Bound.word, if_pos fits, Option.bind_eq_bind, Option.bind_some]
    split_ifs <;> exact ⟨_, _, rfl⟩

/-! A frame from poll to poll. The host and the processor may change everything about the processor
in between. -/

structure Visit (Cpu : Type) where
  cpu : Cpu
  tact : Nat

variable {Cpu : Type}

/-- The window after some visits since the start of a frame. The latches say what the visits have
done to the line, and whether one of them came after the window. -/
structure Visited (start : Interrupt) (visits : List (Visit Cpu)) (changes : List LineChange)
    (now : Interrupt) : Prop where
  tact_eq : now.tact = start.tact
  length_eq : changes.length = visits.length
  raised_iff : now.raised = true ↔ .assert ∈ changes
  revoked_iff : now.revoked = true ↔
    ∃ visit ∈ visits, start.tact + longestInstruction < visit.tact

namespace Visited

variable {start now : Interrupt} {visits : List (Visit Cpu)} {changes : List LineChange}
  {visit : Visit Cpu}

theorem newFrame (interrupt : Interrupt) :
    Visited interrupt ([] : List (Visit Cpu)) [] interrupt.newFrame where
  tact_eq := rfl
  length_eq := rfl
  raised_iff := by simp [Interrupt.newFrame]
  revoked_iff := by simp [Interrupt.newFrame]

theorem revoked_eq_false_iff (visited : Visited start visits changes now) :
    now.revoked = false ↔ ∀ other ∈ visits, other.tact ≤ start.tact + longestInstruction := by
  rw [← Bool.not_eq_true, visited.revoked_iff]
  simp

theorem concat (visited : Visited start visits changes now)
    (answers : now.Answers blocked visit.tact after change) :
    Visited start (visits ++ [visit]) (changes ++ [change]) after := by
  have length : (changes ++ [change]).length = (visits ++ [visit]).length := by
    simp [visited.length_eq]
  -- The visit is late exactly if the window is found closed behind it.
  have late : (∃ other ∈ visits ++ [visit], start.tact + longestInstruction < other.tact) ↔
      now.revoked = true ∨ now.tact + longestInstruction < visit.tact := by
    rw [visited.revoked_iff, visited.tact_eq]
    simp [or_and_right, exists_or]
  refine ⟨?_, length, ?_, ?_⟩
  · cases answers <;> exact visited.tact_eq
  · cases answers <;> simp [visited.raised_iff]
  · rw [late]
    cases answers with
    | closed quiet =>
        refine (or_iff_left_of_imp fun late => ?_).symm
        exact quiet.resolve_right (by omega)
    | released _ late => simp [late]
    | held _ _ early _ => simp [Nat.not_lt.mpr early]
    | asserted _ _ early _ _ => simp [Nat.not_lt.mpr early]

/-! Whether a poll asserts or releases the line, by the visits before it. -/

theorem eq_assert_iff (visited : Visited start visits changes now)
    (answers : now.Answers blocked visit.tact after change) :
    change = .assert ↔ start.tact ≤ visit.tact ∧ visit.tact ≤ start.tact + longestInstruction ∧
      blocked = false ∧ .assert ∉ changes ∧
      ∀ other ∈ visits, other.tact ≤ start.tact + longestInstruction := by
  rw [← visited.revoked_eq_false_iff, ← visited.raised_iff, ← visited.tact_eq]
  cases answers with
  | closed quiet =>
      refine iff_of_false (by decide) fun ⟨opened, _, _, _, unrevoked⟩ => ?_
      rcases quiet with revoked | before
      · exact absurd (unrevoked.symm.trans revoked) Bool.false_ne_true
      · exact absurd before (Nat.not_lt.mpr opened)
  | released _ late =>
      exact iff_of_false (by decide) fun ⟨_, early, _⟩ => absurd late (Nat.not_lt.mpr early)
  | held _ _ _ unready =>
      refine iff_of_false (by decide) fun ⟨_, _, ready, first, _⟩ => ?_
      rcases unready with raised | blocked
      · exact first raised
      · exact absurd (ready.symm.trans blocked) Bool.false_ne_true
  | asserted unrevoked opened early first ready =>
      exact iff_of_true rfl ⟨opened, early, ready, Bool.eq_false_iff.mp first, unrevoked⟩

theorem eq_release_iff (visited : Visited start visits changes now)
    (answers : now.Answers blocked visit.tact after change) :
    change = .release ↔ start.tact + longestInstruction < visit.tact ∧
      ∀ other ∈ visits, other.tact ≤ start.tact + longestInstruction := by
  rw [← visited.revoked_eq_false_iff, ← visited.tact_eq]
  cases answers with
  | closed quiet =>
      refine iff_of_false (by decide) fun ⟨late, unrevoked⟩ => ?_
      rcases quiet with revoked | before
      · exact absurd (unrevoked.symm.trans revoked) Bool.false_ne_true
      · omega
  | released unrevoked late => exact iff_of_true rfl ⟨late, unrevoked⟩
  | held _ _ early _ =>
      exact iff_of_false (by decide) fun ⟨late, _⟩ => absurd late (Nat.not_lt.mpr early)
  | asserted _ _ early _ _ =>
      exact iff_of_false (by decide) fun ⟨late, _⟩ => absurd late (Nat.not_lt.mpr early)

end Visited

variable [Processor Cpu]

/-! Visit after visit, with the signals of the processor. -/

def check (interrupt : Interrupt) (visit : Visit Cpu) : Option (Interrupt × LineChange × Cpu) := do
  let cpu := visit.cpu
  let (interrupt, change) ← interrupt.poll (Processor.interruptBlocked cpu) visit.tact
  match change with
  | .keep => return (interrupt, .keep, cpu)
  | change =>
    return (interrupt, change, Processor.withSignals (change.apply (Processor.signals cpu)) cpu)

/-- What each of some visits does to the line, and the window after them. -/
def checkAll (interrupt : Interrupt) : List (Visit Cpu) → Option (List LineChange × Interrupt)
  | [] => some ([], interrupt)
  | visit :: visits => do
    let (interrupt, change, _) ← interrupt.check visit
    let (changes, interrupt) ← interrupt.checkAll visits
    return (change :: changes, interrupt)

theorem pollInterrupt_eq_check {κ ρ : Type} (machine : Machine Cpu κ ρ) :
    machine.pollInterrupt =
      (machine.interrupt.check ⟨machine.cpu, machine.frameTact⟩).map
        fun (interrupt, _, cpu) => { machine with interrupt, cpu } := by
  rw [Machine.pollInterrupt, check]
  cases machine.interrupt.poll (Processor.interruptBlocked machine.cpu) machine.frameTact with
  | none => rfl
  | some result =>
      rcases result with ⟨interrupt, _ | _ | _⟩ <;> rfl

structure Moved (change : LineChange) (before after : Cpu) : Prop where
  kept : change = .keep → after = before
  asserted : change = .assert → Processor.interrupted after = true
  released : change = .release → Processor.interrupted after = false
  others : (Processor.signals after).remove .interrupt =
    (Processor.signals before).remove .interrupt

theorem moved_withSignals [LawfulProcessor Cpu] {change : LineChange} (moves : change ≠ .keep)
    (cpu : Cpu) :
    Moved change cpu (Processor.withSignals (change.apply (Processor.signals cpu)) cpu) where
  kept keeps := absurd keeps moves
  asserted := by
    rintro rfl
    rw [Processor.interrupted, LawfulProcessor.signals_withSignals]
    exact Signals.contains_insert _
  released := by
    rintro rfl
    rw [Processor.interrupted, LawfulProcessor.signals_withSignals]
    exact Signals.contains_remove _
  others := by
    rw [LawfulProcessor.signals_withSignals]
    cases change with
    | keep => rfl
    | assert => exact Signals.remove_insert _
    | release => exact Signals.remove_remove _

theorem exists_check [LawfulProcessor Cpu]
    (fits : interrupt.tact + longestInstruction < UInt32.size) (visit : Visit Cpu) :
    ∃ after change cpu, interrupt.check visit = some (after, change, cpu) ∧
      interrupt.Answers (Processor.interruptBlocked visit.cpu) visit.tact after change ∧
      Moved change visit.cpu cpu := by
  rcases exists_poll fits (Processor.interruptBlocked visit.cpu) visit.tact with
    ⟨after, change, polls⟩
  have answers := answers_of_poll polls
  rw [check, polls]
  cases change with
  | keep =>
      refine ⟨_, _, _, rfl, answers, fun _ => rfl, ?_, ?_, rfl⟩
      · exact fun asserted => absurd asserted (by decide)
      · exact fun released => absurd released (by decide)
  | assert => exact ⟨_, _, _, rfl, answers, moved_withSignals (by decide) visit.cpu⟩
  | release => exact ⟨_, _, _, rfl, answers, moved_withSignals (by decide) visit.cpu⟩

theorem Answers.count_eq (answers : interrupt.Answers blocked tact after change) :
    after.count = interrupt.count + if change = .assert then 1 else 0 := by
  cases answers <;> rfl

theorem Visited.exists_checkAll [LawfulProcessor Cpu] {start now : Interrupt}
    {visits : List (Visit Cpu)} {changes : List LineChange}
    (visited : Visited start visits changes now)
    (fits : start.tact + longestInstruction < UInt32.size) (later : List (Visit Cpu)) :
    ∃ more last, now.checkAll later = some (more, last) ∧
      Visited start (visits ++ later) (changes ++ more) last := by
  induction later generalizing visits changes now with
  | nil => exact ⟨[], now, rfl, by simpa using visited⟩
  | cons visit later induction =>
      rcases exists_check (visited.tact_eq ▸ fits) visit with
        ⟨next, change, cpu, checked, answers, -⟩
      rcases induction (visited.concat answers) with ⟨more, last, rest, all⟩
      rw [List.append_assoc, List.append_assoc] at all
      refine ⟨change :: more, last, ?_, all⟩
      rw [checkAll, checked]
      simp [rest]

/-- Any visits in a frame and another one after them. The last one asserts the line exactly if it
comes in the window, finds the processor ready, and the line has not been asserted nor a visit come
after the window before. It releases the line exactly if it is the first one after the window. The
count follows the assertions, and no other signal ever changes. -/
theorem check_of_frame [LawfulProcessor Cpu] (interrupt : Interrupt)
    (fits : interrupt.tact + longestInstruction < UInt32.size) (earlier : List (Visit Cpu))
    (visit : Visit Cpu) :
    ∃ changes before after change cpu,
      interrupt.newFrame.checkAll earlier = some (changes, before) ∧
      changes.length = earlier.length ∧
      before.check visit = some (after, change, cpu) ∧
      (change = .assert ↔
        interrupt.tact ≤ visit.tact ∧ visit.tact ≤ interrupt.tact + 23 ∧
          Processor.interruptBlocked visit.cpu = false ∧ .assert ∉ changes ∧
          ∀ other ∈ earlier, other.tact ≤ interrupt.tact + 23) ∧
      (change = .release ↔ interrupt.tact + 23 < visit.tact ∧
        ∀ other ∈ earlier, other.tact ≤ interrupt.tact + 23) ∧
      (after.count = before.count + if change = .assert then 1 else 0) ∧
      (change = .keep → cpu = visit.cpu) ∧
      (change = .assert → Processor.interrupted cpu = true) ∧
      (change = .release → Processor.interrupted cpu = false) ∧
      (Processor.signals cpu).remove .interrupt =
        (Processor.signals visit.cpu).remove .interrupt := by
  rcases (Visited.newFrame interrupt).exists_checkAll fits earlier with
    ⟨changes, before, checked, visited⟩
  rcases exists_check (visited.tact_eq ▸ fits) visit with
    ⟨after, change, cpu, last, answers, moved⟩
  exact ⟨changes, before, after, change, cpu, checked, visited.length_eq, last,
    visited.eq_assert_iff answers, visited.eq_release_iff answers, answers.count_eq,
    moved.kept, moved.asserted, moved.released, moved.others⟩

/-- A frame with an interrupt at tact 11: blocked at first, it comes at tact 16, not again once the
processor has taken it, and the first poll behind tact 34 releases the line. -/
theorem check_of_frame_blockedAtFirst :
    let interrupt : Interrupt := { tact := 11 }
    let idle : ScriptedProcessor := {}
    let waiting : ScriptedProcessor := { signals := .interrupt }
    let earlier : List (Visit ScriptedProcessor) :=
      [⟨{ blocked := true }, 12⟩, ⟨idle, 16⟩, ⟨idle, 34⟩]
    interrupt.tact + longestInstruction < UInt32.size ∧
      ∃ before after cpu,
        interrupt.newFrame.checkAll earlier = some ([.keep, .assert, .keep], before) ∧
        before.check ⟨waiting, 35⟩ = some (after, .release, cpu) ∧
        Processor.interrupted cpu = false ∧ after.count = 1 := by
  intro interrupt idle waiting earlier
  have fits : interrupt.tact + longestInstruction < UInt32.size := by decide
  rcases check_of_frame interrupt fits earlier ⟨waiting, 35⟩ with
    ⟨changes, before, after, change, cpu, checked, -, last, -, releases, count, -, -, released, -⟩
  have release : change = .release := releases.mpr ⟨by decide, by decide⟩
  subst release
  have known : interrupt.newFrame.checkAll earlier =
    some ([.keep, .assert, .keep], { tact := 11, raised := true, count := 1 }) := by decide +kernel
  cases known.symm.trans checked
  exact ⟨fits, _, after, cpu, known, last, released rfl, count⟩

end Interrupt

end ZxSpectrum
