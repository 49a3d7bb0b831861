import Mathlib
import ZxSpectrum.Machine.Board
import ZxSpectrum.Processor.Scripted

namespace ZxSpectrum

/-! What the machine asks of a processor, beside that registers and signals are components of their
own. Its count of tacts never goes down, whatever the bus answers, it does not interrupt itself, and
what a reset keeps of it is not changed by instructions. -/

namespace BusProgram

/-- Every result that the program can come to, whatever the answers on the bus. -/
def All (holds : α → Prop) : BusProgram α → Prop
  | .done result => holds result
  | .read _ _ next => ∀ value wait, (next value wait).All holds
  | .write _ _ _ next => ∀ wait, (next wait).All holds
  | .input _ _ next => ∀ value wait, (next value wait).All holds
  | .output _ _ _ next => ∀ wait, (next wait).All holds
  | .peek _ next => ∀ value, (next value).All holds
  | .poke _ _ next => next.All holds

theorem All.mono {holds weaker : α → Prop} (implies : ∀ result, holds result → weaker result)
    {program : BusProgram α} (all : program.All holds) : program.All weaker := by
  induction program with
  | done result => exact implies result all
  | read address tact next induction => exact fun _ _ => induction _ _ (all _ _)
  | write address value tact next induction => exact fun wait => induction wait (all wait)
  | input port tact next induction => exact fun _ _ => induction _ _ (all _ _)
  | output port value tact next induction => exact fun wait => induction wait (all wait)
  | peek address next induction => exact fun value => induction value (all value)
  | poke address value next induction => exact induction all

theorem all_bind {holds : β → Prop} {program : BusProgram α} {next : α → BusProgram β} :
    (program >>= next).All holds ↔ program.All fun result => (next result).All holds := by
  induction program with
  | done result => exact Iff.rfl
  | read address tact resume induction =>
      exact forall_congr' fun value => forall_congr' fun wait => induction value wait
  | write address value tact resume induction => exact forall_congr' fun wait => induction wait
  | input port tact resume induction =>
      exact forall_congr' fun value => forall_congr' fun wait => induction value wait
  | output port value tact resume induction => exact forall_congr' fun wait => induction wait
  | peek address resume induction => exact forall_congr' fun value => induction value
  | poke address value resume induction => exact induction

end BusProgram

theorem Board.of_perform [Peripheral κ] [TapeProvider ρ] {holds : α → Prop}
    {program : BusProgram α} (all : program.All holds) {board after : Board κ ρ} {result : α}
    (performed : board.perform program = some (result, after)) : holds result := by
  induction program generalizing board with
  | done result =>
      cases performed
      exact all
  | read address tact next induction => exact induction _ _ (all _ _) performed
  | write address value tact next induction => exact induction _ (all _) performed
  | input port tact next induction =>
      rcases Option.bind_eq_some_iff.mp performed with ⟨⟨value, wait, board⟩, -, rest⟩
      exact induction value wait (all value wait) rest
  | output port value tact next induction =>
      rcases Option.bind_eq_some_iff.mp performed with ⟨⟨wait, board⟩, -, rest⟩
      exact induction wait (all wait) rest
  | peek address next induction => exact induction _ (all _) performed
  | poke address value next induction => exact induction all performed

/-! Processors by what their instructions leave alone: the tacts that have passed, the interrupt
line, and what a reset keeps. -/

class MonotonicProcessor (Cpu : Type) [Processor Cpu] : Prop where
  tacts_le_step (cpu : Cpu) :
    (Processor.step cpu).All fun result => Processor.tacts cpu ≤ Processor.tacts result.1

def Processor.interrupted [Processor Cpu] (cpu : Cpu) : Bool :=
  (Processor.signals cpu).contains .interrupt

/-- Executing instructions does not assert the interrupt line. -/
class QuietProcessor (Cpu : Type) [Processor Cpu] : Prop where
  interrupted_of_step (cpu : Cpu) :
    (Processor.step cpu).All fun result =>
      Processor.interrupted result.1 = true → Processor.interrupted cpu = true

/-- Where a reset puts the processor depends on nothing that instructions, its registers or its
signals change. -/
class ResettableProcessor (Cpu : Type) [Processor Cpu] : Prop where
  reset_reset (cpu : Cpu) : Processor.reset (Processor.reset cpu) = Processor.reset cpu
  reset_withRegisters (registers : Registers) (cpu : Cpu) :
    Processor.reset (Processor.withRegisters registers cpu) = Processor.reset cpu
  reset_withSignals (signals : Signals) (cpu : Cpu) :
    Processor.reset (Processor.withSignals signals cpu) = Processor.reset cpu
  reset_step (cpu : Cpu) :
    (Processor.step cpu).All fun result => Processor.reset result.1 = Processor.reset cpu

namespace Signals

variable (signals : Signals)

theorem contains_insert : (signals.insert .interrupt).contains .interrupt = true := by
  have inserted : (signals.bits ||| 0x01) &&& 0x01 = 0x01 := by
    apply UInt8.toNat_inj.mp
    rw [UInt8.toNat_and, UInt8.toNat_or]
    change (signals.bits.toNat ||| 1) &&& 1 = 1
    rw [Nat.and_or_distrib_right, Nat.and_one_is_mod]
    rcases Nat.mod_two_eq_zero_or_one signals.bits.toNat with even | odd
    · simp [even]
    · simp [odd]
  exact decide_eq_true inserted

theorem contains_remove : (signals.remove .interrupt).contains .interrupt = false := by
  have removed : signals.bits &&& ~~~0x01 &&& 0x01 = 0 :=
    (UInt8.and_assoc _ _ _).trans UInt8.and_zero
  rw [contains, remove, interrupt, removed]
  rfl

theorem contains_insert_halted :
    (signals.insert .halted).contains .interrupt = signals.contains .interrupt := by
  have apart : (signals.bits ||| 0x08) &&& 0x01 = signals.bits &&& 0x01 := by
    apply UInt8.toNat_inj.mp
    rw [UInt8.toNat_and, UInt8.toNat_or, Nat.and_or_distrib_right]
    exact Nat.or_zero _
  rw [contains, contains, insert, halted, interrupt, apart]

theorem contains_remove_halted :
    (signals.remove .halted).contains .interrupt = signals.contains .interrupt := by
  have apart : signals.bits &&& ~~~0x08 &&& 0x01 = signals.bits &&& 0x01 :=
    UInt8.and_assoc _ _ _
  rw [contains, contains, remove, halted, interrupt, apart]

end Signals

namespace ScriptedProcessor

/-! The scripted processor is one of each kind. -/

structure Advanced (cpu after : ScriptedProcessor) : Prop where
  tacts_le : cpu.tacts ≤ after.tacts
  interrupted : after.signals.contains .interrupt = cpu.signals.contains .interrupt
  reset : after.reset = cpu.reset

theorem Advanced.trans {cpu middle after : ScriptedProcessor} (first : cpu.Advanced middle)
    (rest : middle.Advanced after) : cpu.Advanced after where
  tacts_le := first.tacts_le.trans rest.tacts_le
  interrupted := rest.interrupted.trans first.interrupted
  reset := rest.reset.trans first.reset

def Advances (cpu : ScriptedProcessor) (project : α → ScriptedProcessor)
    (program : BusProgram α) : Prop :=
  program.All fun result => cpu.Advanced (project result)

variable {cpu : ScriptedProcessor}

theorem advanced_elapse (tacts : Nat) : cpu.Advanced (cpu.elapse tacts) :=
  ⟨Nat.le_add_right _ _, rfl, rfl⟩

theorem fetch_advances : cpu.Advances Prod.snd cpu.fetch :=
  fun _ _ => ⟨Nat.le_add_right _ _, rfl, rfl⟩

theorem Advances.bind {β : Type} {project : α → ScriptedProcessor} {next : α → BusProgram β}
    {last : β → ScriptedProcessor} {program : BusProgram α} (first : cpu.Advances project program)
    (rest : ∀ result, (project result).Advances last (next result)) :
    cpu.Advances last (program >>= next) := by
  apply BusProgram.all_bind.mpr
  apply first.mono
  intro result advanced
  apply BusProgram.All.mono _ (rest result)
  exact fun _ => advanced.trans

theorem Advances.from {earlier : ScriptedProcessor} (advanced : earlier.Advanced cpu)
    {project : α → ScriptedProcessor} {program : BusProgram α}
    (advances : cpu.Advances project program) : earlier.Advances project program :=
  BusProgram.All.mono (fun _ => advanced.trans) advances

theorem fetchWord_advances : cpu.Advances Prod.snd cpu.fetchWord :=
  fetch_advances.bind fun _ => fetch_advances.bind fun _ => ⟨Nat.le_refl _, rfl, rfl⟩

theorem pushByte_advances (value : UInt8) : cpu.Advances id (cpu.pushByte value) :=
  fun _ => ⟨Nat.le_add_right _ _, rfl, rfl⟩

theorem push_advances (word : UInt16) : cpu.Advances id (cpu.push word) :=
  (pushByte_advances _).bind fun _ => pushByte_advances _

theorem pop_advances : cpu.Advances Prod.snd cpu.pop :=
  fun _ _ _ _ => ⟨Nat.le_add_right _ _, rfl, rfl⟩

theorem acceptInterrupt_advances : cpu.Advances id cpu.acceptInterrupt := by
  simp only [acceptInterrupt]
  apply Advances.bind
  · apply Advances.from _ (push_advances _)
    exact ⟨Nat.le_refl _, Signals.contains_remove_halted _, rfl⟩
  · intro pushed
    exact ⟨Nat.le_add_right _ _, rfl, rfl⟩

theorem loadOperand_advances (store : UInt8 → Registers → Registers) :
    cpu.Advances Prod.fst (cpu.loadOperand store) :=
  fetch_advances.bind fun _ => ⟨Nat.le_add_right _ _, rfl, rfl⟩

theorem execute_advances (pc : UInt16) (opcode : UInt8) :
    cpu.Advances Prod.fst (cpu.execute pc opcode) := by
  unfold execute
  split
  case h_10 => exact ⟨Nat.le_add_right _ _, Signals.contains_insert_halted _, rfl⟩
  case h_11 => exact fetchWord_advances.bind fun _ => ⟨Nat.le_add_right _ _, rfl, rfl⟩
  case h_12 => exact pop_advances.bind fun _ => ⟨Nat.le_add_right _ _, rfl, rfl⟩
  case h_13 =>
      apply fetchWord_advances.bind
      intro target
      apply (push_advances _).bind
      intro pushed
      exact ⟨Nat.le_add_right _ _, rfl, rfl⟩
  case h_14 => exact fetch_advances.bind fun _ _ => advanced_elapse _
  case h_15 => exact fetch_advances.bind fun _ _ _ => ⟨Nat.le_add_right _ _, rfl, rfl⟩
  case h_18 => exact ⟨Nat.le_refl _, rfl, rfl⟩
  all_goals first
    | exact loadOperand_advances _
    | exact ⟨Nat.le_add_right _ _, rfl, rfl⟩

theorem step_advances : cpu.Advances Prod.fst cpu.step := by
  simp only [step]
  split
  · exact acceptInterrupt_advances.bind fun _ => ⟨Nat.le_refl _, rfl, rfl⟩
  · split
    · exact ⟨Nat.le_add_right _ _, rfl, rfl⟩
    · apply Advances.bind
      · apply Advances.from _ fetch_advances
        exact ⟨Nat.le_refl _, rfl, rfl⟩
      · intro fetched
        apply Advances.from _ (execute_advances _ _)
        exact ⟨Nat.le_refl _, rfl, rfl⟩

instance : MonotonicProcessor ScriptedProcessor where
  tacts_le_step _ := step_advances.mono fun _ advanced => advanced.tacts_le

instance : QuietProcessor ScriptedProcessor where
  interrupted_of_step _ := step_advances.mono fun _ advanced => advanced.interrupted.symm.trans

instance : ResettableProcessor ScriptedProcessor where
  reset_reset _ := rfl
  reset_withRegisters _ _ := rfl
  reset_withSignals _ _ := rfl
  reset_step _ := step_advances.mono fun _ advanced => advanced.reset

end ScriptedProcessor

end ZxSpectrum
