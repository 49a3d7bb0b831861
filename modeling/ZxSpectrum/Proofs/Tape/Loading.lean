import ZxSpectrum.Proofs.Memory
import ZxSpectrum.Proofs.Tape.FastLoad

namespace ZxSpectrum

/-! What a load leaves in the registers and in memory, to the last bit. The loader accepts bytes one
after another until it has them all or one is missing; how it ends is then said by what is left. -/

namespace Registers

theorem toNat_wordOf (high low : UInt8) :
    (wordOf high low).toNat = 256 * high.toNat + low.toNat := by
  have lowBound := low.toNat_lt
  have highBound := high.toNat_lt
  have fits : high.toNat * 256 % 65536 = high.toNat * 256 := Nat.mod_eq_of_lt (by omega)
  have joined : high.toNat * 256 ||| low.toNat = high.toNat * 256 + low.toNat := by
    simpa [Nat.shiftLeft_eq] using (Nat.shiftLeft_add_eq_or_of_lt lowBound high.toNat).symm
  simp [wordOf, Nat.shiftLeft_eq, fits, joined]
  exact Nat.mul_comm _ _

theorem toNat_highByte (word : UInt16) : (highByte word).toNat = word.toNat / 256 := by
  have bound := word.toNat_lt
  simp [highByte, Nat.shiftRight_eq_div_pow]
  omega

theorem toNat_lowByte (word : UInt16) : (lowByte word).toNat = word.toNat % 256 := by
  simp [lowByte]

@[simp] theorem de_setDE (registers : Registers) (word : UInt16) :
    (registers.setDE word).de = word := by
  apply UInt16.toNat_inj.mp
  rw [de, setDE, toNat_wordOf, toNat_highByte, toNat_lowByte]
  omega

/-- What a load has no use for: all but the accumulator, the flags, `DE`, `HL`, `IX` and the
program counter. -/
def bystanders (registers : Registers) : Registers :=
  { registers with a := 0, f := 0, d := 0, e := 0, h := 0, l := 0, ix := 0, pc := 0 }

end Registers

namespace Loader

/-! The registers after some bytes have been accepted. -/

section Accepted

variable (registers : Registers) (bytes : List UInt8)

theorem acceptAll_ix :
    (acceptAll registers bytes).ix = registers.ix + UInt16.ofNat bytes.length := by
  induction bytes generalizing registers with
  | nil => simp [acceptAll]
  | cons byte bytes induction =>
      have first : (accept registers byte).ix = registers.ix + 1 := rfl
      rw [acceptAll_cons, induction, first]
      simp [UInt16.add_assoc, UInt16.add_comm 1]

theorem acceptAll_de :
    (acceptAll registers bytes).de = registers.de - UInt16.ofNat bytes.length := by
  induction bytes generalizing registers with
  | nil => simp [acceptAll]
  | cons byte bytes induction =>
      have first : (accept registers byte).de = registers.de - 1 := Registers.de_setDE _ _
      rw [acceptAll_cons, induction, first]
      rw [List.length_cons, UInt16.ofNat_add]
      grind

theorem acceptAll_l :
    (acceptAll registers bytes).l = bytes.getLast?.getD registers.l := by
  induction bytes generalizing registers with
  | nil => rfl
  | cons byte bytes induction =>
      have first : (accept registers byte).l = byte := rfl
      rw [acceptAll_cons, induction, first, List.getLast?_cons, Option.getD_some]

theorem acceptAll_bystanders :
    (acceptAll registers bytes).bystanders = registers.bystanders := by
  induction bytes generalizing registers with
  | nil => rfl
  | cons byte bytes induction => exact induction (accept registers byte)

theorem acceptAll_a : (acceptAll registers bytes).a = registers.a := by
  induction bytes generalizing registers with
  | nil => rfl
  | cons byte bytes induction => exact induction (accept registers byte)

theorem acceptAll_f : (acceptAll registers bytes).f = registers.f := by
  induction bytes generalizing registers with
  | nil => rfl
  | cons byte bytes induction => exact induction (accept registers byte)

end Accepted

theorem transfer_load_append (front rest : List UInt8) (count : Nat) (registers : Registers)
    (memory : Memory) :
    transfer false (front.length + count) (front ++ rest) registers memory =
      transfer false count rest (acceptAll registers front)
        (memory.writeAll registers.ix front) := by
  induction front generalizing registers memory with
  | nil => simp [acceptAll, Memory.writeAll]
  | cons byte front induction =>
      rw [List.length_cons, Nat.add_right_comm, List.cons_append, transfer,
        if_neg Bool.false_ne_true, induction]
      rfl

/-! The registers when as many bytes as are asked for have been accepted, or all there are. -/

def finished (registers : Registers) (bytes : List UInt8) (count : Nat) : Registers :=
  let accepted := acceptAll registers (bytes.take count)
  if count ≤ bytes.length then finish accepted bytes[count]? else reject accepted

theorem finished_keeps (registers : Registers) (bytes : List UInt8) (count : Nat) :
    let accepted := acceptAll registers (bytes.take count)
    let after := finished registers bytes count
    after.bystanders = accepted.bystanders ∧ after.ix = accepted.ix ∧ after.de = accepted.de ∧
      after.l = accepted.l := by
  unfold finished
  split <;> exact ⟨rfl, rfl, rfl, rfl⟩

theorem transfer_load (count : Nat) (bytes : List UInt8) (registers : Registers)
    (memory : Memory) :
    transfer false count bytes registers memory =
      (finished registers bytes count, memory.writeAll registers.ix (bytes.take count)) := by
  by_cases enough : count ≤ bytes.length
  · have taken : (bytes.take count).length + 0 = count := by simpa using enough
    have whole := transfer_load_append (bytes.take count) (bytes.drop count) 0 registers memory
    rw [taken, List.take_append_drop] at whole
    rw [whole, finished, if_pos enough, transfer, List.head?_drop]
  · have all : bytes.take count = bytes := List.take_of_length_le (Nat.le_of_not_le enough)
    obtain ⟨more, missing⟩ := Nat.exists_eq_add_of_lt (Nat.lt_of_not_le enough)
    have short := transfer_load_append bytes [] (more + 1) registers memory
    rw [List.append_nil, ← Nat.add_assoc, ← missing] at short
    rw [short, finished, if_neg enough, all, transfer]

theorem load_of_loading {flag : UInt8} (bytes : List UInt8) {registers : Registers}
    (loads : ¬Verifying registers) (expected : flag = registers.aAlternate) (memory : Memory) :
    load (flag :: bytes) registers memory =
      (finished { registers.exchangeAF with h := registers.aAlternate } bytes registers.de.toNat,
        memory.writeAll registers.ix (bytes.take registers.de.toNat)) := by
  rw [load_of_flag expected, decide_eq_false loads, transfer_load]
  rfl

/-! What the registers tell of the end of a load: how far it has come, and if it has given up. -/

structure Moved (before after : Registers) (count : Nat) : Prop where
  ix : after.ix = before.ix + UInt16.ofNat count
  de : after.de.toNat = before.de.toNat - count

theorem moved_acceptAll {registers : Registers} {bytes : List UInt8}
    (enough : bytes.length ≤ registers.de.toNat) :
    Moved registers (acceptAll registers bytes) bytes.length where
  ix := acceptAll_ix registers bytes
  de := by
    have bound := registers.de.toNat_lt
    rw [acceptAll_de, UInt16.toNat_sub, UInt16.toNat_ofNat']
    omega

/-- The loader has given up: of the flags that it was called with, zero and carry are clear. -/
structure Rejected (before after : Registers) : Prop where
  f : after.f = before.fAlternate &&& ~~~(Flag.zero ||| Flag.carry)
  pc : after.pc = rejectAddress

/-- The documented flags of the comparison of an accumulator with an operand. The two bits that
are not documented are clear. -/
structure ComparisonFlags (a operand flags : UInt8) : Prop where
  sign : flags &&& Flag.sign ≠ 0 ↔ 0x80 ≤ a - operand
  zero : flags &&& Flag.zero ≠ 0 ↔ a = operand
  halfCarry : flags &&& Flag.halfCarry ≠ 0 ↔ a.toNat % 16 < operand.toNat % 16
  overflow : flags &&& Flag.parity ≠ 0 ↔
    (a - operand).toInt8.toInt ≠ a.toInt8.toInt - operand.toInt8.toInt
  subtract : flags &&& Flag.subtract ≠ 0
  carry : flags &&& Flag.carry ≠ 0 ↔ a < operand
  undocumented : flags &&& 0x28 = 0

theorem comparisonFlags_compareWithOne (a : UInt8) : ComparisonFlags a 1 (compareWithOne a) := by
  constructor <;> (revert a; decide +kernel)

theorem finished_of_missing (registers : Registers) {bytes : List UInt8} {count : Nat}
    (missing : bytes.length < count) :
    let after := finished registers bytes count
    after.a = registers.a ∧ after.h = Tap.checksum registers.h (bytes.take count) ∧
      after.f = registers.f &&& ~~~(Flag.zero ||| Flag.carry) ∧ after.pc = rejectAddress := by
  rw [finished, if_neg (Nat.not_le.mpr missing)]
  exact ⟨acceptAll_a _ _, acceptAll_h _ _, congrArg (· &&& _) (acceptAll_f _ _), rfl⟩

theorem finished_of_enough (registers : Registers) {bytes : List UInt8} {count : Nat}
    (enough : count ≤ bytes.length) :
    let after := finished registers bytes count
    after.pc = resumeAddress ∧ after.a = after.h ∧
      after.h = Tap.checksum registers.h (bytes.take (count + 1)) ∧
      ComparisonFlags after.a 1 after.f ∧ (after.carry = true ↔ after.a = 0) := by
  rw [finished, if_pos enough]
  refine ⟨rfl, rfl, ?_, comparisonFlags_compareWithOne _, carry_finish _ _⟩
  rw [checksum_take_succ, List.head?_drop, ← acceptAll_h]
  rfl

theorem load_outcome_of_other {block : List UInt8} {registers : Registers}
    (other : block.head? ≠ some registers.aAlternate) (memory : Memory) :
    let after := (load block registers memory).1
    after.bystanders = registers.exchangeAF.bystanders ∧
      (load block registers memory).2 = memory ∧ Moved registers after 0 ∧
      after.hl = registers.hl ∧ after.a = registers.aAlternate ^^^ registers.l ∧
      Rejected registers after := by
  rw [load_of_other other]
  have moved : Moved registers registers.exchangeAF 0 := ⟨(UInt16.add_zero _).symm, rfl⟩
  exact ⟨rfl, rfl, ⟨moved.ix, moved.de⟩, rfl, rfl, ⟨rfl, rfl⟩⟩

/-- What a load leaves. A block that does not begin with the expected flag changes nothing but the
registers that tell so. Of any other block, as many bytes as are asked for, or as there are, come
into memory, and the registers tell how many these were. With all of them the parity decides. -/
theorem load_outcome (block : List UInt8) {registers : Registers} (loads : ¬Verifying registers)
    (memory : Memory) :
    let count := min registers.de.toNat (block.length - 1)
    let payload := block.tail.take count
    let after := (load block registers memory).1
    let left := (load block registers memory).2
    after.bystanders = registers.exchangeAF.bystanders ∧
      (block.head? ≠ some registers.aAlternate →
        left = memory ∧ Moved registers after 0 ∧ after.hl = registers.hl ∧
          after.a = registers.aAlternate ^^^ registers.l ∧ Rejected registers after) ∧
      (block.head? = some registers.aAlternate →
        Memory.Written registers.ix payload memory left ∧ payload.length = count ∧
          Moved registers after count ∧ after.l = payload.getLast?.getD registers.l ∧
          (count < registers.de.toNat →
            after.a = registers.aAlternate ∧
              after.h = Tap.checksum registers.aAlternate payload ∧ Rejected registers after) ∧
          (count = registers.de.toNat →
            after.pc = resumeAddress ∧ after.a = after.h ∧
              after.h = Tap.checksum 0 (block.take (registers.de.toNat + 2)) ∧
              ComparisonFlags after.a 1 after.f ∧ (after.carry = true ↔ after.a = 0))) := by
  intro count payload after left
  have counted : payload.length = count := by simp [payload, count]
  by_cases expected : block.head? = some registers.aAlternate
  · obtain ⟨bytes, rfl⟩ := List.head?_eq_some_iff.mp expected
    have payload_eq : bytes.take registers.de.toNat = payload := List.take_eq_take_min
    let start : Registers := { registers.exchangeAF with h := registers.aAlternate }
    have result := load_of_loading bytes loads rfl memory
    rw [payload_eq] at result
    have after_eq : after = finished start bytes registers.de.toNat := congrArg Prod.fst result
    have left_eq : left = memory.writeAll registers.ix payload := congrArg Prod.snd result
    obtain ⟨bystanders, ix, de, l⟩ := finished_keeps start bytes registers.de.toNat
    rw [← after_eq, payload_eq] at bystanders ix de l
    have bound := registers.de.toNat_lt
    have fits : payload.length ≤ registers.de.toNat := by omega
    have moved : Moved start (acceptAll start payload) payload.length := moved_acceptAll fits
    refine ⟨?_, fun other => absurd expected other, fun _ => ⟨?_, counted, ?_, ?_, ?_, ?_⟩⟩
    · rw [bystanders, acceptAll_bystanders]
      rfl
    · rw [left_eq]
      exact memory.written_writeAll registers.ix (by omega)
    · rw [← counted]
      exact ⟨ix.trans moved.ix, (congrArg UInt16.toNat de).trans moved.de⟩
    · rw [l, acceptAll_l]
      rfl
    · intro short
      have missing : bytes.length < registers.de.toNat := by simpa [count] using short
      rw [after_eq, ← payload_eq]
      obtain ⟨a, h, f, pc⟩ := finished_of_missing start missing
      exact ⟨a, h, f, pc⟩
    · intro whole
      have enough : registers.de.toNat ≤ bytes.length := by simpa [count] using whole
      have parity : Tap.checksum start.h (bytes.take (registers.de.toNat + 1)) =
          Tap.checksum 0 ((registers.aAlternate :: bytes).take (registers.de.toNat + 2)) := by
        simp [Tap.checksum, start]
      rw [after_eq, ← parity]
      exact finished_of_enough start enough
  · obtain ⟨bystanders, outcome⟩ := load_outcome_of_other expected memory
    exact ⟨bystanders, fun _ => outcome, fun flag => absurd flag expected⟩

def loadAcrossRom : Registers :=
  { e := 2, aAlternate := 0xFF, fAlternate := Flag.carry, ix := 0x3FFF }

theorem load_outcome_acrossRom :
    let after := (load [0xFF, 0x12, 0x34, 0xD9] loadAcrossRom Memory.empty).1
    let left := (load [0xFF, 0x12, 0x34, 0xD9] loadAcrossRom Memory.empty).2
    ¬Verifying loadAcrossRom ∧ left.read 0x3FFF = Memory.empty.read 0x3FFF ∧
      left.read 0x4000 = 0x34 ∧ after.ix = 0x4001 ∧ after.de.toNat = 0 ∧ after.l = 0x34 ∧
      after.a = 0 ∧ after.carry = true ∧ after.pc = resumeAddress := by
  have loads : ¬Verifying loadAcrossRom := by decide
  obtain ⟨-, -, accepted⟩ :=
    load_outcome [0xFF, 0x12, 0x34, 0xD9] loads Memory.empty
  obtain ⟨written, -, moved, l, -, whole⟩ := accepted rfl
  obtain ⟨pc, a, parity, -, carry⟩ := whole rfl
  have cancelled := a.trans (parity.trans rfl)
  have inRom := written.outside 0x3FFF fun inRam => absurd inRam (by decide)
  have second := written.inside 1 (by decide) (by decide)
  exact ⟨loads, inRom, (Option.some.inj second).symm, moved.ix, moved.de, l, cancelled,
    carry.mpr cancelled, pc⟩

end Loader

end ZxSpectrum
