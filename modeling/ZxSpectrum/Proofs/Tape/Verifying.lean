import ZxSpectrum.Proofs.Tape.Loading

namespace ZxSpectrum.Loader

/-! What a comparison of a block with memory leaves. It takes the same steps as a load up to the
first offset where memory does not hold the byte of the block. -/

/-- The offsets at which a byte of the block is missing or is not in memory. -/
def differences (bytes : List UInt8) (registers : Registers) (memory : Memory) : Set Nat :=
  { offset | offset < registers.de.toNat ∧
      bytes[offset]? ≠ some (memory.read (registers.ix + UInt16.ofNat offset)) }

theorem readable_verify {count : Nat} {bytes : List UInt8} {address : UInt16} {memory : Memory} :
    Readable true count bytes address memory ↔
      ∀ offset < count, bytes[offset]? = some (memory.read (address + UInt16.ofNat offset)) := by
  constructor
  · rintro ⟨enough, same⟩ offset before
    have taken : bytes[offset]? = (bytes.take count)[offset]? := by simp [before]
    rw [taken, ← same rfl]
    simp [Memory.readAll, before]
  · intro there
    have enough : count ≤ bytes.length := by
      by_contra missing
      have last := there bytes.length (Nat.not_le.mp missing)
      simp at last
    refine ⟨enough, fun _ => ?_⟩
    apply List.ext_getElem?
    intro offset
    by_cases before : offset < count
    · simp [Memory.readAll, before, there offset before]
    · simp [Memory.readAll, before]

theorem readable_of_isLeast {bytes : List UInt8} {registers : Registers} {memory : Memory}
    {offset : Nat} (first : IsLeast (differences bytes registers memory) offset) :
    Readable true offset bytes registers.ix memory := by
  rw [readable_verify]
  intro earlier before
  by_contra different
  have least := first.2 ⟨before.trans first.1.1, different⟩
  omega

theorem readable_of_no_difference {bytes : List UInt8} {registers : Registers} {memory : Memory}
    (same : differences bytes registers memory = ∅) :
    Readable true registers.de.toNat bytes registers.ix memory := by
  rw [readable_verify]
  intro offset before
  by_contra different
  exact same.subset ⟨before, different⟩

theorem transfer_verify_memory (count : Nat) (bytes : List UInt8) (registers : Registers)
    (memory : Memory) :
    (transfer true count bytes registers memory).2 = memory := by
  induction count generalizing bytes registers with
  | zero => rfl
  | succ count induction =>
      cases bytes with
      | nil => rfl
      | cons byte bytes =>
          rw [transfer, if_pos rfl]
          dsimp only
          split
          · apply induction
          · rfl

theorem transfer_bystanders (verify : Bool) (count : Nat) (bytes : List UInt8)
    (registers : Registers) (memory : Memory) :
    (transfer verify count bytes registers memory).1.bystanders = registers.bystanders := by
  fun_induction transfer verify count bytes registers memory with
  | case1 | case2 | case4 => rfl
  | case3 _ _ _ _ _ _ induction | case5 _ _ _ _ _ _ induction => exact induction

/-! The loader goes on over bytes that memory holds, and gives up at the first other one. -/

theorem transfer_verify_add {front : Nat} {bytes : List UInt8} {registers : Registers}
    {memory : Memory} (readable : Readable true front bytes registers.ix memory) (count : Nat) :
    transfer true (front + count) bytes registers memory =
      transfer true count (bytes.drop front) (acceptAll registers (bytes.take front)) memory := by
  induction front generalizing bytes registers with
  | zero => simp [acceptAll]
  | succ front induction =>
      cases bytes with
      | nil => exact absurd readable (not_readable_nil _ _ _ _)
      | cons byte bytes =>
          obtain ⟨same, rest⟩ := readable_cons.mp readable
          rw [Nat.add_right_comm, transfer, if_pos rfl, if_pos (same rfl)]
          exact induction rest

theorem transfer_verify_of_readable {count : Nat} {bytes : List UInt8} {registers : Registers}
    {memory : Memory} (readable : Readable true count bytes registers.ix memory) :
    transfer true count bytes registers memory = (finished registers bytes count, memory) := by
  rw [← Nat.add_zero count, transfer_verify_add readable, Nat.add_zero, transfer, finished,
    if_pos readable.1, List.head?_drop]

theorem transfer_verify_of_different (count : Nat) {bytes : List UInt8} {registers : Registers}
    {memory : Memory} (different : bytes.head? ≠ some (memory.read registers.ix)) :
    let after := (transfer true (count + 1) bytes registers memory).1
    after.ix = registers.ix ∧ after.de = registers.de ∧
      after.f = registers.f &&& ~~~(Flag.zero ||| Flag.carry) ∧ after.pc = rejectAddress ∧
      ∀ byte, bytes.head? = some byte → after.a = memory.read registers.ix ^^^ byte := by
  cases bytes with
  | nil => exact ⟨rfl, rfl, rfl, rfl, fun byte there => nomatch there⟩
  | cons byte bytes =>
      have apart : memory.read registers.ix ≠ byte := fun same =>
        different (congrArg some same.symm)
      rw [transfer, if_pos rfl, if_neg apart]
      refine ⟨rfl, rfl, rfl, rfl, ?_⟩
      rintro _ ⟨⟩
      rfl

theorem transfer_verify_of_isLeast {bytes : List UInt8} {registers : Registers} {memory : Memory}
    {offset : Nat} (first : IsLeast (differences bytes registers memory) offset) :
    let after := (transfer true registers.de.toNat bytes registers memory).1
    Moved registers after offset ∧ after.f = registers.f &&& ~~~(Flag.zero ||| Flag.carry) ∧
      after.pc = rejectAddress ∧
      ∀ byte, bytes[offset]? = some byte →
        after.a = memory.read (registers.ix + UInt16.ofNat offset) ^^^ byte := by
  have readable := readable_of_isLeast first
  have counted : (bytes.take offset).length = offset := List.length_take_of_le readable.1
  obtain ⟨more, left⟩ := Nat.exists_eq_add_of_lt first.1.1
  let accepted := acceptAll registers (bytes.take offset)
  have moved : Moved registers accepted (bytes.take offset).length :=
    moved_acceptAll (counted.trans_le (Nat.le_of_lt first.1.1))
  rw [counted] at moved
  have different : (bytes.drop offset).head? ≠ some (memory.read accepted.ix) := by
    rw [List.head?_drop, moved.ix]
    exact first.1.2
  obtain ⟨ix, de, f, pc, a⟩ := transfer_verify_of_different more different
  rw [List.head?_drop, moved.ix] at a
  rw [acceptAll_f] at f
  rw [left, Nat.add_assoc, transfer_verify_add readable]
  exact ⟨⟨ix.trans moved.ix, (congrArg UInt16.toNat de).trans moved.de⟩, f, pc, a⟩

theorem transfer_verify_of_no_difference {bytes : List UInt8} {registers : Registers}
    {memory : Memory} (same : differences bytes registers memory = ∅) :
    let after := (transfer true registers.de.toNat bytes registers memory).1
    Moved registers after registers.de.toNat ∧ after.pc = resumeAddress ∧
      (after.carry = true ↔
        Tap.checksum registers.h (bytes.take (registers.de.toNat + 1)) = 0) := by
  have readable := readable_of_no_difference same
  have counted := List.length_take_of_le readable.1
  have moved := moved_acceptAll (Nat.le_of_eq counted)
  rw [counted] at moved
  obtain ⟨-, ix, de, -⟩ := finished_keeps registers bytes registers.de.toNat
  obtain ⟨pc, a, h, -, carry⟩ := finished_of_enough registers readable.1
  rw [transfer_verify_of_readable readable, ← h, ← a]
  exact ⟨⟨ix.trans moved.ix, (congrArg UInt16.toNat de).trans moved.de⟩, pc, carry⟩

theorem load_of_verifying {bytes : List UInt8} {registers : Registers}
    (verifies : Verifying registers) (memory : Memory) :
    load (0xFF :: bytes) registers memory =
      transfer true registers.de.toNat bytes { registers.exchangeAF with h := 0xFF } memory := by
  rw [load_of_flag verifies.1.symm, decide_eq_true verifies, verifies.1]

/-- What has been loaded into RAM is there to be compared. -/
theorem verify_succeeded_of_load {bytes : List UInt8} {loading registers : Registers}
    {memory : Memory} (loads : ¬Verifying loading) (verifies : Verifying registers)
    (ix : loading.ix = registers.ix) (de : loading.de = registers.de)
    (inRam : ∀ offset < registers.de.toNat, Memory.InRam (registers.ix + UInt16.ofNat offset))
    (loaded : Succeeded (load (0xFF :: bytes) loading memory).1) :
    Succeeded (load (0xFF :: bytes) registers (load (0xFF :: bytes) loading memory).2).1 := by
  obtain ⟨flag, readable, parity⟩ := load_succeeded_iff.mp loaded
  rw [de] at readable parity
  have enough : registers.de.toNat ≤ bytes.length := readable.1
  have bound := registers.de.toNat_lt
  let payload := bytes.take registers.de.toNat
  have counted : payload.length = registers.de.toNat := List.length_take_of_le enough
  have there :
      (memory.writeAll registers.ix payload).readAll registers.ix payload.length = payload :=
    memory.readAll_writeAll registers.ix (by omega) (by rwa [counted])
  rw [counted] at there
  rw [load_of_loading bytes loads (Option.some.inj flag), ix, de, load_succeeded_iff]
  exact ⟨congrArg some verifies.1.symm, ⟨enough, fun _ => there⟩, parity⟩

/-- What a comparison leaves. Memory stays as it is. At the first difference the registers tell how
many bytes have been found to be the same; without one the parity decides. A block that has been
loaded into RAM passes, as often as it is compared. -/
theorem verify_outcome (bytes : List UInt8) {registers : Registers}
    (verifies : Verifying registers) (memory : Memory) :
    let after := (load (0xFF :: bytes) registers memory).1
    (load (0xFF :: bytes) registers memory).2 = memory ∧
      after.bystanders = registers.exchangeAF.bystanders ∧
      (∀ offset, IsLeast (differences bytes registers memory) offset →
        Moved registers after offset ∧ Rejected registers after ∧
          ∀ byte, bytes[offset]? = some byte →
            after.a = memory.read (registers.ix + UInt16.ofNat offset) ^^^ byte) ∧
      (differences bytes registers memory = ∅ →
        Moved registers after registers.de.toNat ∧ after.pc = resumeAddress ∧
          (after.carry = true ↔
            Tap.checksum 0 ((0xFF :: bytes).take (registers.de.toNat + 2)) = 0)) ∧
      ∀ (loading : Registers) (earlier : Memory), ¬Verifying loading →
        loading.ix = registers.ix → loading.de = registers.de →
        (∀ offset < registers.de.toNat, Memory.InRam (registers.ix + UInt16.ofNat offset)) →
        Succeeded (load (0xFF :: bytes) loading earlier).1 →
          Succeeded (load (0xFF :: bytes) registers
            (load (0xFF :: bytes) loading earlier).2).1 := by
  intro after
  let start : Registers := { registers.exchangeAF with h := 0xFF }
  have after_eq : after = (transfer true registers.de.toNat bytes start memory).1 :=
    congrArg Prod.fst (load_of_verifying verifies memory)
  refine ⟨?_, ?_, ?_, ?_, ?_⟩
  · rw [load_of_verifying verifies, transfer_verify_memory]
  · rw [after_eq, transfer_bystanders]
    rfl
  · intro offset first
    obtain ⟨moved, f, pc, a⟩ :=
      transfer_verify_of_isLeast (show IsLeast (differences bytes start memory) offset from first)
    rw [after_eq]
    exact ⟨⟨moved.ix, moved.de⟩, ⟨f, pc⟩, a⟩
  · intro same
    obtain ⟨moved, pc, carry⟩ :=
      transfer_verify_of_no_difference (show differences bytes start memory = ∅ from same)
    have parity : Tap.checksum start.h (bytes.take (start.de.toNat + 1)) =
        Tap.checksum 0 ((0xFF :: bytes).take (registers.de.toNat + 2)) := by
      change Tap.checksum 0xFF (bytes.take (registers.de.toNat + 1)) = _
      simp [Tap.checksum]
    rw [after_eq, ← parity]
    exact ⟨⟨moved.ix, moved.de⟩, pc, carry⟩
  · intro loading earlier loads ix de inRam loaded
    exact verify_succeeded_of_load loads verifies ix de inRam loaded

def verifyTwoBytes : Registers :=
  { e := 2, aAlternate := 0xFF, ix := 0x8000 }

theorem verify_outcome_secondByte :
    let after := (load [0xFF, 0x00, 0x07, 0xF8] verifyTwoBytes Memory.empty).1
    Verifying verifyTwoBytes ∧
      IsLeast (differences [0x00, 0x07, 0xF8] verifyTwoBytes Memory.empty) 1 ∧
      after.ix = 0x8001 ∧ after.de.toNat = 1 ∧ after.a = 0x07 ∧ after.f = 0 ∧
      after.pc = rejectAddress := by
  have verifies : Verifying verifyTwoBytes := by decide
  have first : IsLeast (differences [0x00, 0x07, 0xF8] verifyTwoBytes Memory.empty) 1 := by
    constructor
    · simp [differences, Memory.read_empty, verifyTwoBytes, Registers.de, Registers.toNat_wordOf]
    · rintro offset ⟨-, different⟩
      by_contra earlier
      obtain rfl : offset = 0 := by omega
      simp [Memory.read_empty] at different
  obtain ⟨-, -, stops, -⟩ := verify_outcome [0x00, 0x07, 0xF8] verifies Memory.empty
  obtain ⟨moved, rejected, a⟩ := stops 1 first
  have second := a 0x07 rfl
  rw [Memory.read_empty] at second
  exact ⟨verifies, first, moved.ix, moved.de, second, rejected.f, rejected.pc⟩

end ZxSpectrum.Loader
