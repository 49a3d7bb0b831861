import Mathlib
import ZxSpectrum.Tape.Deck
import ZxSpectrum.Tape.Shelf

namespace ZxSpectrum

theorem Memory.readAll_succ (memory : Memory) (address : UInt16) (count : Nat) :
    memory.readAll address (count + 1) =
      memory.read address :: memory.readAll (address + 1) count := by
  simp [readAll, List.range_succ_eq_map, UInt16.add_assoc, UInt16.add_comm 1]

namespace Loader

/-! The bytes of a block are accepted one after another, up to the first that is missing or, while
verifying, differs from memory. Where none stops the loader, the parity decides. -/

def Verifying (registers : Registers) : Prop :=
  registers.aAlternate = 0xFF ∧ registers.fAlternate &&& Flag.carry = 0

instance (registers : Registers) : Decidable (Verifying registers) :=
  inferInstanceAs (Decidable (_ ∧ _))

def acceptAll (registers : Registers) (bytes : List UInt8) : Registers :=
  bytes.foldl accept registers

@[simp] theorem acceptAll_cons (registers : Registers) (byte : UInt8) (bytes : List UInt8) :
    acceptAll registers (byte :: bytes) = acceptAll (accept registers byte) bytes :=
  rfl

theorem acceptAll_h (registers : Registers) (bytes : List UInt8) :
    (acceptAll registers bytes).h = Tap.checksum registers.h bytes := by
  induction bytes generalizing registers with
  | nil => rfl
  | cons byte bytes induction =>
      rw [acceptAll_cons, induction]
      rfl

/-- None of a number of bytes is missing, and to verify them they have to be in memory. -/
def Readable (verify : Bool) (count : Nat) (bytes : List UInt8) (address : UInt16)
    (memory : Memory) : Prop :=
  count ≤ bytes.length ∧ (verify → memory.readAll address count = bytes.take count)

theorem readable_zero (verify : Bool) (bytes : List UInt8) (address : UInt16) (memory : Memory) :
    Readable verify 0 bytes address memory := by
  simp [Readable, Memory.readAll]

theorem not_readable_nil (verify : Bool) (count : Nat) (address : UInt16) (memory : Memory) :
    ¬ Readable verify (count + 1) [] address memory := by
  simp [Readable]

theorem readable_cons {verify : Bool} {count : Nat} {byte : UInt8} {bytes : List UInt8}
    {address : UInt16} {memory : Memory} :
    Readable verify (count + 1) (byte :: bytes) address memory ↔
      (verify → memory.read address = byte) ∧
        Readable verify count bytes (address + 1) memory := by
  simp [Readable, Memory.readAll_succ]
  tauto

theorem readable_load {count : Nat} {bytes : List UInt8} {address : UInt16} {memory : Memory} :
    Readable false count bytes address memory ↔ count ≤ bytes.length := by
  simp [Readable]

/-! The induction follows the loader, whose registers carry the address and the parity so far. A
byte that is loaded changes memory, but what is loaded is readable whatever memory holds. -/

theorem transfer_of_readable {verify : Bool} {count : Nat} {bytes : List UInt8}
    {registers : Registers} {memory : Memory}
    (readable : Readable verify count bytes registers.ix memory) :
    (transfer verify count bytes registers memory).1 =
      finish (acceptAll registers (bytes.take count)) (bytes.drop count).head? := by
  fun_induction transfer verify count bytes registers memory with
  | case1 => rfl
  | case2 => exact absurd readable (not_readable_nil _ _ _ _)
  | case3 count bytes registers memory verifying existing induction =>
      exact induction (readable_cons.mp readable).2
  | case4 count byte bytes registers memory verifying existing differs =>
      exact absurd ((readable_cons.mp readable).1 verifying) differs
  | case5 count byte bytes registers memory loading induction =>
      rw [Bool.eq_false_iff.mpr loading, readable_load] at *
      exact induction (Nat.le_of_succ_le_succ readable)

theorem transfer_of_not_readable {verify : Bool} {count : Nat} {bytes : List UInt8}
    {registers : Registers} {memory : Memory}
    (unreadable : ¬ Readable verify count bytes registers.ix memory) :
    (transfer verify count bytes registers memory).1.pc = rejectAddress := by
  fun_induction transfer verify count bytes registers memory with
  | case1 => exact absurd (readable_zero ..) unreadable
  | case2 | case4 => rfl
  | case3 count bytes registers memory verifying existing induction =>
      apply induction
      intro rest
      exact unreadable (readable_cons.mpr ⟨fun _ => rfl, rest⟩)
  | case5 count byte bytes registers memory loading induction =>
      rw [Bool.eq_false_iff.mpr loading, readable_load] at *
      apply induction
      intro rest
      exact unreadable (Nat.succ_le_succ rest)

theorem carry_finish (registers : Registers) (parity : Option UInt8) :
    (finish registers parity).carry = true ↔ registers.h ^^^ parity.getD 0 = 0 := by
  have carry (a : UInt8) : compareWithOne a &&& Flag.carry ≠ 0 ↔ a = 0 := by
    revert a
    decide +kernel
  exact decide_eq_true_iff.trans (carry _)

/-! When a block has been loaded: the ROM goes on after the last byte, with the carry of success. -/

def Succeeded (registers : Registers) : Prop :=
  registers.pc = resumeAddress ∧ registers.carry = true

theorem not_succeeded_of_reject {registers : Registers} (rejected : registers.pc = rejectAddress) :
    ¬ Succeeded registers := by
  simp [Succeeded, rejected, rejectAddress, resumeAddress]

theorem checksum_take_succ (start : UInt8) (count : Nat) (bytes : List UInt8) :
    Tap.checksum start (bytes.take (count + 1)) =
      Tap.checksum start (bytes.take count) ^^^ (bytes.drop count).head?.getD 0 := by
  rw [List.take_add_one, Tap.Block.checksum_append, List.head?_drop]
  cases bytes[count]? <;> simp [Tap.checksum]

theorem transfer_succeeded_iff {verify : Bool} {count : Nat} {bytes : List UInt8}
    {registers : Registers} {memory : Memory} :
    Succeeded (transfer verify count bytes registers memory).1 ↔
      Readable verify count bytes registers.ix memory ∧
        Tap.checksum registers.h (bytes.take (count + 1)) = 0 := by
  by_cases readable : Readable verify count bytes registers.ix memory
  · have resumes (parity : Option UInt8) (registers : Registers) :
        (finish registers parity).pc = resumeAddress := rfl
    simp [Succeeded, transfer_of_readable readable, resumes, carry_finish, readable, acceptAll_h,
      checksum_take_succ]
  · have rejected := transfer_of_not_readable readable
    simp [not_succeeded_of_reject rejected, readable]

theorem load_of_flag {flag : UInt8} {bytes : List UInt8} {registers : Registers} {memory : Memory}
    (expected : flag = registers.aAlternate) :
    load (flag :: bytes) registers memory =
      transfer (Verifying registers) registers.de.toNat bytes
        { registers.exchangeAF with h := registers.aAlternate } memory :=
  if_pos expected

theorem load_of_other {block : List UInt8} {registers : Registers} {memory : Memory}
    (other : block.head? ≠ some registers.aAlternate) :
    load block registers memory =
      (reject { registers.exchangeAF with a := registers.aAlternate ^^^ registers.l }, memory) := by
  cases block with
  | nil => rfl
  | cons flag bytes => exact if_neg fun expected => other (congrArg some expected)

theorem load_succeeded_iff {block : List UInt8} {registers : Registers} {memory : Memory} :
    Succeeded (load block registers memory).1 ↔
      block.head? = some registers.aAlternate ∧
        Readable (Verifying registers) registers.de.toNat block.tail registers.ix memory ∧
          Tap.checksum 0 (block.take (registers.de.toNat + 2)) = 0 := by
  by_cases expected : block.head? = some registers.aAlternate
  · rcases List.head?_eq_some_iff.mp expected with ⟨bytes, rfl⟩
    rw [load_of_flag rfl, transfer_succeeded_iff]
    simp [Registers.exchangeAF, Tap.checksum]
  · have rejected : (load block registers memory).1.pc = rejectAddress := by
      rw [load_of_other expected]
      rfl
    simp [not_succeeded_of_reject rejected, expected]

/-- What the loader in ROM needs to succeed: the flag that it expects, all bytes, in memory
already if they are to be verified, and a parity byte with which everything cancels out. -/
structure Accepts (block : List UInt8) (registers : Registers) (memory : Memory) : Prop where
  flag : block.head? = some registers.aAlternate
  long : registers.de.toNat + 2 ≤ block.length
  same : Verifying registers →
    memory.readAll registers.ix registers.de.toNat = block.tail.take registers.de.toNat
  parity : Tap.checksum 0 (block.take (registers.de.toNat + 2)) = 0

theorem checksum_take_concat_zero (start : UInt8) (bytes : List UInt8) (count : Nat) :
    Tap.checksum start ((bytes ++ [0]).take count) = Tap.checksum start (bytes.take count) := by
  rw [List.take_append, Tap.Block.checksum_append]
  cases count - bytes.length <;> simp [Tap.checksum]

theorem load_succeeded_iff_accepts {block : List UInt8} {registers : Registers} {memory : Memory} :
    Succeeded (load block registers memory).1 ↔
      Accepts block registers memory ∨
        block.length = registers.de.toNat + 1 ∧ Accepts (block ++ [0]) registers memory := by
  rw [load_succeeded_iff]
  constructor
  · rintro ⟨flag, ⟨enough, same⟩, parity⟩
    rcases List.head?_eq_some_iff.mp flag with ⟨bytes, rfl⟩
    rw [decide_eq_true_iff] at same
    rw [List.tail_cons] at enough same
    by_cases long : registers.de.toNat + 1 ≤ bytes.length
    · exact Or.inl ⟨flag, Nat.succ_le_succ long, same, parity⟩
    · have exact : bytes.length = registers.de.toNat := by omega
      refine Or.inr ⟨congrArg (· + 1) exact, rfl, ?_, ?_, ?_⟩
      · simp [exact]
      · intro verifying
        simpa [← exact] using same verifying
      · rwa [checksum_take_concat_zero]
  · rintro (⟨flag, long, same, parity⟩ | ⟨length, flag, long, same, parity⟩)
    · refine ⟨flag, ⟨?_, ?_⟩, parity⟩
      · rw [List.length_tail]
        omega
      · rwa [decide_eq_true_iff]
    · cases block with
      | nil => exact absurd length (by simp)
      | cons first bytes =>
          have exact : bytes.length = registers.de.toNat := Nat.succ.inj length
          rw [checksum_take_concat_zero] at parity
          refine ⟨flag, ⟨Nat.le_of_eq exact.symm, ?_⟩, parity⟩
          rw [decide_eq_true_iff]
          intro verifying
          simpa [← exact] using same verifying

end Loader

namespace TapeDeck

variable {ρ : Type}

/-- A block loaded at once succeeds as it does from its signal, only that a block without its
parity byte, which the loader in ROM would wait for, counts as good if zero would be. -/
theorem fastLoad_succeeded_iff {deck next : TapeDeck ρ} {player : Player} {block : List UInt8}
    {tact : Nat} {registers after : Registers} {memory left : Memory}
    (playing : deck.session = .load player)
    (current : player.currentBlock.bind TapeBlock.romData = some block)
    (loaded : deck.fastLoad tact registers memory = some (next, after, left)) :
    Loader.Succeeded after ↔
      Loader.Accepts block registers memory ∨
        block.length = registers.de.toNat + 1 ∧
          Loader.Accepts (block ++ [0]) registers memory := by
  unfold fastLoad at loaded
  simp only [playing, current] at loaded
  rcases Option.bind_eq_some_iff.mp loaded with ⟨advanced, -, loaded⟩
  cases loaded
  exact Loader.load_succeeded_iff_accepts

/-! A deck at a block, in the silence after its signal. -/

def atBlock (bytes : List UInt8) : TapeDeck TapeShelf where
  session := .load
    { blocks := [.ofBytes bytes 1000]
      position := some (.playing (.ofBytes bytes 1000) [] .pause 1000) }

theorem fastLoad_atBlock (bytes : List UInt8) (registers : Registers) (memory : Memory) :
    ∃ next, (atBlock bytes).fastLoad 500 registers memory =
      some (next, Loader.load bytes registers memory) :=
  ⟨_, rfl⟩

def loadOneByte : Registers :=
  { e := 1, aAlternate := 0xFF, fAlternate := Flag.carry, ix := 0x8000 }

theorem fastLoad_succeeded_iff_oneByte :
    ∃ next after left,
      (atBlock [0xFF, 0xAA, 0x55]).fastLoad 500 loadOneByte Memory.empty =
          some (next, after, left) ∧
        Loader.Succeeded after := by
  have accepts : Loader.Accepts [0xFF, 0xAA, 0x55] loadOneByte Memory.empty :=
    ⟨rfl, by decide, fun verifying => absurd verifying (by decide), by decide⟩
  rcases fastLoad_atBlock [0xFF, 0xAA, 0x55] loadOneByte Memory.empty with ⟨next, loaded⟩
  have succeeded := fastLoad_succeeded_iff rfl rfl loaded
  exact ⟨next, _, _, loaded, succeeded.mpr (Or.inl accepts)⟩

/-- The block ends after its only byte. The ROM would wait for a parity byte in vain. -/
theorem fastLoad_succeeds_without_parity :
    ∃ next after left,
      (atBlock [0xFF, 0xFF]).fastLoad 500 loadOneByte Memory.empty = some (next, after, left) ∧
        Loader.Succeeded after ∧ [0xFF, 0xFF].length < loadOneByte.de.toNat + 2 := by
  rcases fastLoad_atBlock [0xFF, 0xFF] loadOneByte Memory.empty with ⟨next, loaded⟩
  exact ⟨next, _, _, loaded, ⟨rfl, rfl⟩, by decide⟩

end TapeDeck

end ZxSpectrum
