import Mathlib
import ZxSpectrum.Memory

namespace ZxSpectrum.Memory

/-! What is read after bytes have been written one after another. Addresses wrap, so that the offset
of an address from the first one tells which byte has been written there, if any. -/

def InRam (address : UInt16) : Prop :=
  0x4000 ≤ address.toNat

instance (address : UInt16) : Decidable (InRam address) :=
  inferInstanceAs (Decidable (_ ≤ _))

theorem read_empty (address : UInt16) : empty.read address = 0 := by
  simp [read, empty, Vector.get_eq_getElem]

theorem read_write (memory : Memory) (address : UInt16) (value : UInt8) (other : UInt16) :
    (memory.write address value).read other =
      if InRam other ∧ other = address then value else memory.read other := by
  unfold write InRam
  split_ifs with inRom written written
  · rcases written with ⟨inRam, rfl⟩
    omega
  · rfl
  · rcases written with ⟨inRam, rfl⟩
    simp [read, inRom, Vector.get_eq_getElem]
  · unfold read
    split_ifs with otherInRom
    · rfl
    · have apart : address.toNat ≠ other.toNat := by
        intro same
        exact written ⟨by omega, UInt16.toNat_inj.mp same.symm⟩
      have offsets : address.toNat - 0x4000 ≠ other.toNat - 0x4000 := by omega
      simp [Vector.get_eq_getElem, Vector.getElem_set_ne, offsets]

theorem toNat_sub_of_ne {address other : UInt16} (apart : other ≠ address) :
    (other - address).toNat = (other - (address + 1)).toNat + 1 := by
  have different : other.toNat ≠ address.toNat := fun same => apart (UInt16.toNat_inj.mp same)
  have otherBound := other.toNat_lt
  have bound := address.toNat_lt
  simp only [UInt16.toNat_sub, UInt16.toNat_add, UInt16.toNat_one]
  omega

/-! Rows of bytes. Their addresses wrap once at most, so that no byte is written over another. -/

theorem read_writeAll (memory : Memory) (address : UInt16) {bytes : List UInt8}
    (short : bytes.length ≤ 65536) (other : UInt16) :
    (memory.writeAll address bytes).read other =
      if InRam other then (bytes[(other - address).toNat]?).getD (memory.read other)
      else memory.read other := by
  induction bytes generalizing memory address with
  | nil => simp [writeAll]
  | cons byte rest induction =>
      rw [List.length_cons] at short
      rw [writeAll, induction _ _ (Nat.le_of_succ_le short), read_write]
      by_cases first : other = address
      · subst first
        have beyond : rest[65535]? = none := List.getElem?_eq_none (Nat.le_of_succ_le_succ short)
        simp [beyond]
      · simp [toNat_sub_of_ne first, first]

theorem read_writeAll_inside (memory : Memory) (address : UInt16) {bytes : List UInt8}
    (short : bytes.length ≤ 65536) {offset : Nat} {byte : UInt8}
    (there : bytes[offset]? = some byte) (inRam : InRam (address + UInt16.ofNat offset)) :
    (memory.writeAll address bytes).read (address + UInt16.ofNat offset) = byte := by
  have within := (List.getElem?_eq_some_iff.mp there).1
  have place : (address + UInt16.ofNat offset - address).toNat = offset := by
    simp
    omega
  rw [read_writeAll memory address short, if_pos inRam, place, there, Option.getD_some]

theorem read_writeAll_outside (memory : Memory) (address : UInt16) {bytes : List UInt8}
    (short : bytes.length ≤ 65536) {other : UInt16}
    (outside : InRam other → ∀ offset < bytes.length, other ≠ address + UInt16.ofNat offset) :
    (memory.writeAll address bytes).read other = memory.read other := by
  rw [read_writeAll memory address short]
  split_ifs with inRam
  · have beyond : bytes[(other - address).toNat]? = none := by
      rw [List.getElem?_eq_none_iff]
      by_contra within
      have apart := outside inRam _ (Nat.not_le.mp within)
      simp at apart
    rw [beyond, Option.getD_none]
  · rfl

theorem board_writeAll (memory : Memory) (address : UInt16) (bytes : List UInt8) :
    (memory.writeAll address bytes).rom = memory.rom ∧
      (memory.writeAll address bytes).page = memory.page := by
  have written (memory : Memory) (address : UInt16) (byte : UInt8) :
      (memory.write address byte).rom = memory.rom ∧
        (memory.write address byte).page = memory.page := by
    unfold write
    split <;> exact ⟨rfl, rfl⟩
  induction bytes generalizing memory address with
  | nil => exact ⟨rfl, rfl⟩
  | cons byte rest induction =>
      rcases induction (memory.write address byte) (address + 1) with ⟨rom, page⟩
      exact ⟨rom.trans (written _ _ _).1, page.trans (written _ _ _).2⟩

theorem readAll_writeAll (memory : Memory) (address : UInt16) {bytes : List UInt8}
    (short : bytes.length ≤ 65536)
    (inRam : ∀ offset < bytes.length, InRam (address + UInt16.ofNat offset)) :
    (memory.writeAll address bytes).readAll address bytes.length = bytes := by
  apply List.ext_getElem
  · simp [readAll]
  · intro offset _ within
    have there := List.getElem?_eq_getElem within
    simpa [readAll] using read_writeAll_inside memory address short there (inRam offset within)

/-- Bytes have been written from an address on, and nothing else has changed. Of those that would
come to lie in ROM nothing remains. -/
structure Written (address : UInt16) (bytes : List UInt8) (before after : Memory) : Prop where
  inside : ∀ offset < bytes.length, InRam (address + UInt16.ofNat offset) →
    bytes[offset]? = some (after.read (address + UInt16.ofNat offset))
  outside : ∀ other,
    (InRam other → ∀ offset < bytes.length, other ≠ address + UInt16.ofNat offset) →
    after.read other = before.read other
  rom : after.rom = before.rom
  page : after.page = before.page

theorem written_writeAll (memory : Memory) (address : UInt16) {bytes : List UInt8}
    (short : bytes.length ≤ 65536) :
    Written address bytes memory (memory.writeAll address bytes) where
  inside offset within inRam := by
    have there := List.getElem?_eq_getElem within
    rw [there, read_writeAll_inside memory address short there inRam]
  outside _ := read_writeAll_outside memory address short
  rom := (memory.board_writeAll address bytes).1
  page := (memory.board_writeAll address bytes).2

end ZxSpectrum.Memory
