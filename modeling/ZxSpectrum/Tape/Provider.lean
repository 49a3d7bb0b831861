import ZxSpectrum.Error

namespace ZxSpectrum

/-! Where tapes come from and where saved blocks go. -/

/-- A source of tape images that also keeps what is saved. Every call may change the provider,
whether it succeeds or not. -/
class TapeProvider (ρ : Type) where
  /-- The bytes of the inserted image, if there is one. -/
  content : ρ → Except Error (Option (List UInt8)) × ρ
  create : ρ → Except Error Unit × ρ
  setName : String → ρ → ρ
  /-- Appends a block, from its flag to its checksum, to the current output file. -/
  save : List UInt8 → ρ → Except Error Unit × ρ
  finalize : ρ → Except Error Unit × ρ

end ZxSpectrum
