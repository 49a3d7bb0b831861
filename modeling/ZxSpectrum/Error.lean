import ZxSpectrum.Tape.Tap
import ZxSpectrum.Tape.Tzx

namespace ZxSpectrum

/-! Failures of the host side: reading files, configurations and images. What happens to a
running program is never a failure of this kind. -/

inductive Error
  /-- Reading or writing went wrong part way. -/
  | io
  /-- A file or directory could not be opened, read or created. -/
  | file
  | configuration
  | romSize (expected actual : Nat)
  | missingRom
  | tap (error : Tap.Error)
  | tzx (error : Tzx.Error)
deriving DecidableEq

/-- The text shown to a user, where it does not depend on the host. -/
def Error.message : Error → Option String
  | .io | .file | .configuration => none
  | .romSize expected actual => some s!"ROM image must be {expected} bytes, got {actual}"
  | .missingRom => some "no ROM image configured"
  | .tap error => some s!"malformed TAP image: {error.message}"
  | .tzx error => some s!"malformed TZX image: {error.message}"

theorem exists_of_bind_eq_ok {ε α β : Type} {first : Except ε α} {next : α → Except ε β}
    {result : β} (bound : first >>= next = .ok result) :
    ∃ middle, first = .ok middle ∧ next middle = .ok result := by
  cases first with
  | error error => exact nomatch bound
  | ok middle => exact ⟨middle, rfl, bound⟩

end ZxSpectrum
