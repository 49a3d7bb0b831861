import ZxSpectrum.Tape.Provider

namespace ZxSpectrum

/-! A tape provider some of whose calls fail, for trying out what a host failure does to the
machine. -/

inductive ProviderCall
  | content
  /-- Reading an image that could be opened. -/
  | read
  | create
  | save
  | finalize
deriving DecidableEq

def ProviderCall.ofName : String → Option ProviderCall
  | "content" => some .content
  | "read" => some .read
  | "create" => some .create
  | "save" => some .save
  | "finalize" => some .finalize
  | _ => none

structure Unreliable (ρ : Type) where
  provider : ρ
  failing : List ProviderCall := []

namespace Unreliable

variable {ρ : Type}

/-- Makes a call, unless it is one of those that fail. A call that fails changes nothing. -/
def call (tape : Unreliable ρ) (name : ProviderCall)
    (perform : ρ → Except Error Unit × ρ) : Except Error Unit × Unreliable ρ :=
  if name ∈ tape.failing then (.error .io, tape)
  else
    let (outcome, provider) := perform tape.provider
    (outcome, { tape with provider })

variable [TapeProvider ρ]

def content (tape : Unreliable ρ) : Except Error (Option (List UInt8)) × Unreliable ρ :=
  if .content ∈ tape.failing then (.error .io, tape)
  else
    let (image, provider) := TapeProvider.content tape.provider
    match image with
    | .ok (some image) =>
      (if .read ∈ tape.failing then .error .io else .ok (some image), { tape with provider })
    | image => (image, { tape with provider })

instance : TapeProvider (Unreliable ρ) where
  content := content
  create tape := tape.call .create TapeProvider.create
  setName name tape := { tape with provider := TapeProvider.setName name tape.provider }
  save block tape := tape.call .save (TapeProvider.save block)
  finalize tape := tape.call .finalize TapeProvider.finalize

end Unreliable

end ZxSpectrum
