import ZxSpectrum.Proofs.Text.Trim
import ZxSpectrum.Tape.Deck

namespace ZxSpectrum

/-! A journal around a provider keeps every call that the provider gets. What the deck asks for
when it saves blocks is read from there. -/

inductive TapeCall
  | content
  | create
  | setName (name : String)
  | save (block : List UInt8)
  | finalize
deriving DecidableEq

structure Journal (ρ : Type) where
  provider : ρ
  /-- The calls, the latest one last. -/
  calls : List TapeCall := []

namespace Journal

variable {ρ : Type}

def pass (journal : Journal ρ) (call : TapeCall) (perform : ρ → α × ρ) : α × Journal ρ :=
  let (outcome, provider) := perform journal.provider
  (outcome, ⟨provider, journal.calls ++ [call]⟩)

instance [TapeProvider ρ] : TapeProvider (Journal ρ) where
  content journal := journal.pass .content TapeProvider.content
  create journal := journal.pass .create TapeProvider.create
  setName name journal := (journal.pass (.setName name) fun provider =>
    ((), TapeProvider.setName name provider)).2
  save block journal := journal.pass (.save block) (TapeProvider.save block)
  finalize journal := journal.pass .finalize TapeProvider.finalize

end Journal

/-! The first block of a session names the tape if it is a header. -/

def IsHeaderName (block : List UInt8) (name : String) : Prop :=
  Text.Trimmed (((block.drop 2).take 10).map fun byte => Char.ofNat byte.toNat) name.toList

def IsNaming : List (List UInt8) → List TapeCall → Prop
  | [], calls => calls = []
  | first :: _, calls =>
    if first.length = 19 then ∃ name, IsHeaderName first name ∧ calls = [.setName name]
    else calls = []

namespace TapeDeck

variable {ρ : Type} [TapeProvider ρ]

theorem isHeaderName_headerName (block : List UInt8) : IsHeaderName block (headerName block) := by
  unfold IsHeaderName headerName
  rw [String.toList_ofList]
  exact Text.trimmed_trim _

def storeAll (saved : Nat) : List (List UInt8) → ρ → ρ
  | [], provider => provider
  | block :: blocks, provider =>
    storeAll (saved + 1) blocks (store block (saved = 0) provider)

theorem storeAll_append (saved : Nat) (front back : List (List UInt8)) (provider : ρ) :
    storeAll saved (front ++ back) provider =
      storeAll (saved + front.length) back (storeAll saved front provider) := by
  induction front generalizing saved provider with
  | nil => rfl
  | cons block front induction =>
      rw [List.cons_append, storeAll, storeAll, induction, List.length_cons,
        Nat.add_right_comm saved 1, Nat.add_assoc saved]

theorem calls_store_first (block : List UInt8) (journal : Journal ρ) :
    ∃ naming, IsNaming [block] naming ∧
      (store block true journal).calls = journal.calls ++ naming ++ [.save block] := by
  by_cases header : block.length = 19
  · refine ⟨[.setName (headerName block)], ?_, ?_⟩
    · rw [IsNaming, if_pos header]
      exact ⟨_, isHeaderName_headerName block, rfl⟩
    · unfold store
      rw [if_pos ⟨rfl, header⟩]
      rfl
  · refine ⟨[], ?_, ?_⟩
    · rw [IsNaming, if_neg header]
    · unfold store
      rw [if_neg fun both => header both.2, List.append_nil]
      rfl

theorem calls_store_later (block : List UInt8) (journal : Journal ρ) :
    (store block false journal).calls = journal.calls ++ [.save block] :=
  rfl

theorem calls_storeAll_later (saved : Nat) (blocks : List (List UInt8)) (journal : Journal ρ) :
    (storeAll (saved + 1) blocks journal).calls = journal.calls ++ blocks.map .save := by
  induction blocks generalizing saved journal with
  | nil => exact (List.append_nil _).symm
  | cons block blocks induction =>
      rw [storeAll, induction, decide_eq_false (Nat.succ_ne_zero saved), calls_store_later,
        List.append_assoc]
      rfl

/-- Each block is saved once and in order, and only a header at the start names the tape. -/
theorem calls_storeAll (blocks : List (List UInt8)) (journal : Journal ρ) :
    ∃ naming, IsNaming blocks naming ∧
      (storeAll 0 blocks journal).calls = journal.calls ++ naming ++ blocks.map .save := by
  cases blocks with
  | nil => exact ⟨[], rfl, by simp [storeAll]⟩
  | cons block blocks =>
      rcases calls_store_first block journal with ⟨naming, named, calls⟩
      refine ⟨naming, named, ?_⟩
      rw [storeAll, calls_storeAll_later, decide_eq_true rfl, calls, List.append_assoc]
      rfl

end TapeDeck

end ZxSpectrum
