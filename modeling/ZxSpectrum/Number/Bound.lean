namespace ZxSpectrum

/-! Counters of the machine are natural numbers. Where a counter lives in a register of
fixed width, a value that the register cannot hold is a fault: the computation has no result. -/

namespace Bound

def word (value : Nat) : Option Nat :=
  if value < UInt32.size then some value else none

def long (value : Nat) : Option Nat :=
  if value < UInt64.size then some value else none

theorem word_eq_some_iff {value result : Nat} :
    word value = some result ↔ value < UInt32.size ∧ value = result := by
  unfold word
  split <;> simp <;> omega

theorem long_eq_some_iff {value result : Nat} :
    long value = some result ↔ value < UInt64.size ∧ value = result := by
  unfold long
  split <;> simp <;> omega

end Bound

end ZxSpectrum
