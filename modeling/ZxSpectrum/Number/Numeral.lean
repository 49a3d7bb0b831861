namespace ZxSpectrum

/-! Rows of digits in some base, the most significant first, and their values. -/

namespace Numeral

def value (base : Nat) (digits : List Nat) : Nat :=
  digits.foldl (base * · + ·) 0

/-- The value of the digits up to the one that takes it past a limit. However long the row is,
the value stays small. -/
def valueWithin (base limit : Nat) (digits : List Nat) : Nat :=
  digits.foldl (fun value digit => if value ≤ limit then base * value + digit else value) 0

theorem valueWithin_of_le {base limit : Nat} {digits : List Nat} (positive : 0 < base)
    (within : value base digits ≤ limit) : valueWithin base limit digits = value base digits := by
  have grows (value digit : Nat) : value ≤ base * value + digit :=
    Nat.le_add_right_of_le (Nat.le_mul_of_pos_left value positive)
  have start_le (digits : List Nat) (start : Nat) : start ≤ digits.foldl (base * · + ·) start := by
    induction digits generalizing start with
    | nil => simp
    | cons digit digits induction => exact Nat.le_trans (grows start digit) (induction _)
  have agree (digits : List Nat) (start : Nat)
      (within : digits.foldl (base * · + ·) start ≤ limit) :
      digits.foldl (fun value digit => if value ≤ limit then base * value + digit else value) start
        = digits.foldl (base * · + ·) start := by
    induction digits generalizing start with
    | nil => rfl
    | cons digit digits induction =>
      have inside : start ≤ limit :=
        Nat.le_trans (start_le (digit :: digits) start) within
      simp [inside, induction _ within]
  exact agree digits 0 within

end Numeral

end ZxSpectrum
