namespace ZxSpectrum.Text

/-! Hexadecimal numerals with upper-case digits and a `0x` in front, the form in which the
machine shows bytes and addresses. -/

namespace Hexadecimal

def digit (value : Nat) : Char :=
  if value < 10 then Char.ofNat ('0'.toNat + value) else Char.ofNat ('A'.toNat + value - 10)

/-- The last `width` digits of a value, most significant first. -/
def digits : (width : Nat) → Nat → List Char
  | 0, _ => []
  | width + 1, value => digits width (value / 16) ++ [digit (value % 16)]

theorem length_digits (width value : Nat) : (digits width value).length = width := by
  induction width generalizing value with
  | zero => rfl
  | succ width induction => simp [digits, induction]

def byte (value : UInt8) : String :=
  "0x" ++ String.ofList (digits 2 value.toNat)

def word (value : UInt16) : String :=
  "0x" ++ String.ofList (digits 4 value.toNat)

/-! Reading digits of either case. -/

def value? (character : Char) : Option Nat :=
  if '0' ≤ character ∧ character ≤ '9' then some (character.toNat - '0'.toNat)
  else if 'A' ≤ character ∧ character ≤ 'F' then some (character.toNat - 'A'.toNat + 10)
  else if 'a' ≤ character ∧ character ≤ 'f' then some (character.toNat - 'a'.toNat + 10)
  else none

def bytesAfter? (front : Array UInt8) : List Char → Option (Array UInt8)
  | [] => some front
  | [_] => none
  | high :: low :: rest => do
    let high ← value? high
    let low ← value? low
    bytesAfter? (front.push (UInt8.ofNat (16 * high + low))) rest

def bytes? (characters : List Char) : Option (List UInt8) :=
  (bytesAfter? #[] characters).map Array.toList

end Hexadecimal

end ZxSpectrum.Text
