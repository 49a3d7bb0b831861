import ZxSpectrum.Number.Numeral

namespace ZxSpectrum

/-! Binary interchange formats. A number is held as the bits of its sign, its biased exponent
and its fraction. Exact values are fractions of natural numbers; the format takes the nearest
value it has and, of two equally near, the one whose last bit is zero. -/

structure BinaryFormat where
  /-- The bits of a significand, the hidden one included. -/
  precision : Nat
  /-- The bits of the exponent field. -/
  exponentBits : Nat

namespace BinaryFormat

def single : BinaryFormat := ⟨24, 8⟩

def double : BinaryFormat := ⟨53, 11⟩

def topField (format : BinaryFormat) : Nat :=
  1 <<< format.exponentBits - 1

/-- Numbers with an exponent field `e`, not zero, and a significand `s` have the value
`s * 2 ^ (e - offset)`. -/
def offset (format : BinaryFormat) : Nat :=
  1 <<< (format.exponentBits - 1) - 2 + format.precision

def signWeight (format : BinaryFormat) : Nat :=
  1 <<< (format.precision - 1 + format.exponentBits)

def sign (format : BinaryFormat) (negative : Bool) : Nat :=
  if negative then format.signWeight else 0

def infinity (format : BinaryFormat) : Nat :=
  format.topField <<< (format.precision - 1)

/-! The quotient rounded to the nearest integer, or the even one of two. -/

def roundQuotient (numerator denominator : Nat) : Nat :=
  let quotient := numerator / denominator
  let twice := 2 * (numerator % denominator)
  if twice < denominator then quotient
  else if denominator < twice then quotient + 1
  else quotient + quotient % 2

/-- The exponent field under which a positive fraction is rounded: the smallest field, but at
least one, whose significands reach up to it. -/
def field (format : BinaryFormat) (numerator denominator : Nat) : Nat :=
  let guess := numerator.log2 + format.offset + 1 - denominator.log2 - format.precision
  let fits (field : Nat) : Bool :=
    numerator <<< format.offset < denominator <<< (format.precision + field)
  if 2 ≤ guess ∧ fits (guess - 1) then guess - 1
  else if fits guess ∧ 1 ≤ guess then guess
  else guess + 1

/-- The bits, without a sign, of the number nearest to a fraction. Too large a fraction gives
infinity. A significand that is rounded up to the next power of two carries into the field. -/
def roundMagnitude (format : BinaryFormat) (numerator denominator : Nat) : Nat :=
  if numerator = 0 then 0
  else
    let field := format.field numerator denominator
    let significand :=
      roundQuotient (numerator <<< format.offset) (denominator <<< field)
    let bits := (field - 1) <<< (format.precision - 1) + significand
    min bits format.infinity

def round (format : BinaryFormat) (negative : Bool) (numerator denominator : Nat) : Nat :=
  format.sign negative + format.roundMagnitude numerator denominator

/-! Decimal numbers. Those far outside of the range of the 64-bit format need no exact power. -/

def ofDecimal (format : BinaryFormat) (negative : Bool) (digits : Nat) (exponent : Int) : Nat :=
  if digits = 0 then format.sign negative
  else
    let lowest := exponent + digits.log2 * 3 / 10
    let highest := exponent + digits.log2 / 3 + 1
    if 400 < lowest then format.sign negative + format.infinity
    else if highest < -400 then format.sign negative
    else if 0 ≤ exponent then format.round negative (digits * Nat.pow 10 exponent.toNat) 1
    else format.round negative digits (Nat.pow 10 (-exponent).toNat)

/-- The number of leading digits that decide how a row of decimal digits is rounded. A point
halfway between two numbers of the 64-bit format has fewer digits, so the digits after them
matter only in so far as one of them is not zero. -/
def decisiveDigits : Nat := 800

def ofDigits (format : BinaryFormat) (negative : Bool) (digits : List Nat) (exponent : Int) :
    Nat :=
  let digits := digits.dropWhile (· = 0)
  let rest := digits.drop decisiveDigits
  let last := if rest.all (· = 0) then 0 else 1
  format.ofDecimal negative (Numeral.value 10 (digits.take decisiveDigits ++ [last]))
    (exponent + rest.length - 1)

/-- The bits in another format of the number that some bits stand for. What is not a number
stays so, with the first bits of its fraction. -/
def convert (source target : BinaryFormat) (bits : Nat) : Nat :=
  let negative := source.signWeight ≤ bits
  let magnitude := bits % source.signWeight
  let field := magnitude >>> (source.precision - 1)
  let fraction := magnitude % 1 <<< (source.precision - 1)
  if field = source.topField then
    target.sign negative + target.infinity +
      (if fraction = 0 then 0
        else fraction >>> (source.precision - target.precision)
          ||| 1 <<< (target.precision - 2))
  else
    let significand := if field = 0 then fraction else fraction + 1 <<< (source.precision - 1)
    target.round negative (significand <<< max field 1) (1 <<< source.offset)

end BinaryFormat

end ZxSpectrum
