import Mathlib

/-!
# Numbers in text

What `std::from_chars` does for the types that a literal has.
-/

namespace DanDB.Core

/-- What `std::from_chars` reports. -/
inductive FromChars (α : Type) where
  | invalidArgument
  | resultOutOfRange
  /-- The value, and the characters behind it. -/
  | parsed (value : α) (rest : List Char)
deriving DecidableEq

/-- The number that decimal digits write, after `value`. -/
def decimalValue (value : Nat) (digits : List Char) : Nat :=
  digits.foldl (fun value ch => value * 10 + (ch.toNat - 48)) value

/-- Digits, and at least one. -/
def IsNumeral (digits : List Char) : Prop := digits ≠ [] ∧ ∀ ch ∈ digits, ch.isDigit = true

def fromCharsInt64 (text : List Char) : FromChars Int64 :=
  let negative : Bool := text.head? = some '-'
  let body := if negative then text.tail else text
  let digits := body.takeWhile Char.isDigit
  if digits = [] then .invalidArgument
  else
    let value : Int := if negative then -decimalValue 0 digits else decimalValue 0 digits
    if -2 ^ 63 ≤ value ∧ value < 2 ^ 63 then
      .parsed (Int64.ofInt value) (body.dropWhile Char.isDigit)
    else .resultOutOfRange

/-- The numeral of a number that fits is read as that number. -/
theorem fromCharsInt64_numeral {digits : List Char} (h : IsNumeral digits) :
    fromCharsInt64 digits =
      if decimalValue 0 digits < 2 ^ 63 then .parsed (Int64.ofInt (decimalValue 0 digits)) []
      else .resultOutOfRange := by
  obtain ⟨hne, hall⟩ := h
  have hsign : decide (digits.head? = some '-') = false := by
    refine decide_eq_false fun hhead => ?_
    have hdigit := hall '-' (List.mem_of_mem_head? hhead)
    exact absurd hdigit (by decide)
  have htake : digits.takeWhile Char.isDigit = digits := List.takeWhile_eq_self_iff.mpr hall
  have hdrop : digits.dropWhile Char.isDigit = [] := List.dropWhile_eq_nil_iff.mpr hall
  have hrange : (-2 ^ 63 ≤ (decimalValue 0 digits : Int) ∧ (decimalValue 0 digits : Int) < 2 ^ 63) ↔
      decimalValue 0 digits < 2 ^ 63 := by
    omega
  rw [fromCharsInt64]
  simp only [hsign, Bool.false_eq_true, if_false, htake, hdrop, if_neg hne, hrange]

/-! ## Doubles -/

/-- `numerator / denominator` is at least a power of two. -/
def powerLe (exponent : Int) (numerator denominator : Nat) : Bool :=
  denominator * 2 ^ exponent.toNat ≤ numerator * 2 ^ (-exponent).toNat

/-- The exponent of the last bit of the double closest to `numerator / denominator`. -/
def lastBitExponent (numerator denominator : Nat) : Int :=
  let estimate := (Nat.log 2 numerator : Int) - Nat.log 2 denominator
  let exponent := if powerLe estimate numerator denominator then estimate else estimate - 1
  max (exponent - 52) (-1074)

/-- The quotient, rounded to the nearest integer and to an even one in the middle. -/
def roundHalfEven (numerator denominator : Nat) : Nat :=
  let quotient := numerator / denominator
  let twice := 2 * (numerator % denominator)
  if twice > denominator ∨ twice = denominator ∧ quotient % 2 = 1 then quotient + 1 else quotient

/-- The bits of the double closest to `numerator / denominator`; there is none when
the number is too large, or so small that only zero is left of it. -/
def nearestDouble (numerator denominator : Nat) : Option UInt64 :=
  if numerator = 0 then some 0
  else
    let exponent := lastBitExponent numerator denominator
    let significand :=
      roundHalfEven (numerator * 2 ^ (-exponent).toNat) (denominator * 2 ^ exponent.toNat)
    let bits := (exponent + 1074).toNat * 2 ^ 52 + significand
    if significand = 0 ∨ bits ≥ 0x7FF0000000000000 then none else some (UInt64.ofNat bits)

/-- Of the general format, what a literal can be: digits with or without a decimal
point, but no sign and no exponent. -/
def fromCharsFloat64 (text : List Char) : FromChars UInt64 :=
  let integral := text.takeWhile Char.isDigit
  let behind := text.dropWhile Char.isDigit
  let point : Bool := behind.head? = some '.'
  let fraction := if point then behind.tail.takeWhile Char.isDigit else []
  let rest := if point then behind.tail.dropWhile Char.isDigit else behind
  if integral ++ fraction = [] then .invalidArgument
  else
    match nearestDouble (decimalValue 0 (integral ++ fraction)) (10 ^ fraction.length) with
    | some bits => .parsed bits rest
    | none => .resultOutOfRange

end DanDB.Core
