import Mathlib.Algebra.Group.Nat.Defs
import Mathlib.Data.Nat.Log

/-!
# Conversion between the IEEE binary formats

`narrow` is the conversion of a binary64 word to binary32 in the default rounding mode and
`widen` the exact conversion back, NaN payloads included: a NaN comes out quiet. Two binary32 words
are the same number if they are equal or both NaN.
-/

set_option autoImplicit false

namespace Ieee754

/-- Division by `2 ^ k`, to nearest, ties to even. -/
def shiftRightEven (x k : Nat) : Nat :=
  let q := x / 2 ^ k
  let r := x % 2 ^ k
  if 2 ^ k < 2 * r ∨ (2 ^ k = 2 * r ∧ q % 2 = 1) then q + 1 else q

/-- In the first finite case a carry out of the rounded significand moves into the exponent
field, up to the infinity; in the last one the result is subnormal. -/
def narrow (w : UInt64) : UInt32 :=
  let sign := w.toNat / 2 ^ 63
  let e := w.toNat / 2 ^ 52 % 2 ^ 11
  let m := w.toNat % 2 ^ 52
  let magnitude :=
    if e = 2047 then
      if m = 0 then 255 * 2 ^ 23 else 255 * 2 ^ 23 + 2 ^ 22 + m / 2 ^ 29 % 2 ^ 22
    else if 897 ≤ e then min (255 * 2 ^ 23) ((e - 897) * 2 ^ 23 + shiftRightEven (2 ^ 52 + m) 29)
    else if e = 0 then shiftRightEven m 925
    else shiftRightEven (2 ^ 52 + m) (926 - e)
  UInt32.ofNat (sign * 2 ^ 31 + magnitude)

def widen (w : UInt32) : UInt64 :=
  let sign := w.toNat / 2 ^ 31
  let e := w.toNat / 2 ^ 23 % 2 ^ 8
  let m := w.toNat % 2 ^ 23
  let magnitude :=
    if e = 255 then
      if m = 0 then 2047 * 2 ^ 52 else 2047 * 2 ^ 52 + 2 ^ 51 + m % 2 ^ 22 * 2 ^ 29
    else if e ≠ 0 then (e + 896) * 2 ^ 52 + m * 2 ^ 29
    else if m = 0 then 0
    else (m.log2 + 874) * 2 ^ 52 + (m - 2 ^ m.log2) * 2 ^ (52 - m.log2)
  UInt64.ofNat (sign * 2 ^ 63 + magnitude)

/-- One tenth loses its low bits on the way. -/
example : narrow 0x3FB999999999999A = 0x3DCCCCCD ∧ widen 0x3DCCCCCD = 0x3FB99999A0000000 := by
  decide

/-! ## NaN -/

/-- The exponent is all ones and the fraction is not zero. -/
def IsNaN (w : UInt32) : Prop := w.toNat / 2 ^ 23 % 2 ^ 8 = 255 ∧ w.toNat % 2 ^ 23 ≠ 0

instance : DecidablePred IsNaN := fun _ => instDecidableAnd

def SameNumber (x y : UInt32) : Prop := x = y ∨ (IsNaN x ∧ IsNaN y)

theorem SameNumber.refl (x : UInt32) : SameNumber x x := .inl rfl

end Ieee754
