import FlatWeights.Bytes
import FlatWeights.Checkpoint.Dtype
import FlatWeights.Rounding
import FlatWeights.Tensor

/-!
Decoding stored elements to single precision, on bit patterns alone. Elements of single precision
stay as they are; those of half precision and of the short format with eight bits of exponent are
widened exactly; those of double precision are rounded to the nearest, and to the even one of two
that are equally near.
-/

set_option autoImplicit false

namespace FlatWeights.Element

/-- The `count` bits of a pattern from the bit `low` on, as a number. -/
def bits (pattern low count : Nat) : Nat := pattern >>> low % 1 <<< count

/-- The pattern with a sign, the bits of the exponent, and those of the fraction. -/
def assemble (negative : Bool) (exponent fraction : Nat) : Element :=
  UInt32.ofNat (negative.toNat <<< 31 + exponent <<< 23 + fraction)

/-- The bits of the exponent that mark infinity and what is no number. -/
def specialExponent : Nat := 255

/-- The bit of the fraction that marks a quiet one of those that are no number. -/
def quietBit : Nat := 1 <<< 22

/-- The pattern of what is no number, with the given fraction as far as it has room, made quiet. -/
def quiet (negative : Bool) (fraction : Nat) : Element :=
  assemble negative specialExponent (fraction ||| quietBit)

/-- A number `fraction * 2 ^ -24` below the normal numbers of half precision, which is a normal one
of single precision: the highest bit of the fraction becomes the hidden one. -/
def ofSmallHalf (negative : Bool) (fraction : Nat) : Element :=
  if fraction = 0 then assemble negative 0 0
  else
    let top := fraction.log2
    assemble negative (127 - 24 + top) ((fraction - 1 <<< top) <<< (23 - top))

/-- The element with the pattern of a number of half precision. -/
def ofHalf (pattern : Nat) : Element :=
  let negative := pattern.testBit 15
  let exponent := bits pattern 10 5
  let fraction := bits pattern 0 10
  if exponent = 31 then
    if fraction = 0 then assemble negative specialExponent 0 else quiet negative (fraction <<< 13)
  else if exponent = 0 then ofSmallHalf negative fraction
  else assemble negative (exponent + (127 - 15)) (fraction <<< 13)

/-- The element with the pattern of a number of the short format, which is the front half of a
pattern of single precision. -/
def ofShort (pattern : Nat) : Element :=
  let negative := pattern.testBit 15
  let exponent := bits pattern 7 8
  let fraction := bits pattern 0 7
  if exponent = specialExponent ∧ fraction ≠ 0 then quiet negative (fraction <<< 16)
  else assemble negative exponent (fraction <<< 16)

/-- The element nearest to a number of double precision, given by its pattern. Rounding may carry
into the exponent, and from the largest finite pattern into that of infinity. -/
def ofDouble (pattern : Nat) : Element :=
  let negative := pattern.testBit 63
  let exponent := bits pattern 52 11
  let fraction := bits pattern 0 52
  if exponent = 2047 then
    if fraction = 0 then assemble negative specialExponent 0 else quiet negative (fraction >>> 29)
  -- too large for single precision, then its normal range, then zero and below the normal range
  else if 1023 + 127 < exponent then assemble negative specialExponent 0
  else if 1023 - 127 < exponent then
    assemble negative 0 (shiftRounded ((exponent - (1023 - 127)) <<< 52 + fraction) 29)
  else if exponent = 0 then assemble negative 0 0
  else assemble negative 0 (shiftRounded (1 <<< 52 + fraction) (29 + (1023 - 126) - exponent))

/-- The elements that bytes hold, if their type is one of numbers with a fraction. -/
def decode? (dtype : Dtype) (bytes : Bytes) : Option (List Element) :=
  match dtype with
  | .f32 => some ((LittleEndian.words 4 bytes).map UInt32.ofNat)
  | .f16 => some ((LittleEndian.words 2 bytes).map ofHalf)
  | .bf16 => some ((LittleEndian.words 2 bytes).map ofShort)
  | .f64 => some ((LittleEndian.words 8 bytes).map ofDouble)
  | _ => none

end FlatWeights.Element
