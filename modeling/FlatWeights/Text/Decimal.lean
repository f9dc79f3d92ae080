import FlatWeights.Rounding
import FlatWeights.Size

/-!
The size of decimal numbers, as far as it decides whether a number of double precision can hold
them. `exceedsDouble` asks about the exact value. `significandOf` and `productExceedsDouble` ask
about a value that is formed in two steps: as many digits as a size can hold, and then a power of
ten, each rounded by itself.
-/

set_option autoImplicit false

namespace FlatWeights.Text

/-- The decimal number `digits * 10 ^ exponent` is so large that the nearest number of double
precision is infinity. The number of its digits decides unless it is close. -/
def exceedsDouble (digits : List Char) (exponent : Int) : Bool :=
  let n := Nat.ofDigitChars 10 digits 0
  let size : Int := (Nat.toDigits 10 n).length
  if n = 0 then false
  else if size + exponent ≤ 308 then false
  else if 310 ≤ size + exponent then true
  else doubleLimit * Nat.pow 10 (-exponent).toNat ≤ n * Nat.pow 10 exponent.toNat

/-! ## Two steps -/

/-- A size with digits appended to it, up to the first one with which it would be no size any more;
that digit and those after it are left over. -/
def appendDigits (n : Nat) : List Char → Nat × List Char
  | [] => (n, [])
  | d :: rest =>
    let longer := n * 10 + (d.toNat - '0'.toNat)
    if longer < Size.limit then appendDigits longer rest else (n, d :: rest)

/-- The significand of a number, from the digits before and after its point, and the exponent of
ten that goes with it. Digits before the point that do not fit count as zeros; after the point the
significand may grow again, and the digits that do not fit there are dropped. -/
def significandOf (whole fraction : List Char) : Nat × Int :=
  let (front, zeros) := appendDigits 0 whole
  let (significand, dropped) := appendDigits front fraction
  (significand, zeros.length - (fraction.length - dropped.length))

/-- The greatest exponent of a power of ten in double precision. -/
def maxTenExponent : Int := 308

/-- The product of two numbers of double precision, the one nearest to `significand` and the one
nearest to `10 ^ exponent`, is too large for double precision. A negative exponent divides, which
makes no number too large. -/
def productExceedsDouble (significand : Nat) (exponent : Int) : Bool :=
  if significand = 0 ∨ exponent < 0 then false
  else if maxTenExponent < exponent then true
  else doubleLimit ≤ nearestDouble significand * nearestDouble (Nat.pow 10 exponent.toNat)

/-! ## Parts of a number -/

/-- A sign and what follows it; no sign counts as a plus. -/
def signed : List Char → Bool × List Char
  | '+' :: rest => (false, rest)
  | '-' :: rest => (true, rest)
  | text => (false, text)

/-- A text, cut at the first character that passes a test. -/
def cutAt (isCut : Char → Bool) (text : List Char) : List Char × Option (List Char) :=
  match text.span (fun c => !isCut c) with
  | (front, _ :: rest) => (front, some rest)
  | (front, []) => (front, none)

end FlatWeights.Text
