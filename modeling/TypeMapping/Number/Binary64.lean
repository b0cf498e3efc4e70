/-!
# Numbers of 64 bits in binary floating point

* `Binary64`           : not a number, an infinity, or a signed multiple of a power of two;
* `Binary64.ofRatio`   : the number nearest to a quotient, a tie going to the even mantissa;
* `Binary64.ofDecimal` : the number nearest to a decimal numeral;
* `Binary64.mul`, `Binary64.div` : products and quotients of finite numbers, rounded.
-/

namespace TypeMapping

/-- A number in binary floating point. A finite number has a mantissa below `2^53` and an exponent
between `-1074` and `971`; above the least exponent its mantissa is at least `2^52`. -/
inductive Binary64
  | nan
  | infinite (negative : Bool)
  | finite (negative : Bool) (mantissa : Nat) (exponent : Int)
  deriving DecidableEq, Repr

namespace Binary64

/-- The least exponent of a finite number. -/
def minExponent : Int := -1074

/-- The greatest exponent of a finite number. -/
def maxExponent : Int := 971

/-- `a · 2^e` for a positive `e`, and `a` itself for any other. A quotient `a · 2^e / b` is
`shift a e / shift b (-e)`. -/
def shift (a : Nat) (e : Int) : Nat := a * Nat.pow 2 e.toNat

/-- The integer nearest to `num / den`, a tie going to the even one. -/
def roundQuotient (num den : Nat) : Nat :=
  let q := num / den
  let twice := 2 * (num % den)
  if twice < den then q
  else if den < twice then q + 1
  else if q % 2 = 0 then q else q + 1

/-- Is the number an infinity? -/
def isInfinite : Binary64 → Bool
  | infinite _ => true
  | _ => false

/-- The number nearest to `num / den`, for a positive `den`. -/
def ofRatio (negative : Bool) (num den : Nat) : Binary64 :=
  if num = 0 then finite negative 0 minExponent
  else
    let rough : Int := num.log2 - den.log2 - 53
    let fits := shift num (-rough) / shift den rough < Nat.pow 2 53
    let e := max minExponent (if fits then rough else rough + 1)
    let m := roundQuotient (shift num (-e)) (shift den e)
    let (m, e) := if m = Nat.pow 2 53 then (Nat.pow 2 52, e + 1) else (m, e)
    if maxExponent < e then infinite negative else finite negative m e

/-- The number nearest to `digits · 10^e`. Numerals that are out of all range are not computed. -/
def ofDecimal (negative : Bool) (digits : Nat) (e : Int) : Binary64 :=
  let length : Int := (Nat.toDigits 10 digits).length
  if digits = 0 ∨ length + e < -400 then finite negative 0 minExponent
  else if 400 < length + e then infinite negative
  else ofRatio negative (digits * Nat.pow 10 e.toNat) (Nat.pow 10 (-e).toNat)

/-- The product, rounded, where both are finite. -/
def mul : Binary64 → Binary64 → Binary64
  | finite s a e, finite t b f =>
    ofRatio (s != t) (shift (a * b) (e + f)) (shift 1 (-(e + f)))
  | x, _ => x

/-- The quotient, rounded, where both are finite and the divisor is not zero. -/
def div : Binary64 → Binary64 → Binary64
  | finite s a e, finite t b f =>
    ofRatio (s != t) (shift a (e - f)) (shift b (f - e))
  | x, _ => x

end Binary64

end TypeMapping
