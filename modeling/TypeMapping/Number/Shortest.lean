import TypeMapping.Number.Binary64

/-!
# The shortest decimal numeral of a number

A number is written with the fewest digits that read back as the same number; of two numerals of that
length the nearer one is taken. A positional numeral has at least one digit on either side of the point,
a scientific one has exactly one digit before it.

* `Binary64.Interval`    : the decimals that read back as a given number;
* `Binary64.shortest`    : the digits and the power of ten of the shortest numeral;
* `Binary64.Tie`         : which of two equally near numerals is taken;
* `Binary64.Layout`      : this choice, and which numerals are positional;
* `Binary64.text`        : the numeral.
-/

namespace TypeMapping.Binary64

/-- The rational numbers around `value / unit` that round to it. -/
structure Interval where
  low : Nat
  value : Nat
  high : Nat
  unit : Nat
  /-- Do the ends round to the value too? -/
  closed : Bool

/-- What rounds to `m · 2^e`. The gap below a power of two is half the gap above it. -/
def interval (m : Nat) (e : Int) : Interval :=
  let scale (a : Nat) : Nat := shift a (e - 2)
  let half := if m = Nat.pow 2 52 ∧ minExponent < e then 1 else 2
  { low := scale (4 * m - half)
    value := scale (4 * m)
    high := scale (4 * m + 2)
    unit := shift 1 (2 - e)
    closed := m % 2 = 0 }

/-- Does `digits · 10^j` round to the value? -/
def Interval.contains (i : Interval) (digits : Nat) (j : Int) : Bool :=
  let x := digits * Nat.pow 10 j.toNat * i.unit
  let ten := Nat.pow 10 (-j).toNat
  if i.closed then i.low * ten ≤ x && x ≤ i.high * ten else i.low * ten < x && x < i.high * ten

/-- The power of ten just above the value, for a positive value. -/
def Interval.magnitude (i : Interval) : Int :=
  (Nat.toDigits 10 (i.value * Nat.pow 10 400 / i.unit)).length - 400

/-- Which of two equally near numerals is taken. -/
inductive Tie
  /-- The upper one. -/
  | up
  /-- The one whose last digit is even. -/
  | even
  deriving DecidableEq, Repr

/-- The integer nearest to `num / den`. -/
def Tie.round (tie : Tie) (num den : Nat) : Nat :=
  let below := num / den
  let twice := 2 * (num % den)
  if twice < den ∨ (twice = den ∧ tie = even ∧ below % 2 = 0) then below else below + 1

/-- A numeral with at most `count` digits that rounds to the value, if there is one, and the nearer of
two. -/
def Interval.numeral? (tie : Tie) (i : Interval) (count : Nat) : Option (Nat × Int) :=
  let j : Int := i.magnitude - count
  let num := i.value * Nat.pow 10 (-j).toNat
  let den := i.unit * Nat.pow 10 j.toNat
  let below := num / den
  let nearer := tie.round num den
  let other := if nearer = below then below + 1 else below
  let short (digits : Nat) : Nat × Int := if digits = Nat.pow 10 count then (1, j + count) else (digits, j)
  if i.contains nearer j then some (short nearer)
  else if i.contains other j then some (short other)
  else none

/-- The digits and the power of ten of the shortest numeral; 17 digits always suffice. -/
def shortest (tie : Tie) (m : Nat) (e : Int) : Nat × Int :=
  if m = 0 then (0, 0)
  else ((List.range' 1 17).findSome? ((interval m e).numeral? tie)).getD (0, 0)

/-- `digits · 10^j` in positional notation, with at least one digit on either side of the point. -/
def positional (digits : Nat) (j : Int) : String :=
  let ds := Nat.toDigits 10 digits ++ List.replicate j.toNat '0'
  let places := (-j).toNat
  let ds := List.replicate (places + 1 - ds.length) '0' ++ ds
  let fraction := ds.drop (ds.length - places)
  String.ofList (ds.take (ds.length - places) ++ '.' :: if fraction.isEmpty then ['0'] else fraction)

/-- `digits · 10^j` in scientific notation. The exponent has a sign and no leading zeros; a single digit
stands without a point. -/
def scientific (digits : Nat) (j : Int) : String :=
  let ds := Nat.toDigits 10 digits
  let e : Int := ds.length + j - 1
  String.ofList (ds.take 1 ++ if ds.length = 1 then [] else '.' :: ds.drop 1) ++
    (if e < 0 then "e-" else "e+") ++ toString e.natAbs

/-- How a number is written. -/
structure Layout where
  tie : Tie
  /-- Is a numeral positional if its leading digit counts this power of ten? The others are scientific. -/
  isPositional : Int → Bool

/-- `digits · 10^j` as the layout has it. -/
def Layout.numeral (l : Layout) (digits : Nat) (j : Int) : String :=
  if l.isPositional ((Nat.toDigits 10 digits).length + j - 1) then positional digits j
  else scientific digits j

/-- The number as messages show it. -/
def text (l : Layout) : Binary64 → String
  | nan => "NaN"
  | infinite negative => (if negative then "-" else "") ++ "inf"
  | finite negative m e =>
    let (digits, j) := shortest l.tie m e
    (if negative then "-" else "") ++ l.numeral digits j

end TypeMapping.Binary64
