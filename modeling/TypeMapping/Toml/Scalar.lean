import TypeMapping.Text.Digit
import TypeMapping.Toml.Value

/-!
# Bare values of a TOML document

Values that are written without quotes or brackets: booleans, integers, floating point numbers, dates
and times.

* `digits?`  : a run of digits, in which underscores may stand between digits;
* `integer?` : integers, in decimal or with a radix in front;
* `passesForInteger` : words that stand for an integer in the syntax, even if they write none;
* `float?`   : floating point numbers;
* `isDate`, `isTime`, `isMoment` : dates and times that exist;
* `scalar?`  : any bare value.
-/

namespace TypeMapping.Toml

open Text

/-! ## Numbers -/

/-- The digits of a numeral. Underscores may stand between two digits. -/
def digits? (radix : Nat) : List Char → Option (List Nat)
  | [] => none
  | [c] => (digit? radix c).map ([·])
  | c :: '_' :: cs => do
    let d ← digit? radix c
    let ds ← digits? radix cs
    some (d :: ds)
  | c :: cs => do
    let d ← digit? radix c
    let ds ← digits? radix cs
    some (d :: ds)

/-- The digits of a decimal numeral, which may stand behind a sign. It does not begin with a needless
zero. An underscore may follow the sign, and then any zeros. -/
def decimal? (signed : Bool) : List Char → Option (List Nat)
  | '_' :: cs => if signed then digits? 10 cs else none
  | cs => do
    let ds ← digits? 10 cs
    if ds.head? = some 0 ∧ ds.length ≠ 1 then none else some ds

/-- A sign, if there is one, and what follows it. -/
def sign : List Char → Option Bool × List Char
  | '+' :: cs => (some false, cs)
  | '-' :: cs => (some true, cs)
  | cs => (none, cs)

/-- An integer. Only decimal numerals have a sign. -/
def integer? : List Char → Option Int
  | '0' :: 'x' :: cs => do return (valueOf 16 (← digits? 16 cs) : Nat)
  | '0' :: 'o' :: cs => do return (valueOf 8 (← digits? 8 cs) : Nat)
  | '0' :: 'b' :: cs => do return (valueOf 2 (← digits? 2 cs) : Nat)
  | cs => do
    let (negative, cs) := sign cs
    let n : Nat := valueOf 10 (← decimal? negative.isSome cs)
    return if negative = some true then -n else n

/-- Does the integer fit into 64 bits? -/
def fitsInteger (i : Int) : Bool := -Int.ofNat (Nat.pow 2 63) ≤ i && i < Int.ofNat (Nat.pow 2 63)

/-- Is the character a hexadecimal digit? -/
def isHexDigit (c : Char) : Bool := (digit? 16 c).isSome

/-- Do hexadecimal digits stand on both sides of each underscore in the text that follows `before`? -/
def underscoresFit (before : Char) : List Char → Bool
  | [] => true
  | [c] => c != '_'
  | '_' :: c :: cs => isHexDigit before && isHexDigit c && underscoresFit c cs
  | c :: cs => underscoresFit c cs

/-- May the character stand in an integer? The marks of floating point numbers may not. -/
def isIntegerChar (c : Char) : Bool := c != '.' && c != 'e' && c != 'E'

/-- Does the word pass for an integer, whatever it writes? A radix does with nothing behind it. So do
decimal digits, the first of them no zero, that go on behind an underscore, and anything that goes on
behind a sign and an underscore. -/
def passesForInteger : List Char → Bool
  | ['0', 'x'] | ['0', 'o'] | ['0', 'b'] => true
  | cs =>
    let (negative, cs) := sign cs
    cs.all isIntegerChar &&
      match cs with
      | [] => false
      | '_' :: cs => negative.isSome && underscoresFit '0' ('_' :: cs)
      | c :: cs =>
        c.isDigit && c != '0' && (cs.dropWhile Char.isDigit).head? == some '_' && underscoresFit c cs

/-- The parts of a list before and behind the first element with a property. -/
def splitAtFirst {α : Type} (p : α → Bool) (xs : List α) : List α × Option (List α) :=
  match xs.dropWhile (!p ·) with
  | [] => (xs, none)
  | _ :: rest => (xs.takeWhile (!p ·), some rest)

/-- The exponent of a number. -/
def exponent? (cs : List Char) : Option Int := do
  let (negative, cs) := sign cs
  let n : Nat := valueOf 10 (← digits? 10 cs)
  some (if negative = some true then -n else n)

/-- A floating point number. It is special or has a fraction or an exponent. -/
def float? (cs : List Char) : Option Value := do
  let (sign?, cs) := sign cs
  let negative := sign? = some true
  if cs = "nan".toList then some (.float .nan)
  else if cs = "inf".toList then some (.float (.infinite negative))
  else
    let (mantissa, power) := splitAtFirst (fun c => c = 'e' ∨ c = 'E') cs
    let (whole, fraction) := splitAtFirst (· = '.') mantissa
    if power = none ∧ fraction = none then none
    else
      let ws ← decimal? sign?.isSome whole
      let fs ← match fraction with
        | none => some []
        | some fs => digits? 10 fs
      let e ← match power with
        | none => some 0
        | some p => exponent? p
      let x := Binary64.ofDecimal negative (valueOf 10 (ws ++ fs)) (e - fs.length)
      some (if x.isInfinite then .unreadable else .float x)

/-! ## Dates and times -/

/-- The number that exactly `n` decimal digits write. -/
def fixed? (n : Nat) (cs : List Char) : Option Nat :=
  if cs.length = n ∧ cs.all Char.isDigit then some (valueOf 10 (cs.filterMap (digit? 10)))
  else none

/-- The number of days of a month. -/
def daysOf (year month : Nat) : Nat :=
  if month = 2 then
    if year % 4 = 0 ∧ (year % 100 ≠ 0 ∨ year % 400 = 0) then 29 else 28
  else if month = 4 ∨ month = 6 ∨ month = 9 ∨ month = 11 then 30
  else 31

/-- Is this a date, `2024-02-29`? -/
def isDate (cs : List Char) : Bool :=
  match splitAtFirst (· = '-') cs with
  | (y, some rest) =>
    match splitAtFirst (· = '-') rest with
    | (m, some d) =>
      match fixed? 4 y, fixed? 2 m, fixed? 2 d with
      | some y, some m, some d => 1 ≤ m && m ≤ 12 && 1 ≤ d && d ≤ daysOf y m
      | _, _, _ => false
    | _ => false
  | _ => false

/-- Is this an hour and a minute, `23:59`? -/
def isClock (cs : List Char) : Bool :=
  match splitAtFirst (· = ':') cs with
  | (h, some m) =>
    match fixed? 2 h, fixed? 2 m with
    | some h, some m => h ≤ 23 && m ≤ 59
    | _, _ => false
  | _ => false

/-- Are these seconds, `59` or `59.999`? There may be a leap second. -/
def isSeconds (cs : List Char) : Bool :=
  match splitAtFirst (· = '.') cs with
  | (s, none) => (fixed? 2 s).any (· ≤ 60)
  | (s, some f) => (fixed? 2 s).any (· ≤ 60) && !f.isEmpty && f.all Char.isDigit

/-- Is this a time of day, `23:59` or `23:59:59.9`? -/
def isTime (cs : List Char) : Bool :=
  isClock (cs.take 5) &&
    match cs.drop 5 with
    | [] => true
    | ':' :: s => isSeconds s
    | _ => false

/-- Is this a time of day, possibly with an offset, `23:59:59Z` or `23:59:59-07:00`? -/
def isOffsetTime (cs : List Char) : Bool :=
  match splitAtFirst (fun c => c = '+' ∨ c = '-') cs with
  | (t, some offset) => isTime t && isClock offset
  | (_, none) =>
    match cs.getLast? with
    | some 'Z' | some 'z' => isTime cs.dropLast
    | _ => isTime cs

/-- Is this a date, a time, or a date with a time behind it? -/
def isMoment (cs : List Char) : Bool :=
  if isDate (cs.take 10) then
    match cs.drop 10 with
    | [] => true
    | d :: t => (d = 'T' || d = 't' || d = ' ') && isOffsetTime t
  else isTime cs

/-! ## Bare values -/

/-- The value that is written without quotes or brackets. -/
def scalar? (cs : List Char) : Option Value :=
  if cs = "true".toList then some (.boolean true)
  else if cs = "false".toList then some (.boolean false)
  else if let some i := integer? cs then some (if fitsInteger i then .integer i else .unreadable)
  else if passesForInteger cs then some .unreadable
  else if let some x := float? cs then some x
  else if isMoment cs then some .moment
  else none

end TypeMapping.Toml
