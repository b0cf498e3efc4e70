import TypeMapping.Json
import TypeMapping.Text.Digit

/-!
# Reading JSON

* `Numeral.value?` : the value of a numeral, if it is in range;
* `tokenize?`      : the tokens of a text;
* `Json.parse?`    : the value that a text writes, unless the text is not JSON.

The significand of a floating point number is what its digits write as long as 64 bits hold it; further
digits only count as places. It is rounded, and then multiplied or divided by a power of ten.
-/

namespace TypeMapping.Json

/-! ## Numerals -/

/-- A numeral in its parts. -/
structure Numeral where
  negative : Bool
  whole : List Nat
  fraction? : Option (List Nat)
  exponent? : Option Int

namespace Numeral

/-- Takes digits into a significand of 64 bits: the significand, and the digits that are left. -/
def absorb (significand : Nat) : List Nat → Nat × List Nat
  | [] => (significand, [])
  | d :: ds =>
    if 10 * significand + d < Nat.pow 2 64 then absorb (10 * significand + d) ds else (significand, d :: ds)

/-- `x · 10^e`, in as many roundings as there are factors. No power of ten above `10^308` is a
number, so a smaller exponent takes several divisions, and a greater one leads out of range. -/
def scale (x : Binary64) (e : Int) : Binary64 :=
  if x = .finite false 0 Binary64.minExponent then x
  else if 308 < e then .infinite false
  else if 0 ≤ e then x.mul (Binary64.ofDecimal false 1 e)
  else if -308 ≤ e then x.div (Binary64.ofDecimal false 1 (-e))
  else if -616 ≤ e then
    (x.div (Binary64.ofDecimal false 1 308)).div (Binary64.ofDecimal false 1 (-e - 308))
  else
    ((x.div (Binary64.ofDecimal false 1 308)).div (Binary64.ofDecimal false 1 308)).div
      (Binary64.ofDecimal false 1 (min 308 (-e - 616)))

/-- The floating point number that the numeral writes, if it is in range. -/
def float? (n : Numeral) : Option Binary64 :=
  let whole := absorb 0 n.whole
  let fraction := n.fraction?.getD []
  let all := absorb whole.1 fraction
  let dropped : Int := whole.2.length
  let places : Int := fraction.length - all.2.length
  match scale (Binary64.ofRatio false all.1 1) (n.exponent?.getD 0 + dropped - places) with
  | .finite _ m e => some (.finite n.negative m e)
  | _ => none

/-- The value of a numeral. Minus zero is a floating point number. -/
def value? (n : Numeral) : Option Json :=
  let i := Text.valueOf 10 n.whole
  if n.fraction?.isNone && n.exponent?.isNone then
    if n.negative then
      if 0 < i ∧ i ≤ Nat.pow 2 63 then some (.integer (-i)) else n.float?.map .float
    else if i < Nat.pow 2 64 then some (.integer i)
    else n.float?.map .float
  else n.float?.map .float

end Numeral

/-- The leading decimal digits, and what follows them. -/
def digits (cs : List Char) : List Nat × List Char :=
  ((cs.takeWhile Char.isDigit).filterMap (Text.digit? 10), cs.dropWhile Char.isDigit)

/-- The numeral that a word is. -/
def numeral? (cs : List Char) : Option Numeral := do
  let (negative, cs) := match cs with
    | '-' :: cs => (true, cs)
    | cs => (false, cs)
  let (whole, cs) := digits cs
  if whole.isEmpty || (whole.head? == some 0 && whole.length != 1) then none
  let (fraction?, cs) := match cs with
    | '.' :: cs => ((some (digits cs).1 : Option (List Nat)), (digits cs).2)
    | cs => (none, cs)
  if fraction? == some [] then none
  match cs with
  | [] => some ⟨negative, whole, fraction?, none⟩
  | c :: cs =>
    if c != 'e' && c != 'E' then none
    let (down, cs) := match cs with
      | '-' :: cs => (true, cs)
      | '+' :: cs => (false, cs)
      | cs => (false, cs)
    let (power, cs) := digits cs
    if power.isEmpty || !cs.isEmpty then none
    let e : Nat := Text.valueOf 10 power
    some ⟨negative, whole, fraction?, some (if down then -e else e)⟩

/-! ## Tokens -/

/-- Characters that stand for themselves. -/
inductive Mark
  | openSquare
  | closeSquare
  | openCurly
  | closeCurly
  | comma
  | colon
  deriving DecidableEq, Repr

/-- The mark that a character is. -/
def Mark.ofChar? : Char → Option Mark
  | '[' => some openSquare
  | ']' => some closeSquare
  | '\x7b' => some openCurly
  | '\x7d' => some closeCurly
  | ',' => some comma
  | ':' => some colon
  | _ => none

/-- A token of a JSON text. -/
inductive Token
  | mark (m : Mark)
  | string (s : String)
  /-- A run of letters, digits, signs and points. -/
  | word (cs : List Char)
  deriving DecidableEq

/-- What the lexer is in the middle of. Contents stand in reverse. -/
inductive Mode
  | between
  | word (content : List Char)
  | string (content : List Char)
  | escaped (content : List Char)
  /-- In a code unit of 16 bits, with so many digits to come, behind a high surrogate if there is one. -/
  | unit (content : List Char) (high? : Option Nat) (digits value : Nat)
  /-- Behind a high surrogate; has the backslash of the low one been read? -/
  | surrogate (content : List Char) (high : Nat) (slash : Bool)

namespace Mode

/-- A character between tokens. -/
def start (c : Char) : Option (Mode × List Token) :=
  if c = ' ' ∨ c = '\t' ∨ c = '\n' ∨ c = '\r' then some (between, [])
  else if c = '"' then some (string [], [])
  else if c.isAlphanum ∨ c = '-' ∨ c = '+' ∨ c = '.' then some (word [c], [])
  else (Mark.ofChar? c).map fun m => (between, [.mark m])

/-- The character of a simple escape. -/
def escape? : Char → Option Char
  | '"' => some '"'
  | '\\' => some '\\'
  | '/' => some '/'
  | 'b' => some '\x08'
  | 'f' => some '\x0c'
  | 'n' => some '\n'
  | 'r' => some '\r'
  | 't' => some '\t'
  | _ => none

/-- The mode behind a complete code unit. -/
def ofUnit (content : List Char) (high? : Option Nat) (u : Nat) : Option Mode :=
  match high? with
  | none =>
    if 0xd800 ≤ u ∧ u < 0xdc00 then some (surrogate content u false)
    else if 0xdc00 ≤ u ∧ u < 0xe000 then none
    else some (string (Char.ofNat u :: content))
  | some high =>
    if 0xdc00 ≤ u ∧ u < 0xe000 then
      some (string (Char.ofNat (0x10000 + (high - 0xd800) * 0x400 + (u - 0xdc00)) :: content))
    else none

/-- The mode after one more character, and the tokens that it completed. -/
def step (m : Mode) (c : Char) : Option (Mode × List Token) :=
  match m with
  | between => start c
  | word w =>
    if c.isAlphanum ∨ c = '-' ∨ c = '+' ∨ c = '.' then some (word (c :: w), [])
    else (start c).map fun (m, ts) => (m, .word w.reverse :: ts)
  | string w =>
    if c = '"' then some (between, [.string (String.ofList w.reverse)])
    else if c = '\\' then some (escaped w, [])
    else if c.toNat < 0x20 then none
    else some (string (c :: w), [])
  | escaped w =>
    if c = 'u' then some (unit w none 4 0, [])
    else (escape? c).map fun e => (string (e :: w), [])
  | unit w high? digits value => do
    let value := 16 * value + (← Text.digit? 16 c)
    if digits = 1 then some (← ofUnit w high? value, [])
    else some (unit w high? (digits - 1) value, [])
  | surrogate w high false => if c = '\\' then some (surrogate w high true, []) else none
  | surrogate w high true => if c = 'u' then some (unit w (some high) 4 0, []) else none

/-- The tokens that the end of the text completes. -/
def finish : Mode → Option (List Token)
  | between => some []
  | word w => some [.word w.reverse]
  | _ => none

end Mode

/-- The tokens of a text from a mode on, behind those in `acc`, which stand in reverse. -/
def tokensFrom? (m : Mode) (acc : List Token) : List Char → Option (List Token)
  | [] => m.finish.map fun ts => acc.reverse ++ ts
  | c :: cs => do
    let (m, ts) ← m.step c
    tokensFrom? m (ts.reverseAux acc) cs

/-- The tokens of a text. -/
def tokenize? (text : String) : Option (List Token) := tokensFrom? .between [] text.toList

/-! ## Values -/

/-- The value of a word. -/
def ofWord? (cs : List Char) : Option Json :=
  if cs = "null".toList then some .null
  else if cs = "true".toList then some (.boolean true)
  else if cs = "false".toList then some (.boolean false)
  else (numeral? cs).bind Numeral.value?

/-- What is left of `ts` when at least one token was read. -/
abbrev Rest (ts : List Token) := { rest : List Token // rest.length < ts.length }

mutual

/-- A value and the tokens that follow. -/
def value? : (ts : List Token) → Option (Json × Rest ts)
  | [] => none
  | .string s :: ts => some (.string s, ⟨ts, by simp⟩)
  | .word w :: ts => (ofWord? w).map fun v => (v, ⟨ts, by simp⟩)
  | .mark .openSquare :: .mark .closeSquare :: ts => some (.array [], ⟨ts, by simp only [List.length_cons]; omega⟩)
  | .mark .openSquare :: ts => do
    let (vs, ⟨rest, h⟩) ← items? ts
    some (.array vs, ⟨rest, by simp only [List.length_cons]; omega⟩)
  | .mark .openCurly :: .mark .closeCurly :: ts =>
    some (.object [], ⟨ts, by simp only [List.length_cons]; omega⟩)
  | .mark .openCurly :: ts => do
    let (ms, ⟨rest, h⟩) ← members? ts
    some (.object ms, ⟨rest, by simp only [List.length_cons]; omega⟩)
  | .mark _ :: _ => none
termination_by ts => 2 * ts.length

/-- One or more elements, up to the closing bracket. -/
def items? (ts : List Token) : Option (List Json × Rest ts) :=
  match value? ts with
  | some (v, ⟨.mark .comma :: rest, h⟩) => do
    let (vs, ⟨rest, h'⟩) ← items? rest
    some (v :: vs, ⟨rest, Nat.lt_trans h' (Nat.lt_of_succ_lt h)⟩)
  | some (v, ⟨.mark .closeSquare :: rest, h⟩) => some ([v], ⟨rest, Nat.lt_of_succ_lt h⟩)
  | _ => none
termination_by 2 * ts.length + 1
decreasing_by
  · omega
  · simp only [List.length_cons] at h
    omega

/-- One or more members, up to the closing brace. -/
def members? : (ts : List Token) → Option (List (String × Json) × Rest ts)
  | .string k :: .mark .colon :: ts =>
    match value? ts with
    | some (v, ⟨.mark .comma :: rest, h⟩) => do
      let (ms, ⟨rest, h'⟩) ← members? rest
      some ((k, v) :: ms, ⟨rest, by simp only [List.length_cons] at h ⊢; omega⟩)
    | some (v, ⟨.mark .closeCurly :: rest, h⟩) =>
      some ([(k, v)], ⟨rest, by simp only [List.length_cons] at h ⊢; omega⟩)
    | _ => none
  | _ => none
termination_by ts => 2 * ts.length + 1
decreasing_by
  · simp only [List.length_cons]
    omega
  · simp only [List.length_cons] at h ⊢
    omega

end

/-- The value that a text writes. -/
def parse? (text : String) : Option Json := do
  match ← value? (← tokenize? text) with
  | (v, ⟨[], _⟩) => some v
  | _ => none

end TypeMapping.Json
