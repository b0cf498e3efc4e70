/-!
# Digits

* `digit?`  : the value of a character as a digit in some radix up to sixteen;
* `valueOf` : the number that digits write.
-/

namespace TypeMapping.Text

/-- The value of a character as a digit. Letters of both cases are digits above nine. -/
def digit? (radix : Nat) (c : Char) : Option Nat :=
  let n :=
    if c.isDigit then c.toNat - '0'.toNat
    else if 'a' ≤ c ∧ c ≤ 'f' then c.toNat - 'a'.toNat + 10
    else if 'A' ≤ c ∧ c ≤ 'F' then c.toNat - 'A'.toNat + 10
    else radix
  if n < radix then some n else none

/-- The number that digits write, the most significant one first. -/
def valueOf (radix : Nat) (ds : List Nat) : Nat := ds.foldl (fun n d => radix * n + d) 0

theorem digit?_lt {radix : Nat} {c : Char} {d : Nat} (h : digit? radix c = some d) : d < radix := by
  simp only [digit?, Option.ite_none_right_eq_some, Option.some.injEq] at h
  exact h.2 ▸ h.1

end TypeMapping.Text
