import TypeMapping.Text.GraphemeExtend
import TypeMapping.Text.Unprintable

/-!
# Quoted text

How a text is shown where it must stay on one line and be told apart from its surroundings: between
double quotes, with every character that could not be read off the page escaped.

* `lowerHex`   : a number in lower-case hexadecimal, without leading zeros;
* `escape`     : the written form of one character;
* `quote`      : the written form of a text.
-/

namespace TypeMapping.Text

/-- A number in lower-case hexadecimal. -/
def lowerHex (n : Nat) : String := String.ofList (Nat.toDigits 16 n)

/-- A character inside double quotes. The apostrophe stands for itself. -/
def escape (c : Char) : String :=
  match c with
  | '\x00' => "\\0"
  | '\t' => "\\t"
  | '\r' => "\\r"
  | '\n' => "\\n"
  | '"' => "\\\""
  | '\\' => "\\\\"
  | c =>
    if c.toNat < 0x7f && 0x20 ≤ c.toNat then c.toString
    else if isGraphemeExtend c || isUnprintable c then "\\u\x7b" ++ lowerHex c.toNat ++ "\x7d"
    else c.toString

/-- A text between double quotes. -/
def quote (s : String) : String :=
  "\"" ++ String.join (s.toList.map escape) ++ "\""

end TypeMapping.Text
