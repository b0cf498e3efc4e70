import TypeMapping.Text.Digit
import TypeMapping.Toml.Value

/-!
# Tokens of a TOML document

* `Token`     : a mark, a bare word or a quoted text, with its place and the blanks before it;
* `Glyph`     : a character with its place; a carriage return and the line feed behind it are one;
* `locate`    : the glyphs of a text;
* `tokenize?` : the tokens of a text, unless a quoted text or a comment is malformed.

Comments and blanks are no tokens; line ends are.
-/

namespace TypeMapping.Toml

/-! ## Glyphs -/

/-- A character where it stands. -/
structure Glyph where
  position : Position
  char : Char
  /-- Does a carriage return belong to it? Only line feeds have one. -/
  hasReturn : Bool := false
  deriving DecidableEq, Repr

/-- The characters that a glyph stands for, the last one first, in front of `rest`. -/
def Glyph.pushOnto (g : Glyph) (rest : List Char) : List Char :=
  g.char :: if g.hasReturn then '\r' :: rest else rest

/-- The glyphs of a text from a place on. -/
def locateFrom (p : Position) : List Char → List Glyph
  | [] => []
  | '\r' :: '\n' :: cs => ⟨p, '\n', true⟩ :: locateFrom ⟨p.line + 1, 1⟩ cs
  | '\n' :: cs => ⟨p, '\n', false⟩ :: locateFrom ⟨p.line + 1, 1⟩ cs
  | c :: cs => ⟨p, c, false⟩ :: locateFrom ⟨p.line, p.column + 1⟩ cs

/-- The glyphs of a text. A byte order mark in front is not part of the document. -/
def locate (text : String) : List Glyph :=
  match locateFrom {} text.toList with
  | ⟨_, '\ufeff', _⟩ :: gs => gs
  | gs => gs

/-! ## Tokens -/

/-- Characters that stand for themselves. -/
inductive Mark
  | equals
  | comma
  | dot
  | openSquare
  | closeSquare
  | openCurly
  | closeCurly
  | newline
  deriving DecidableEq, Repr

/-- The mark that a character is. -/
def Mark.ofChar? : Char → Option Mark
  | '=' => some equals
  | ',' => some comma
  | '.' => some dot
  | '[' => some openSquare
  | ']' => some closeSquare
  | '{' => some openCurly
  | '}' => some closeCurly
  | '\n' => some newline
  | _ => none

/-- What a token is. -/
inductive Lexeme
  | mark (m : Mark)
  /-- A run of characters that are neither blanks nor marks, and do not begin with a quote. -/
  | word (cs : List Char)
  /-- A quoted text on one line. -/
  | text (s : String)
  /-- A quoted text between triple quotes. -/
  | longText (s : String)
  deriving DecidableEq, Repr

/-- A token. -/
structure Token where
  position : Position
  /-- The blanks before it. -/
  gap : List Char
  lexeme : Lexeme
  deriving DecidableEq, Repr

/-! ## Quoted texts -/

/-- The kinds of quoted text. -/
structure Quotation where
  quote : Char
  /-- Is it between triple quotes? -/
  long : Bool
  deriving DecidableEq, Repr

/-- Do backslashes escape? -/
def Quotation.escapes (q : Quotation) : Bool := q.quote == '"'

/-- A quoted text under way. -/
structure Opened where
  quotation : Quotation
  position : Position
  gap : List Char
  /-- The text so far, its last character first. -/
  content : List Char := []

namespace Opened

/-- The text with one more character. -/
def push (o : Opened) (c : Char) : Opened := { o with content := c :: o.content }

/-- The text with what a glyph stands for. -/
def take (o : Opened) (g : Glyph) : Opened := { o with content := g.pushOnto o.content }

/-- The token that a closing quote makes of the text. -/
def close (o : Opened) : Token where
  position := o.position
  gap := o.gap
  lexeme :=
    let s := String.ofList o.content.reverse
    if o.quotation.long then .longText s else .text s

end Opened

/-- May the character stand in a comment or, for itself, in a quoted text? All but control characters
may, the tab apart. -/
def isPlain (c : Char) : Bool := c == '\t' || (0x20 ≤ c.toNat && c.toNat ≠ 0x7f)

/-- What a backslash stands for together with the character behind it. -/
inductive Escape
  | char (c : Char)
  /-- The number of a character follows, in so many hexadecimal digits. -/
  | code (digits : Nat)

/-- The escape that a character behind a backslash makes. -/
def Escape.ofChar? : Char → Option Escape
  | 'b' => some (.char '\x08')
  | 't' => some (.char '\t')
  | 'n' => some (.char '\n')
  | 'f' => some (.char '\x0c')
  | 'r' => some (.char '\r')
  | 'e' => some (.char '\x1b')
  | '"' => some (.char '"')
  | '\\' => some (.char '\\')
  | 'x' => some (.code 2)
  | 'u' => some (.code 4)
  | 'U' => some (.code 8)
  | _ => none

/-- The character with that number. -/
def charOfCode? (n : Nat) : Option Char :=
  if h : n.isValidChar then some (Char.ofNatAux n h) else none

/-! ## The lexer -/

/-- What the lexer is in the middle of. -/
inductive Mode
  /-- Between tokens, behind some blanks, the last of them first. -/
  | between (gap : List Char)
  /-- In a word, its last character first. -/
  | word (position : Position) (gap content : List Char)
  | comment
  /-- Behind one quote, or two of them. -/
  | opening (o : Opened) (second : Bool)
  /-- Behind the triple quotes that open a text; a line end is dropped here. -/
  | fresh (o : Opened)
  | quoted (o : Opened)
  /-- Behind a backslash. -/
  | escaped (o : Opened)
  /-- In the number of a character, with so many digits to come. -/
  | code (o : Opened) (digits value : Nat)
  /-- Behind a backslash at the end of a line; has the line ended yet? -/
  | folded (o : Opened) (ended : Bool)
  /-- Behind so many quotes in a text between triple quotes. -/
  | closing (o : Opened) (quotes : Nat)

/-- The mode after a character, and the tokens that it completed. -/
abbrev Transition := Option (Mode × List Token)

namespace Mode

/-- A character between tokens. -/
def start (gap : List Char) (g : Glyph) : Transition :=
  let c := g.char
  let p := g.position
  if c = ' ' ∨ c = '\t' then some (between (c :: gap), [])
  else if c = '#' then some (comment, [])
  else if c = '\r' then none
  else if c = '"' ∨ c = '\'' then some (opening ⟨⟨c, false⟩, p, gap.reverse, []⟩ false, [])
  else
    match Mark.ofChar? c with
    | some m => some (between [], [⟨p, gap.reverse, .mark m⟩])
    | none => some (word p gap.reverse [c], [])

/-- A character inside a quoted text. -/
def inside (o : Opened) (g : Glyph) : Transition :=
  let c := g.char
  if c = o.quotation.quote then
    if o.quotation.long then some (closing o 1, []) else some (between [], [o.close])
  else if c = '\\' ∧ o.quotation.escapes then some (escaped o, [])
  else if isPlain c ∨ (c = '\n' ∧ o.quotation.long) then some (quoted (o.take g), [])
  else none

/-- A text between triple quotes with some quotes of its own before the last three. -/
def closed (o : Opened) (quotes : Nat) : Token :=
  { o with content := List.replicate (quotes - 3) o.quotation.quote ++ o.content }.close

/-- A character behind a completed token. -/
def behind (t : Token) (g : Glyph) : Transition :=
  (start [] g).map fun (m, ts) => (m, t :: ts)

/-- The mode after one more character, and the tokens that it completed. -/
def step (m : Mode) (g : Glyph) : Transition :=
  let c := g.char
  match m with
  | between gap => start gap g
  | word q gap w =>
    if c = ' ' ∨ c = '\t' ∨ c = '\r' ∨ c = '#' ∨ (Mark.ofChar? c).isSome then
      behind ⟨q, gap, .word w.reverse⟩ g
    else some (word q gap (c :: w), [])
  | comment =>
    if c = '\n' then some (between [], [⟨g.position, [], .mark .newline⟩])
    else if isPlain c then some (comment, [])
    else none
  | opening o false => if c = o.quotation.quote then some (opening o true, []) else inside o g
  | opening o true =>
    if c = o.quotation.quote then some (fresh { o with quotation := ⟨c, true⟩ }, [])
    else behind o.close g
  | fresh o => if c = '\n' then some (quoted o, []) else inside o g
  | quoted o => inside o g
  | escaped o =>
    if (c = ' ' ∨ c = '\t' ∨ c = '\n') ∧ o.quotation.long then some (folded o (c = '\n'), [])
    else
      match Escape.ofChar? c with
      | some (.char c) => some (quoted (o.push c), [])
      | some (.code digits) => some (code o digits 0, [])
      | none => none
  | code o digits value => do
    let value := 16 * value + (← Text.digit? 16 c)
    if digits = 1 then some (quoted (o.push (← charOfCode? value)), [])
    else some (code o (digits - 1) value, [])
  | folded o ended =>
    if c = ' ' ∨ c = '\t' then some (folded o ended, [])
    else if c = '\n' then some (folded o true, [])
    else if ended then inside o g
    else none
  | closing o quotes =>
    if c = o.quotation.quote then
      if quotes = 4 then some (between [], [closed o 5]) else some (closing o (quotes + 1), [])
    else if 3 ≤ quotes then behind (closed o quotes) g
    else inside { o with content := List.replicate quotes o.quotation.quote ++ o.content } g

/-- The tokens that the end of the text completes. -/
def finish : Mode → Option (List Token)
  | between _ | comment => some []
  | word q gap w => some [⟨q, gap, .word w.reverse⟩]
  | opening o true => some [o.close]
  | closing o quotes => if 3 ≤ quotes then some [closed o quotes] else none
  | _ => none

end Mode

/-- The tokens of glyphs, from a mode on. -/
def tokensFrom? (m : Mode) : List Glyph → Option (List Token)
  | [] => m.finish
  | g :: gs => do
    let (m, ts) ← m.step g
    let rest ← tokensFrom? m gs
    some (ts ++ rest)

/-- The tokens of a text. -/
def tokenize? (text : String) : Option (List Token) := tokensFrom? (.between []) (locate text)

end TypeMapping.Toml
