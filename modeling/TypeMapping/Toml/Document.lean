import TypeMapping.Toml.Readable
import TypeMapping.Toml.Token

/-!
# TOML documents

* `Rest`      : what is left of a list of tokens of which at least one was read;
* `path?`     : a dotted key;
* `value?`    : a value, with lists and inline tables inside one another up to `nestingLimit`;
* `Document.parse?` : the table that a text writes, unless the text is not TOML.

Each reader returns a shorter list of tokens, which is why reading comes to an end.
-/

namespace TypeMapping.Toml

/-- What is left of `ts` when at least one token was read. -/
abbrev Rest (ts : List Token) := { rest : List Token // rest.length < ts.length }

/-- The tokens behind some line ends. -/
def skipLines : (ts : List Token) → { rest : List Token // rest.length ≤ ts.length }
  | [] => ⟨[], by simp⟩
  | t :: ts =>
    if t.lexeme = .mark .newline then
      ⟨(skipLines ts).1, Nat.le_succ_of_le (skipLines ts).2⟩
    else ⟨t :: ts, Nat.le_refl _⟩

/-! ## Keys -/

/-- How deep lists and inline tables may stand inside one another. Dotted keys have at most so many keys. -/
def nestingLimit : Nat := 80

/-- May the character stand in a key without quotes? -/
def isKeyChar (c : Char) : Bool := c.isAlphanum || c == '_' || c == '-'

/-- The key that a token is. -/
def Token.key? (t : Token) : Option Key :=
  match t.lexeme with
  | .word cs => if cs.all isKeyChar then some ⟨String.ofList cs, t.position⟩ else none
  | .text s => some ⟨s, t.position⟩
  | _ => none

/-- A dotted key behind `depth` keys of its own: the keys before the last dot, the key behind it, and
the tokens that follow. -/
def path? (depth : Nat) : (ts : List Token) → Option ((List Key × Key) × Rest ts)
  | [] => none
  | [t] => t.key?.map fun k => (([], k), ⟨[], by simp⟩)
  | t :: d :: ts => do
    let k ← t.key?
    if d.lexeme ≠ .mark .dot then some (([], k), ⟨d :: ts, by simp⟩)
    else if depth + 1 < nestingLimit then
      let ((path, last), ⟨rest, h⟩) ← path? (depth + 1) ts
      some ((k :: path, last), ⟨rest, by simp only [List.length_cons]; omega⟩)
    else none

/-! ## Values -/

/-- The bare text that begins with the word `cs`: a fraction may follow behind a dot, without blanks. -/
def bareText (cs : List Char) : (ts : List Token) →
    List Char × { rest : List Token // rest.length ≤ ts.length }
  | d :: t :: ts =>
    match t.lexeme with
    | .word fs =>
      if d.lexeme = .mark .dot ∧ d.gap = [] ∧ t.gap = [] then
        (cs ++ '.' :: fs, ⟨ts, by simp only [List.length_cons]; omega⟩)
      else (cs, ⟨d :: t :: ts, Nat.le_refl _⟩)
    | _ => (cs, ⟨d :: t :: ts, Nat.le_refl _⟩)
  | ts => (cs, ⟨ts, Nat.le_refl _⟩)

/-- The bare value that begins with the word `cs`. One space may stand between a date and a time. -/
def bareValue? (cs : List Char) (ts : List Token) :
    Option (Value × { rest : List Token // rest.length ≤ ts.length }) :=
  match ts with
  | t :: ts' =>
    match t.lexeme with
    | .word time =>
      if isDate cs ∧ t.gap = [' '] then do
        let (time, ⟨rest, h⟩) := bareText time ts'
        let v ← scalar? (cs ++ ' ' :: time)
        some (v, ⟨rest, by simp only [List.length_cons]; omega⟩)
      else (scalar? cs).map fun v => (v, ⟨t :: ts', Nat.le_refl _⟩)
    | _ => do
      let (text, rest) := bareText cs (t :: ts')
      (scalar? text).map fun v => (v, rest)
  | [] => (scalar? cs).map fun v => (v, ⟨[], Nat.le_refl _⟩)

mutual

/-- A value, inside `depth` lists and tables. -/
def value? (depth : Nat) : (ts : List Token) → Option ((Position × Value) × Rest ts)
  | [] => none
  | t :: ts =>
    match t.lexeme with
    | .text s | .longText s => some ((t.position, .string s), ⟨ts, by simp⟩)
    | .word cs => do
      let (v, ⟨rest, h⟩) ← bareValue? cs ts
      some ((t.position, v), ⟨rest, by simp only [List.length_cons]; omega⟩)
    | .mark .openSquare =>
      if depth < nestingLimit then do
        let (items, ⟨rest, h⟩) ← items? (depth + 1) ts
        some ((t.position, .array false items), ⟨rest, by simp only [List.length_cons]; omega⟩)
      else none
    | .mark .openCurly =>
      if depth < nestingLimit then do
        let (table, ⟨rest, h⟩) ← entries? (depth + 1) [] ts
        some ((t.position, .table .inline table), ⟨rest, by simp only [List.length_cons]; omega⟩)
      else none
    | _ => none
termination_by ts => 2 * ts.length

/-- The elements of a list, up to its closing bracket. A comma may stand behind the last one. -/
def items? (depth : Nat) (ts : List Token) : Option (List (Position × Value) × Rest ts) :=
  match skipLines ts with
  | ⟨[], _⟩ => none
  | ⟨t :: ts', h⟩ =>
    if t.lexeme = .mark .closeSquare then some ([], ⟨ts', h⟩)
    else do
      let (v, ⟨r₁, h₁⟩) ← value? depth (t :: ts')
      match skipLines r₁ with
      | ⟨[], _⟩ => none
      | ⟨d :: r₂, h₂⟩ =>
        if d.lexeme = .mark .comma then
          let (vs, ⟨r₃, h₃⟩) ← items? depth r₂
          some (v :: vs, ⟨r₃, by simp only [List.length_cons] at *; omega⟩)
        else if d.lexeme = .mark .closeSquare then
          some ([v], ⟨r₂, by simp only [List.length_cons] at *; omega⟩)
        else none
termination_by 2 * ts.length + 1
decreasing_by all_goals simp only [List.length_cons] at *; omega

/-- The entries of an inline table, up to its closing brace, behind those in `table`. A comma may stand
behind the last one. Lines may end anywhere but inside a dotted key. -/
def entries? (depth : Nat) (table : Table) (ts : List Token) : Option (Table × Rest ts) :=
  match skipLines ts with
  | ⟨[], _⟩ => none
  | ⟨t :: ts', h⟩ =>
    if t.lexeme = .mark .closeCurly then some (table, ⟨ts', h⟩)
    else do
      let ((path, k), ⟨r₀, h₀⟩) ← path? 0 (t :: ts')
      match skipLines r₀ with
      | ⟨[], _⟩ => none
      | ⟨e :: r₁, h₁⟩ =>
        if e.lexeme ≠ .mark .equals then none
        else do
          let ⟨r₂, h₂⟩ := skipLines r₁
          let ((p, v), ⟨r₃, h₃⟩) ← value? depth r₂
          let table ← Table.define? path k p v table
          match skipLines r₃ with
          | ⟨[], _⟩ => none
          | ⟨d :: r₄, h₄⟩ =>
            if d.lexeme = .mark .comma then
              let (table, ⟨r₅, h₅⟩) ← entries? depth table r₄
              some (table, ⟨r₅, by simp only [List.length_cons] at *; omega⟩)
            else if d.lexeme = .mark .closeCurly then
              some (table, ⟨r₄, by simp only [List.length_cons] at *; omega⟩)
            else none
termination_by 2 * ts.length + 1
decreasing_by all_goals simp only [List.length_cons] at *; omega

end

/-! ## Statements -/

/-- The tokens behind the end of a statement. -/
def endOfLine? : (ts : List Token) → Option { rest : List Token // rest.length ≤ ts.length }
  | [] => some ⟨[], Nat.le_refl _⟩
  | t :: ts => if t.lexeme = .mark .newline then some ⟨ts, by simp⟩ else none

/-- A header, behind its first bracket: whether it opens an array element, its path, and the tokens
behind its line. The double brackets of an array element stand without blanks. -/
def header? (ts : List Token) : Option ((Bool × List Key × Key) × Rest ts) :=
  let isDouble (t : Token) (m : Mark) : Bool := t.lexeme = .mark m ∧ t.gap = []
  match ts with
  | [] => none
  | t :: ts' =>
    if isDouble t .openSquare then
      match path? 0 ts' with
      | some ((path, k), ⟨a :: b :: rest, h⟩) =>
        if a.lexeme = .mark .closeSquare ∧ isDouble b .closeSquare then
          match endOfLine? rest with
          | some ⟨rest', h'⟩ =>
            some ((true, path, k), ⟨rest', by simp only [List.length_cons] at *; omega⟩)
          | none => none
        else none
      | _ => none
    else
      match path? 0 (t :: ts') with
      | some ((path, k), ⟨a :: rest, h⟩) =>
        if a.lexeme = .mark .closeSquare then
          match endOfLine? rest with
          | some ⟨rest', h'⟩ =>
            some ((false, path, k), ⟨rest', by simp only [List.length_cons] at *; omega⟩)
          | none => none
        else none
      | _ => none

/-- A key with its value, and the tokens behind its line. -/
def assignment? (ts : List Token) : Option ((List Key × Key × Position × Value) × Rest ts) := do
  let ((path, k), ⟨r₁, h₁⟩) ← path? 0 ts
  match r₁, h₁ with
  | [], _ => none
  | e :: r₂, h₁ =>
    if e.lexeme ≠ .mark .equals then none
    else do
      let ((p, v), ⟨r₃, h₃⟩) ← value? 0 r₂
      let ⟨r₄, h₄⟩ ← endOfLine? r₃
      some ((path, k, p, v), ⟨r₄, by simp only [List.length_cons] at *; omega⟩)

/-- The document that `root` becomes by the statements in `ts`, the last header having led along
`current`. -/
def statements? (current : List Key) (root : Table) (ts : List Token) : Option Table :=
  match ts with
  | [] => some root
  | t :: ts' =>
    if t.lexeme = .mark .newline then statements? current root ts'
    else if t.lexeme = .mark .openSquare then do
      let ((isElement, path, k), ⟨rest, _⟩) ← header? ts'
      let root ← Table.alter?
        (if isElement then Table.openElement? k t.position else Table.openTable? k t.position) path root
      statements? (path ++ [k]) root rest
    else do
      let ((path, k, p, v), ⟨rest, _⟩) ← assignment? (t :: ts')
      let root ← Table.alter? (Table.define? path k p v) current root
      statements? current root rest
termination_by ts.length
decreasing_by all_goals simp only [List.length_cons] at *; omega

/-- The table that a text writes, if all of it can be read. -/
def parse? (text : String) : Option Table := do
  let root ← statements? [] [] (← tokenize? text)
  if root.isReadable then some root else none

end TypeMapping.Toml
