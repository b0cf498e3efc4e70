import TypeMapping.Number.Binary64

/-!
# Values of a TOML document

* `Position` : a place in the text;
* `Value`    : what a key can stand for, with the places of all parts;
* `Table`    : keys and their values; each key occurs once;
* `define?`, `alter?`, `openTable?`, `openElement?` : what the statements of a document do to a table.
-/

namespace TypeMapping.Toml

/-- A place in a text. Lines and columns count from one, columns in characters. -/
structure Position where
  line : Nat := 1
  column : Nat := 1
  deriving DecidableEq, Repr, Inhabited

/-- A key where it is written. -/
structure Key where
  text : String
  position : Position
  deriving DecidableEq, Repr, Inhabited

/-- How a table came about; it decides how the table may be extended later. -/
inductive Style
  /-- By a header of its own. -/
  | header
  /-- By the header of a table inside it. -/
  | implied
  /-- By a dotted key, or by the header of a table inside it until a dotted key led through it. -/
  | dotted
  /-- Between braces. -/
  | inline
  deriving DecidableEq, Repr

/-- What a key can stand for. -/
inductive Value
  | string (s : String)
  | integer (i : Int)
  /-- A number with a fraction or an exponent, or a special one. -/
  | float (x : Binary64)
  /-- A word that passes for a number and writes none that 64 bits hold. -/
  | unreadable
  | boolean (b : Bool)
  /-- A date, a time of day, or both. -/
  | moment
  /-- A list. It can be extended by headers if it was begun by one. -/
  | array (byHeaders : Bool) (items : List (Position × Value))
  | table (style : Style) (entries : List (Key × Position × Value))
  deriving Inhabited

/-- Keys and their values. -/
abbrev Table := List (Key × Position × Value)

namespace Table

/-- The value of a key and its place. -/
def find? (t : Table) (k : Key) : Option (Position × Value) :=
  (List.find? (·.1.text = k.text) t).map Prod.snd

/-- The table with one more key, which it does not have yet. -/
def add (t : Table) (k : Key) (p : Position) (v : Value) : Table := t ++ [(k, p, v)]

/-- The table with another value under a key that it has. -/
def replace (t : Table) (k : Key) (v : Value) : Table :=
  t.map fun e => if e.1.text = k.text then (e.1, e.2.1, v) else e

/-- The table without a key. -/
def erase (t : Table) (k : Key) : Table := t.filter (·.1.text ≠ k.text)

/-- The table with a new key behind a dotted path. Dotted keys extend the tables that dotted keys have
made, and take over those that are only implied by headers, so that no header can open these any more.
They pass through the last element of an array that headers have begun, but define nothing directly in
it. -/
def define? : (path : List Key) → (k : Key) → (p : Position) → (v : Value) → Table → Option Table
  | [], k, p, v, t => if (t.find? k).isSome then none else some (t.add k p v)
  | k₁ :: path, k, p, v, t =>
    match t.find? k₁ with
    | none => do
      let inner ← define? path k p v []
      some (t.add k₁ k₁.position (.table .dotted inner))
    | some (_, .table .dotted inner) => do
      let inner ← define? path k p v inner
      some (t.replace k₁ (.table .dotted inner))
    | some (_, .table .implied inner) => do
      let inner ← define? path k p v inner
      some (t.replace k₁ (.table .dotted inner))
    | some (_, .array true items) =>
      match items.getLast? with
      | some (q, .table style inner) =>
        if path.isEmpty then none
        else do
          let inner ← define? path k p v inner
          some (t.replace k₁ (.array true (items.dropLast ++ [(q, .table style inner)])))
      | _ => none
    | some _ => none

/-- The table after `f` was done to the table that the path of a header leads to. A path leads through
the last element of an array that headers have begun. -/
def alter? (f : Table → Option Table) : (path : List Key) → Table → Option Table
  | [], t => f t
  | k :: path, t =>
    match t.find? k with
    | none => do
      let inner ← alter? f path []
      some (t.add k k.position (.table .implied inner))
    | some (_, .table .inline _) => none
    | some (_, .table style inner) => do
      let inner ← alter? f path inner
      some (t.replace k (.table style inner))
    | some (_, .array true items) =>
      match items.getLast? with
      | some (p, .table style inner) => do
        let inner ← alter? f path inner
        some (t.replace k (.array true (items.dropLast ++ [(p, .table style inner)])))
      | _ => none
    | some _ => none

/-- The table after the header of a table. A table that was only implied so far takes the place of
its own header. -/
def openTable? (k : Key) (p : Position) (t : Table) : Option Table :=
  match t.find? k with
  | none => some (t.add k p (.table .header []))
  | some (_, .table .implied inner) => some ((t.erase k).add k p (.table .header inner))
  | some _ => none

/-- The table after the header of an array element. -/
def openElement? (k : Key) (p : Position) (t : Table) : Option Table :=
  match t.find? k with
  | none => some (t.add k p (.array true [(p, .table .header [])]))
  | some (_, .array true items) => some (t.replace k (.array true (items ++ [(p, .table .header [])])))
  | some _ => none

/-- The entries in increasing order of their keys. -/
def sorted (t : Table) : Table := t.mergeSort (·.1.text ≤ ·.1.text)

end Table

end TypeMapping.Toml
