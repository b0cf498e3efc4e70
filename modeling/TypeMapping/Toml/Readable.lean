import TypeMapping.Toml.Scalar

/-!
# Readable values

Well-formed text can still write what nobody can read: a word that only passes for a number, or a
wrapped moment without one. A table is a *wrapped moment* if its least key is `momentKey`. It stands for the date
or time that the text under this key writes, and nothing else in it is read.

* `momentKey`                            : the key of a wrapped moment;
* `Value.isReadable`, `Table.isReadable` : can everything that is read be read?
-/

namespace TypeMapping.Toml

/-- The key of a wrapped moment. -/
def momentKey : String := "$__toml_private_datetime"

/-- Is a table with these entries a wrapped moment? -/
def Table.wrapsMoment (t : Table) : Bool :=
  t.any (·.1.text = momentKey) && t.all (momentKey ≤ ·.1.text)

/-- Does the value write a date or a time? -/
def Value.writesMoment : Value → Bool
  | .string s => isMoment s.toList
  | _ => false

mutual

/-- Can the value be read? -/
def Value.isReadable : Value → Bool
  | .string _ | .integer _ | .float _ | .boolean _ | .moment => true
  | .unreadable => false
  | .array _ items => itemsReadable items
  | .table _ entries =>
    if Table.wrapsMoment entries then
      entries.any fun e => e.1.text = momentKey && e.2.2.writesMoment
    else entriesReadable entries

/-- Can all elements be read? -/
def itemsReadable : List (Position × Value) → Bool
  | [] => true
  | (_, v) :: items => v.isReadable && itemsReadable items

/-- Can all entries be read? -/
def entriesReadable : List (Key × Position × Value) → Bool
  | [] => true
  | (_, _, v) :: entries => v.isReadable && entriesReadable entries

end

/-- Can the document be read? It is no wrapped moment itself. -/
def Table.isReadable (t : Table) : Bool := entriesReadable t

end TypeMapping.Toml
