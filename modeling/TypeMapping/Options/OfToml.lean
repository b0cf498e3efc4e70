import TypeMapping.Options.Fault
import TypeMapping.Toml.Document

/-!
# Options from TOML documents

The keys of a document are read in increasing order, and the first fault is reported at its place.

* `Flaw`           : a fault and its place;
* `Options.ofTable` : the options that a document denotes.
-/

namespace TypeMapping.Options

open Toml

/-- A fault in a document. -/
structure Flaw where
  position : Position
  fault : Fault
  deriving DecidableEq, Repr

/-- Numbers are written out in full, whatever their magnitude. -/
def Flaw.layout : Binary64.Layout where
  tie := .up
  isPositional _ := true

/-- The flaw as users read it. -/
def Flaw.message (f : Flaw) : String := f.fault.message Flaw.layout

/-- What messages tell of a value. An unreadable number is none; no message tells of it, since documents
with such a number are read only where a wrapped moment hides it. -/
def metValue : Value → Met
  | .string s => .string s
  | .integer i => .integer i
  | .float x => .float x
  | .unreadable => .float .nan
  | .boolean b => .boolean b
  | .array .. => .sequence
  | .moment | .table .. => .map

/-- The fault of what stands behind a variant; an empty list or table is none. -/
def payloadFault? : Value → Option Fault
  | .array _ [] | .table _ [] => none
  | .array .. => some (.payloadFilled "array")
  | .table .. => some (.payloadFilled "table")
  | .string _ => some (.payloadMistyped "string")
  | .integer _ => some (.payloadMistyped "integer")
  | .float _ | .unreadable => some (.payloadMistyped "float")
  | .boolean _ => some (.payloadMistyped "boolean")
  | .moment => some (.payloadMistyped "datetime")

/-- The variant that a value denotes: a text with its name, or a table with its name as the only key
and nothing behind it. -/
def variantOf {α : Type} (named : String → Except Fault α) (p : Position) : Value → Except Flaw α
  | .string s => (named s).mapError (⟨p, ·⟩)
  | .table _ [] => .error ⟨p, .variantMissing⟩
  | .table _ [(k, q, v)] => do
    let a ← (named k.text).mapError (⟨k.position, ·⟩)
    match payloadFault? v with
    | none => .ok a
    | some fault => .error ⟨q, fault⟩
  | .table .. => .error ⟨p, .variantAmbiguous⟩
  | _ => .error ⟨p, .variantMistyped⟩

/-- The text that an element of a list denotes. -/
def stringOf (p : Position) : Value → Except Flaw String
  | .string s => .ok s
  | v => .error ⟨p, .mistyped (metValue v) .string⟩

/-- The texts that a list denotes. -/
def stringsOf (p : Position) : Value → Except Flaw (List String)
  | .array _ items => items.mapM fun (q, v) => stringOf q v
  | v => .error ⟨p, .mistyped (metValue v) .sequence⟩

/-- The options with one field set. -/
def setField (o : Options) (k : Key) (p : Position) (v : Value) : Except Flaw Options :=
  match k.text with
  | "generator" => return { o with target := ← variantOf targetNamed p v }
  | "disabled_type_maps" => return { o with disabled := ← stringsOf p v }
  | "duplicate_policy" => return { o with policy := ← variantOf policyNamed p v }
  | name => .error ⟨k.position, .unknownField name⟩

/-- The options that a document denotes. Fields that it does not set keep their defaults. -/
def ofTable (t : Table) : Except Flaw Options :=
  t.sorted.foldlM (fun o (k, p, v) => o.setField k p v) {}

end TypeMapping.Options
