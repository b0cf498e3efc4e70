import TypeMapping.Json
import TypeMapping.Options.Fault

/-!
# Options from JSON values

Options are written as an object, whose members are read in increasing order of their names, or as a
list of the fields in their order. The first fault is reported.

* `targetOfJson`, `policyOfJson`, `ofJson` : what a JSON value denotes;
* `Fault.messageInJson`                    : what is said when it denotes nothing.
-/

namespace TypeMapping.Options

/-- Numbers from `10^-5` to below `10^16` are written out in full. -/
def jsonLayout : Binary64.Layout where
  tie := .even
  isPositional e := -5 ≤ e && e < 16

/-- The fault of a JSON value as users read it. -/
def Fault.messageInJson (f : Fault) : String := f.message jsonLayout

/-- What messages tell of a value. -/
def metJson : Json → Met
  | .null => .null
  | .boolean b => .boolean b
  | .integer i => .integer i
  | .float x => .float x
  | .string s => .string s
  | .array _ => .sequence
  | .object _ => .map

/-- The variant that a value denotes: a text with its name, or an object with its name as the only
member and null behind it. -/
def variantOfJson {α : Type} (named : String → Except Fault α) : Json → Except Fault α
  | .string s => named s
  | .object members =>
    match Json.sortedMembers members with
    | [(name, payload)] => do
      let a ← named name
      match payload with
      | .null => .ok a
      | v => .error (.mistyped (metJson v) .nothing)
    | _ => .error .mapNotSingle
  | v => .error (.mistyped (metJson v) .variant)

/-- The target that a value denotes. -/
def targetOfJson : Json → Except Fault Target := variantOfJson targetNamed

/-- The policy that a value denotes. -/
def policyOfJson : Json → Except Fault DuplicatePolicy := variantOfJson policyNamed

/-- The text that a value denotes. -/
def stringOfJson : Json → Except Fault String
  | .string s => .ok s
  | v => .error (.mistyped (metJson v) .string)

/-- The texts that a value denotes. -/
def stringsOfJson : Json → Except Fault (List String)
  | .array items => items.mapM stringOfJson
  | v => .error (.mistyped (metJson v) .sequence)

/-- The options with one field set. -/
def setJsonField (o : Options) (name : String) (v : Json) : Except Fault Options :=
  match name with
  | "generator" => return { o with target := ← targetOfJson v }
  | "disabled_type_maps" => return { o with disabled := ← stringsOfJson v }
  | "duplicate_policy" => return { o with policy := ← policyOfJson v }
  | name => .error (.unknownField name)

/-- The options that a value denotes. Fields that it does not set keep their defaults. -/
def ofJson : Json → Except Fault Options
  | .object members => (Json.sortedMembers members).foldlM (fun o (name, v) => o.setJsonField name v) {}
  | .array items => do
    let o ← (fieldNames.zip items).foldlM (fun o (name, v) => o.setJsonField name v) {}
    if items.length ≤ fieldNames.length then .ok o else .error (.tooLong items.length)
  | v => .error (.mistyped (metJson v) .options)

end TypeMapping.Options
