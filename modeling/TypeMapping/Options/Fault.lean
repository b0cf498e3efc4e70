import TypeMapping.Number.Shortest
import TypeMapping.Options
import TypeMapping.Text.Quoted

/-!
# What can be wrong with options

* `Met`           : a value, as far as messages tell of it;
* `Fault`         : why a value does not denote options;
* `Fault.message` : the fault as users read it.
-/

namespace TypeMapping

/-- A value that was met where another kind of value was wanted. -/
inductive Met
  | null
  | boolean (b : Bool)
  | integer (i : Int)
  | float (x : Binary64)
  | string (s : String)
  | sequence
  | map
  deriving DecidableEq, Repr

/-- The value as messages tell of it, numbers in the layout `l`. -/
def Met.describe (l : Binary64.Layout) : Met → String
  | null => "null"
  | boolean b => "boolean `" ++ toString b ++ "`"
  | integer i => "integer `" ++ toString i ++ "`"
  | float x => "floating point `" ++ x.text l ++ "`"
  | string s => "string " ++ Text.quote s
  | sequence => "sequence"
  | map => "map"

/-- What can be wanted in place of a value that was met. -/
inductive Wanted
  | sequence
  | string
  | nothing
  /-- The name of a variant, or a map with it as the only key. -/
  | variant
  | options
  deriving DecidableEq, Repr

/-- What was wanted, as messages tell of it. -/
def Wanted.describe : Wanted → String
  | sequence => "a sequence"
  | string => "a string"
  | nothing => "unit"
  | variant => "string or map"
  | options => "struct BindingOptions"

namespace Options

/-- The names of the fields, in the order in which they are listed to users. -/
def fieldNames : List String := ["generator", "disabled_type_maps", "duplicate_policy"]

/-- Why a value does not denote options. -/
inductive Fault
  | unknownField (name : String)
  /-- A name that is none of the given ones. -/
  | unknownVariant (name : String) (known : List String)
  | mistyped (met : Met) (wanted : Wanted)
  /-- A variant is written as a value that is neither a text nor a table. -/
  | variantMistyped
  /-- A variant is written as a table without keys. -/
  | variantMissing
  /-- A variant is written as a table with several keys. -/
  | variantAmbiguous
  /-- A variant is written as a key with something in the list or table behind it. -/
  | payloadFilled (kind : String)
  /-- A variant is written as a key with a value behind it that is neither a list nor a table. -/
  | payloadMistyped (kind : String)
  /-- A variant is written as a map that does not have exactly one key. -/
  | mapNotSingle
  /-- A list has more elements than there are fields. -/
  | tooLong (length : Nat)
  deriving DecidableEq, Repr

/-- Names between backquotes, as an enumeration. -/
def enumerate : List String → String
  | [a] => "`" ++ a ++ "`"
  | [a, b] => "`" ++ a ++ "` or `" ++ b ++ "`"
  | names => "one of " ++ ", ".intercalate (names.map fun a => "`" ++ a ++ "`")

/-- The fault as users read it, numbers in the layout `l`. -/
def Fault.message (l : Binary64.Layout) : Fault → String
  | unknownField name => "unknown field `" ++ name ++ "`, expected " ++ enumerate fieldNames
  | unknownVariant name known => "unknown variant `" ++ name ++ "`, expected " ++ enumerate known
  | mistyped met wanted => "invalid type: " ++ met.describe l ++ ", expected " ++ wanted.describe
  | variantMistyped => "wanted string or table"
  | variantMissing => "wanted exactly 1 element, found 0 elements"
  | variantAmbiguous => "wanted exactly 1 element, more than 1 element"
  | payloadFilled kind => "expected empty " ++ kind
  | payloadMistyped kind => "expected table, found " ++ kind
  | mapNotSingle => "invalid value: map, expected map with a single key"
  | tooLong length => "invalid length " ++ toString length ++ ", expected fewer elements in array"

/-- The variant of that name, out of those that `known` lists. -/
def variant {α : Type} (known : List α) (nameOf : α → String) (s : String) : Except Fault α :=
  match known.find? (nameOf · == s) with
  | some a => .ok a
  | none => .error (.unknownVariant s (known.map nameOf))

/-- The target of that name. -/
def targetNamed (s : String) : Except Fault Target := variant Target.all Target.name s

/-- The policy of that name. -/
def policyNamed (s : String) : Except Fault DuplicatePolicy :=
  variant DuplicatePolicy.all DuplicatePolicy.name s

end Options

end TypeMapping
