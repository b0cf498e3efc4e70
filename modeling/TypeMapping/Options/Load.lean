import TypeMapping.Directory
import TypeMapping.Options.OfToml

/-!
# Loading options

* `LoadError`              : why options could not be loaded;
* `Options.parse`          : the options that a text denotes;
* `Options.load`           : the options that a file denotes.
-/

namespace TypeMapping

/-- Why options could not be loaded. -/
inductive LoadError
  | unreadable (path : String) (fault : Directory.Fault)
  /-- The text is not TOML. -/
  | malformed
  /-- The text is TOML but does not denote options. -/
  | invalid (flaw : Options.Flaw)
  deriving DecidableEq, Repr

/-- The first line of the error as users read it. What is wrong with a text that is not TOML is not
told here. -/
def LoadError.headline : LoadError → String
  | unreadable path fault => "failed to read binding options from " ++ path ++ ": " ++ fault.message
  | malformed => "invalid binding options"
  | invalid flaw =>
    "invalid binding options: TOML parse error at line " ++ toString flaw.position.line ++
    ", column " ++ toString flaw.position.column

namespace Options

/-- The options that a text denotes. -/
def parse (text : String) : Except LoadError Options :=
  match Toml.parse? text with
  | none => .error .malformed
  | some t => (ofTable t).mapError .invalid

/-- The options that a file denotes. -/
def load (d : Directory) (path : String) : Except LoadError Options :=
  match d.readText path with
  | .error fault => .error (.unreadable path fault)
  | .ok text => parse text

end Options

end TypeMapping
