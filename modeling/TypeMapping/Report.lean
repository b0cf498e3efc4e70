import TypeMapping.Resolution

/-!
# Reports

What a session tells about its work, line by line. A line has a level, a message and named fields.

* `Report.Line` : a line;
* `Notice.line` : the line of a notice;
* `Step.line?`  : the line of a step of a resolution; storing and binding are silent;
* `Step.rendering?` : the node and the presentation that a step asked the renderer for;
* `Entry.describeResolved` : the outcome of a resolution, spelled out.
-/

namespace TypeMapping

namespace Report

/-- How urgent a line is. -/
inductive Level
  | trace
  | debug
  | warning
  | error
  deriving DecidableEq, Repr

/-- The name of a level. -/
def Level.name : Level → String
  | trace => "TRACE"
  | debug => "DEBUG"
  | warning => "WARN"
  | error => "ERROR"

/-- The value of a field. -/
inductive Field
  | text (s : String)
  | count (n : Nat)
  deriving DecidableEq, Repr

/-- One line of a report. -/
structure Line where
  level : Level
  message : String
  fields : List (String × Field)
  deriving DecidableEq, Repr

end Report

open Report

/-- The line of a notice. -/
def Notice.line : Notice → Line
  | filteredOut name origin filter target =>
    ⟨.trace, "type map filtered out",
      [("name", .text name), ("origin", .text origin), ("filter", .text filter.name),
       ("generator", .text target.name)]⟩
  | replaced name existing incoming =>
    ⟨.warning, "type map registered twice; later registration wins",
      [("name", .text name), ("existing", .text existing), ("incoming", .text incoming)]⟩
  | rejected error =>
    ⟨.error, "ambiguous type map registration rejected",
      [("name", .text error.name), ("existing", .text error.existing),
       ("incoming", .text error.incoming)]⟩
  | componentFailed component failure =>
    ⟨.error, "error loading type maps",
      [("component", .text component), ("error", .text failure.message)]⟩
  | finished report =>
    ⟨.debug, "type map discovery finished",
      [("components", .count report.components), ("registered", .count report.registered),
       ("replaced", .count report.replaced), ("filtered", .count report.filtered),
       ("failures", .count report.failures.length)]⟩

namespace Step

variable {Node : Type}

/-- The node and the presentation that a step asked the renderer for. -/
def rendering? : Step Node → Option (Node × Presentation)
  | rendered n p _ _ => some (n, p)
  | _ => none

/-- The line of a step, where `r` holds the entries and `describe` spells the nodes out. -/
def line? (r : Registry) (describe : Node → String) : Step Node → Option Line
  | superseded id n =>
    some ⟨.trace, "cached type map was replaced", [("name", name id), ("ty", .text (describe n))]⟩
  | barred id n =>
    some ⟨.debug, "cached type map is disabled", [("name", name id), ("ty", .text (describe n))]⟩
  | rendered _ p name true =>
    some ⟨.debug, "type map found", [("name", .text name), ("config", .text p.describe)]⟩
  | rendered _ p name false =>
    some ⟨.trace, "no type map", [("name", .text name), ("config", .text p.describe)]⟩
  | unwrapped .sugar outer inner =>
    some ⟨.trace, "retrying desugared type",
      [("from", .text (describe outer)), ("to", .text (describe inner))]⟩
  | unwrapped .indirection outer inner =>
    some ⟨.trace, "retrying pointee type",
      [("from", .text (describe outer)), ("to", .text (describe inner))]⟩
  | unmatched start => some ⟨.debug, "no type map found", [("ty", .text (describe start))]⟩
  | stored .. => none
  | bound .. => none
where
  /-- The name of an entry. -/
  name (id : EntryId) : Field := .text (((r.byId? id).map Entry.name).getD "")

end Step

/-- What a resolution came to, spelled out, where `node` spells the node out. -/
def Entry.describeResolved (e : Entry) (node : String) : String :=
  "ResolvedTypeMap \x7b entry: " ++ e.describe ++ ", ty: " ++ node ++ " \x7d"

end TypeMapping
