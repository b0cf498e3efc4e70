import TypeMapping.Provider
import TypeMapping.Registry

/-!
# Discovery

Discovery registers the declarations of every provider. A provider that cannot list its declarations
is noted and skipped.

* `Discovery.Report`   : what one discovery did, in numbers and errors;
* `Notice`             : what registrations and discoveries report while they run;
* `Registry.discover`  : the registry after a discovery, with its report and its notices.
-/

namespace TypeMapping

namespace Discovery

/-- The summary of one discovery. -/
structure Report where
  /-- Providers that listed their declarations. -/
  components : Nat := 0
  /-- Handlers stored under a new name. -/
  registered : Nat := 0
  /-- Handlers that took a name over. -/
  replaced : Nat := 0
  /-- Handlers that do not serve the target. -/
  filtered : Nat := 0
  failures : List LoadFailure := []
  rejected : List Ambiguity := []
  deriving DecidableEq, Repr, Inhabited

namespace Report

/-- Did no provider fail and no name collide? -/
def isClean (r : Report) : Bool := r.failures.isEmpty && r.rejected.isEmpty && r.replaced == 0

/-- The summary with one more registration. -/
def count (r : Report) : Verdict → Report
  | .added => { r with registered := r.registered + 1 }
  | .replaced _ => { r with replaced := r.replaced + 1 }
  | .filtered => { r with filtered := r.filtered + 1 }
  | .rejected error => { r with rejected := r.rejected ++ [error] }

end Report

end Discovery

/-! ## Notices -/

/-- What registrations and discoveries report. -/
inductive Notice
  /-- A handler does not serve the target. -/
  | filteredOut (name origin : String) (filter : Target.Filter) (target : Target)
  /-- A handler took a name over. -/
  | replaced (name existing incoming : String)
  /-- A handler was refused. -/
  | rejected (error : Ambiguity)
  /-- A component could not list its declarations. -/
  | componentFailed (component : String) (failure : LoadFailure)
  /-- A discovery came to its end. -/
  | finished (report : Discovery.Report)
  deriving DecidableEq, Repr

/-- What the registration of `d` reports. -/
def Registry.notices (r : Registry) (d : Declaration) : List Notice :=
  match r.verdict d with
  | .added => []
  | .replaced existing => [.replaced d.name existing d.origin]
  | .filtered => [.filteredOut d.name d.origin d.filter r.options.target]
  | .rejected error => [.rejected error]

/-! ## Discovery -/

/-- A discovery under way: the registry, the summary and the notices so far. -/
structure Discovery where
  registry : Registry
  report : Discovery.Report := {}
  notices : List Notice := []

namespace Discovery

/-- One more registration. -/
def register (s : Discovery) (d : Declaration) : Discovery where
  registry := s.registry.register d
  report := s.report.count (s.registry.verdict d)
  notices := s.notices ++ s.registry.notices d

/-- One more provider; its handlers have the component as their origin. -/
def visit (s : Discovery) (p : Provider) : Discovery :=
  match p.declarations with
  | .error failure =>
    { s with
      report := { s.report with failures := s.report.failures ++ [failure] }
      notices := s.notices ++ [.componentFailed p.component failure] }
  | .ok ds =>
    (ds.map fun d => { d with origin := p.component }).foldl register
      { s with report := { s.report with components := s.report.components + 1 } }

end Discovery

/-- The discovery of `providers`, one after the other. -/
def Registry.discover (r : Registry) (providers : List Provider) : Discovery :=
  let s := providers.foldl Discovery.visit { registry := r }
  { s with notices := s.notices ++ [.finished s.report] }

end TypeMapping
