import TypeMapping.Options

/-!
# Handlers

A handler says how one type of the source language is represented in generated code.

* `Handler`         : its three answers;
* `Handler.Factory` : a handler for each session, built from the options of the session;
* `Declaration`     : a factory with the name that it claims, the targets it serves and its origin.
-/

namespace TypeMapping

/-- How one type is represented by the generator. The defaults are those of a handler that only marks
its type as known. -/
structure Handler where
  /-- May the handler be used without being switched on first? -/
  enabled : Bool := true
  /-- Are declarations that use the type skipped? -/
  ignored : Bool := false
  /-- The spelling of the type in the language of the target. -/
  signature : Target → Option String := fun _ => none

namespace Handler

/-- Builds the handler of one session. -/
abbrev Factory := Options → Handler

/-- The handler with all defaults, in every session. -/
def plain : Factory := fun _ => {}

/-- The handler that has to be switched on, in every session. -/
def disabled : Factory := fun _ => { enabled := false }

end Handler

/-- A claim to a canonical name. -/
structure Declaration where
  /-- The canonical name. -/
  name : String
  /-- The targets that the handler serves. -/
  filter : Target.Filter := .any
  /-- The component that the handler comes from. -/
  origin : String
  factory : Handler.Factory := Handler.plain

/-- The origin of handlers that the embedding application registers itself. -/
def Declaration.runtimeOrigin : String := "runtime"

end TypeMapping
