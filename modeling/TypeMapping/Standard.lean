import TypeMapping.Handler

/-!
# Handlers for the standard library

* `narrowString`, `wideString` : character strings, mapped to the string of the target;
* `nullPointer`                : the type of the null pointer literal, whose uses are skipped;
* `vector`, `map`              : containers, under the name of their template;
* `declarations`               : the claims of these handlers.
-/

namespace TypeMapping.Standard

/-- The string type of a target; the C family has none that is mapped. -/
def stringSignature : Target → Option String
  | .csharp | .typescript | .napi | .quickjs | .emscripten => some "string"
  | .cli => some "System::String^"
  | .c | .cpp => none

/-- Narrow character strings. -/
def narrowString : Handler.Factory := fun _ => { signature := stringSignature }

/-- Wide character strings. -/
def wideString : Handler.Factory := fun _ => { signature := stringSignature }

/-- The type of the null pointer literal. -/
def nullPointer : Handler.Factory := fun _ => { ignored := true }

/-- Vectors, whatever their elements. -/
def vector : Handler.Factory := fun _ =>
  { signature := fun
      | .csharp => some "global::System.Collections.Generic.List"
      | .cli => some "System::Collections::Generic::List^"
      | .typescript => some "Array"
      | _ => none }

/-- Maps, whatever their keys and values. -/
def map : Handler.Factory := fun _ =>
  { signature := fun _ => some "System::Collections::Generic::Dictionary^" }

/-- The component that contributes these handlers. -/
def component : String := "typemapdb-std"

/-- The claims of the standard handlers. -/
def declarations : List Declaration :=
  [{ name := "std::string", origin := component, factory := narrowString },
   { name := "std::wstring", origin := component, factory := wideString },
   { name := "std::nullptr_t", origin := component, factory := nullPointer },
   { name := "std::vector", origin := component, factory := vector },
   { name := "std::map", filter := .only .cli, origin := component, factory := map }]

end TypeMapping.Standard
