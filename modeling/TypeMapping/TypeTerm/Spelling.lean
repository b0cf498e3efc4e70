import TypeMapping.Dict
import TypeMapping.Presentation
import TypeMapping.TypeTerm

/-!
# Spellings of type terms

* `TypeTerm.spell`       : a spelling that is the same in every presentation;
* `TypeTerm.spellExcept` : that spelling, but for listed exceptions;
* `TypeTerm.styled`      : a spelling that obeys the presentation.
-/

namespace TypeMapping.TypeTerm

/-! ## One spelling for all presentations -/

mutual

/-- Typedefs by their own name, pointers with `*` behind, arguments between angle brackets. -/
def spell : TypeTerm → String
  | named name => name
  | typedef name _ => name
  | pointer t => spell t ++ "*"
  | specialization template arguments _ _ =>
    template ++ "<" ++ ", ".intercalate (spellEach arguments) ++ ">"

/-- The spellings of several types. -/
def spellEach : List TypeTerm → List String
  | [] => []
  | t :: ts => spell t :: spellEach ts

end

/-- Names that deviate from `spell`, each for one type in one presentation. -/
abbrev Exceptions := Dict (TypeTerm × Presentation) String

/-- `spell`, but for listed exceptions. -/
def spellExcept (exceptions : Exceptions) : Renderer TypeTerm := fun t p =>
  (exceptions.get? (t, p)).getD (spell t)

/-! ## Spellings that obey the presentation -/

/-- What follows the last `::`, if there is one. -/
def afterLastScope? : List Char → Option (List Char)
  | [] => none
  | c :: cs =>
    match afterLastScope? cs with
    | some rest => some rest
    | none => if c == ':' && cs.head? == some ':' then some cs.tail else none

/-- A name without its enclosing scopes. -/
def unscoped (name : List Char) : List Char := (afterLastScope? name).getD name

/-- The qualifier that a name may start with. -/
def qualifier : List Char := "const ".toList

/-- A declared name. The qualifier in front of it is no part of the scopes. -/
def styledName (name : String) (p : Presentation) : String :=
  let cs := name.toList
  let qualified := qualifier.isPrefixOf cs
  let bare := if qualified then cs.drop qualifier.length else cs
  let shown := match p.scope with
    | .unscoped => unscoped bare
    | .qualified => bare
  String.ofList (if qualified && p.qualifiers then qualifier ++ shown else shown)

mutual

/-- A spelling that obeys the presentation: a typedef gives way to its target when typedefs are
resolved, `*` is a modifier, and every name is scoped and qualified as asked. -/
def styled : Renderer TypeTerm
  | named name, p => styledName name p
  | typedef name target, p => if p.resolveTypedefs then styled target p else styledName name p
  | pointer t, p => styled t p ++ (if p.modifiers then "*" else "")
  | specialization template arguments _ _, p =>
    styledName template p ++ "<" ++ ", ".intercalate (styledEach arguments p) ++ ">"

/-- The spellings of several types. -/
def styledEach : List TypeTerm → Presentation → List String
  | [], _ => []
  | t :: ts, p => styled t p :: styledEach ts p

end

end TypeMapping.TypeTerm
