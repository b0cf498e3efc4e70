import TypeMapping.Collision
import TypeMapping.Dict
import TypeMapping.Handler

/-!
# The registry

Handlers under canonical names. Entries are never dropped: a registration that replaces another one
stores a new entry and points the name to it, and the old entry stays readable under its number.

* `Entry`, `EntryId`    : a stored handler, and its place among all that were ever stored;
* `Registry`            : the entries, the entry of each name, and the collisions so far;
* `get?`, `lookup?`     : the entry of a name, and the same for enabled entries only;
* `verdict`, `register` : what becomes of a registration, and the registry after it;
* `setEnabled`          : switches an entry on or off.

Main statements: `exists_entry_of_get?`, `get?_store`, `byId?_store`, `byId?_setEnabled`, `lookup?_store`,
`lookup?_eq_some_iff`.
-/

namespace TypeMapping

/-! ## Entries -/

/-- The place of an entry among all entries that were ever stored. -/
abbrev EntryId := Nat

/-- A handler that was stored under a name. -/
structure Entry where
  name : String
  /-- The component that contributed the handler. -/
  origin : String
  filter : Target.Filter
  handler : Handler
  /-- Whether resolutions may end at the entry. -/
  enabled : Bool

/-- The entry with its fields spelled out. -/
def Entry.describe (e : Entry) : String :=
  "TypeMapEntry \x7b name: " ++ Text.quote e.name ++ ", origin: " ++ Text.quote e.origin ++
  ", generator: " ++ e.filter.label ++ ", enabled: " ++ toString e.enabled ++ ", .. \x7d"

/-- The entry that a session with options `o` makes of a declaration. It starts enabled unless the
options exclude its name or the handler itself asks to start disabled. -/
def Declaration.entry (d : Declaration) (o : Options) : Entry where
  name := d.name
  origin := d.origin
  filter := d.filter
  handler := d.factory o
  enabled := !o.disables d.name && (d.factory o).enabled

/-! ## The registry -/

/-- Handlers under canonical names. -/
structure Registry where
  options : Options
  /-- Every entry that was ever stored. -/
  entries : Array Entry
  /-- The entry that each name stands for. -/
  index : Dict String EntryId
  /-- The claims to taken names, in order. -/
  collisions : List Collision
  /-- A name stands for an entry of that name. -/
  index_named : ∀ name id, index.get? name = some id → entries[id]?.map Entry.name = some name

/-- What becomes of a registration. -/
inductive Verdict
  /-- The handler is stored under a new name. -/
  | added
  /-- The handler takes the name over from one whose origin is given. -/
  | replaced (existing : String)
  /-- The handler does not serve the target and nothing is stored. -/
  | filtered
  /-- The name is taken and stays with the handler that has it. -/
  | rejected (error : Ambiguity)
  deriving DecidableEq, Repr

namespace Registry

/-- The registry of a session before any registration. -/
def new (options : Options) : Registry where
  options
  entries := Array.empty
  index := .empty
  collisions := []
  index_named _ _ h := by cases h

/-- The entry with that number. -/
def byId? (r : Registry) (id : EntryId) : Option Entry := r.entries[id]?

/-- The entry that `name` stands for, enabled or not. -/
def get? (r : Registry) (name : String) : Option EntryId := r.index.get? name

/-- Is the entry enabled? -/
def isEnabled (r : Registry) (id : EntryId) : Bool := (r.byId? id).any Entry.enabled

/-- The enabled entry that `name` stands for. -/
def lookup? (r : Registry) (name : String) : Option EntryId := (r.get? name).filter r.isEnabled

/-- Does the name of the entry still stand for it, or for one that took the name over? -/
def isCurrent (r : Registry) (id : EntryId) : Bool :=
  (r.byId? id).any fun e => r.get? e.name = some id

/-- The names that stand for an entry, in increasing order. -/
def names (r : Registry) : List String := r.index.keys.mergeSort (· ≤ ·)

/-- The number of names. -/
def size (r : Registry) : Nat := r.index.size

/-- Is there no name? -/
def isEmpty (r : Registry) : Bool := r.index.isEmpty

/-- What becomes of the registration of `d`. -/
def verdict (r : Registry) (d : Declaration) : Verdict :=
  if d.filter.admits r.options.target then
    match (r.get? d.name).bind r.byId? with
    | none => .added
    | some holder =>
      match r.options.policy with
      | .lastWins => .replaced holder.origin
      | .reject => .rejected ⟨d.name, holder.origin, d.origin⟩
  else .filtered

/-- The registry with one more entry, for which its name stands from then on. -/
def store (r : Registry) (e : Entry) : Registry where
  options := r.options
  entries := r.entries.push e
  index := r.index.insert e.name r.entries.size
  collisions := r.collisions
  index_named name id h := by
    rw [Dict.get?_insert] at h
    split at h
    · next hn =>
      obtain rfl := Option.some.inj h
      simp [hn]
    · have := r.index_named name id h
      rw [Array.getElem?_push]
      split
      · next hi => simp [hi] at this
      · exact this

/-- The registry with one more collision on record. -/
def record (r : Registry) (c : Collision) : Registry :=
  { r with collisions := r.collisions ++ [c] }

/-- The registry after the registration of `d`. -/
def register (r : Registry) (d : Declaration) : Registry :=
  match r.verdict d with
  | .filtered => r
  | .added => r.store (d.entry r.options)
  | .replaced existing =>
    (r.store (d.entry r.options)).record ⟨d.name, existing, d.origin, r.options.policy⟩
  | .rejected error => r.record ⟨error.name, error.existing, error.incoming, r.options.policy⟩

/-- The registry after the entry was switched on or off. -/
def setEnabled (r : Registry) (id : EntryId) (enabled : Bool) : Registry where
  options := r.options
  entries := r.entries.modify id fun e => { e with enabled }
  index := r.index
  collisions := r.collisions
  index_named name i h := by
    have := r.index_named name i h
    rw [Array.getElem?_modify]
    split
    · simpa [Option.map_map, Function.comp_def] using this
    · exact this

/-! ## What the operations change -/

@[simp] theorem get?_new (o : Options) (name : String) : (new o).get? name = none := rfl

theorem exists_entry_of_get? {r : Registry} {name : String} {id : EntryId} (h : r.get? name = some id) :
    ∃ e, r.byId? id = some e ∧ e.name = name := by
  simpa [byId?, Option.map_eq_some_iff] using r.index_named name id h

@[simp] theorem get?_record (r : Registry) (c : Collision) (name : String) :
    (r.record c).get? name = r.get? name := rfl

@[simp] theorem byId?_record (r : Registry) (c : Collision) (id : EntryId) :
    (r.record c).byId? id = r.byId? id := rfl

@[simp] theorem get?_store (r : Registry) (e : Entry) (name : String) :
    (r.store e).get? name = if e.name = name then some r.entries.size else r.get? name :=
  Dict.get?_insert ..

@[simp] theorem byId?_store (r : Registry) (e : Entry) (id : EntryId) :
    (r.store e).byId? id = if id = r.entries.size then some e else r.byId? id :=
  Array.getElem?_push

@[simp] theorem get?_setEnabled (r : Registry) (i : EntryId) (b : Bool) (name : String) :
    (r.setEnabled i b).get? name = r.get? name := rfl

theorem byId?_setEnabled (r : Registry) (i : EntryId) (b : Bool) (id : EntryId) :
    (r.setEnabled i b).byId? id =
      if i = id then (r.byId? id).map fun e => { e with enabled := b } else r.byId? id := by
  simp only [byId?, setEnabled, Array.getElem?_modify]

theorem lookup?_eq_some_iff {r : Registry} {name : String} {id : EntryId} :
    r.lookup? name = some id ↔ r.get? name = some id ∧ r.isEnabled id = true := by
  simp [lookup?, Option.filter_eq_some_iff]

theorem get?_of_lookup? {r : Registry} {name : String} {id : EntryId} (h : r.lookup? name = some id) :
    r.get? name = some id := (lookup?_eq_some_iff.1 h).1

theorem exists_entry_of_lookup? {r : Registry} {name : String} {id : EntryId}
    (h : r.lookup? name = some id) : ∃ e, r.byId? id = some e ∧ e.name = name :=
  exists_entry_of_get? (get?_of_lookup? h)

theorem ne_size_of_byId? {r : Registry} {id : EntryId} {e : Entry} (h : r.byId? id = some e) :
    id ≠ r.entries.size := by
  rintro rfl
  simp [byId?] at h

theorem isEnabled_store {r : Registry} {id : EntryId} {e' : Entry} (h : r.byId? id = some e') (e : Entry) :
    (r.store e).isEnabled id = r.isEnabled id := by
  rw [isEnabled, byId?_store, if_neg (ne_size_of_byId? h), isEnabled]

/-- A stored entry takes its name over, and other names stand for what they stood for. -/
theorem lookup?_store (r : Registry) (e : Entry) (name : String) : (r.store e).lookup? name =
    if e.name = name then if e.enabled then some r.entries.size else none else r.lookup? name := by
  rw [lookup?, lookup?, get?_store]
  split
  · simp [Option.filter_some, isEnabled]
  · cases hg : r.get? name with
    | none => rfl
    | some id =>
      obtain ⟨e', he', -⟩ := exists_entry_of_get? hg
      rw [Option.filter_some, Option.filter_some, isEnabled_store he']

theorem isCurrent_eq_true_iff {r : Registry} {id : EntryId} :
    r.isCurrent id = true ↔ ∃ e, r.byId? id = some e ∧ r.get? e.name = some id := by
  simp [isCurrent, Option.any_eq_true]

/-- What a name stands for has that name. -/
theorem isCurrent_of_get? {r : Registry} {name : String} {id : EntryId} (h : r.get? name = some id) :
    r.isCurrent id = true := by
  obtain ⟨e, he, rfl⟩ := exists_entry_of_get? h
  exact isCurrent_eq_true_iff.2 ⟨e, he, h⟩

end Registry

end TypeMapping
