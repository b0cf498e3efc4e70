import TypeMapping.Discovery
import TypeMapping.FrontEnd
import TypeMapping.Presentation

/-!
# Sessions

* `Language`       : a front end together with the names that a renderer gives its nodes;
* `Session`        : the registry, the memo of resolved nodes, and the node that each entry was last
  bound to;
* `Recall`         : what the memo says about a node;
* `register`, `discover`, `setEnabled`, `forget` : what changes a session, resolution apart.

Main statements: `consult_eq_ready`, `consult_eq_barred`, what the memo leads to still stands for its name.
-/

namespace TypeMapping

/-- A front end and the names of its nodes. -/
structure Language (Node Decl Key : Type) extends FrontEnd Node Decl Key where
  render : Renderer Node

/-- The state of one binding session. -/
structure Session (Node Key : Type) where
  registry : Registry
  /-- The entries that nodes were resolved to by their names. Failures are not kept. -/
  memo : Dict Key EntryId := .empty
  /-- The node of the most recent resolution that came to an entry. -/
  bound : Dict EntryId Node := .empty

/-- What the memo says about a node. -/
inductive Recall
  | absent
  /-- The node was resolved to an entry that has lost its name since. -/
  | superseded (id : EntryId)
  /-- The node was resolved to an entry that is switched off. -/
  | barred (id : EntryId)
  | ready (id : EntryId)
  deriving DecidableEq, Repr

namespace Session

variable {Node Key : Type}

/-- A session in which nothing was resolved yet. -/
def new (registry : Registry) : Session Node Key := { registry }

/-- The node that the entry was last bound to. -/
def boundTo? (s : Session Node Key) (id : EntryId) : Option Node := s.bound.get? id

/-- The session after a registration. -/
def register (s : Session Node Key) (d : Declaration) : Session Node Key :=
  { s with registry := s.registry.register d }

/-- The session after a discovery. -/
def discover (s : Session Node Key) (ps : List Provider) : Session Node Key :=
  { s with registry := (s.registry.discover ps).registry }

/-- The session after an entry was switched on or off. -/
def setEnabled (s : Session Node Key) (id : EntryId) (enabled : Bool) : Session Node Key :=
  { s with registry := s.registry.setEnabled id enabled }

/-- The session with an empty memo. -/
def forget (s : Session Node Key) : Session Node Key := { s with memo := .empty }

/-- The entry that `name` stands for, if it is enabled. No type is spelled for it. -/
def resolveName (s : Session Node Key) (name : String) : Option EntryId := s.registry.lookup? name

variable [DecidableEq Key]

/-- What the memo says about the node with that key. -/
def consult (s : Session Node Key) (k : Key) : Recall :=
  match s.memo.get? k with
  | none => .absent
  | some id =>
    if s.registry.isCurrent id then
      if s.registry.isEnabled id then .ready id else .barred id
    else .superseded id

variable {s : Session Node Key} {k : Key} {id : EntryId}

/-- The memo leads to an entry that still has its name: whether it is ready depends on its switch. -/
theorem consult_of_isCurrent (h : s.memo.get? k = some id) (hc : s.registry.isCurrent id = true) :
    s.consult k = if s.registry.isEnabled id then .ready id else .barred id := by
  simp [consult, h, hc]

theorem consult_eq_ready (h : s.consult k = .ready id) :
    s.memo.get? k = some id ∧
      ∃ e, s.registry.byId? id = some e ∧ s.registry.lookup? e.name = some id := by
  unfold consult at h
  split at h
  · cases h
  · next i hi =>
    split at h
    · next hc =>
      split at h
      · next he =>
        obtain rfl := Recall.ready.inj h
        obtain ⟨e, hb, hg⟩ := Registry.isCurrent_eq_true_iff.1 hc
        exact ⟨hi, e, hb, Registry.lookup?_eq_some_iff.2 ⟨hg, he⟩⟩
      · cases h
    · cases h

theorem consult_eq_barred (h : s.consult k = .barred id) :
    s.memo.get? k = some id ∧ s.registry.isEnabled id = false ∧
      ∃ e, s.registry.byId? id = some e ∧ s.registry.get? e.name = some id := by
  unfold consult at h
  split at h
  · cases h
  · next i hi =>
    split at h
    · next hc =>
      split at h
      · cases h
      · next he =>
        obtain rfl := Recall.barred.inj h
        exact ⟨hi, Bool.eq_false_iff.2 he, Registry.isCurrent_eq_true_iff.1 hc⟩
    · cases h

end Session

end TypeMapping
