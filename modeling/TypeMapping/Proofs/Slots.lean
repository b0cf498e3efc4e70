import TypeMapping.Proofs.Derivation
import TypeMapping.Proofs.Run

/-!
# Slots

What the slots of the memo have in common, whatever it is that is said of a node and a name.

* `Session.Slots`  : every slot leads from a node to an entry whose name is right for it;
* `Session.sample` : a session with one entry, and `Walk.sample`, the walk that fills its first slot.

Main statements: `Slots.of_get?`, what holds of one node holds of all with its key; `Slots.conclude` and
`Slots.extend`, a walk that stores the right nodes and an action that is no resolution keep the slots right.
-/

namespace TypeMapping

variable {Node Decl Key : Type} [DecidableEq Key] {lang : Language Node Decl Key}

namespace Session

/-- Every slot of the memo leads from a node to an entry whose name is right for the node. -/
def Slots (lang : Language Node Decl Key) (Right : Node → String → Prop) (s : Session Node Key) : Prop :=
  ∀ k id, s.memo.get? k = some id →
    ∃ n e, lang.key n = k ∧ s.registry.byId? id = some e ∧ Right n e.name

variable {Right : Node → String → Prop} {s : Session Node Key}

theorem slots_of_empty (h : ∀ k, s.memo.get? k = none) : s.Slots lang Right := by
  intro k id hk
  rw [h] at hk
  cases hk

/-- Whatever node it is that the memo leads from, the name is right for it. -/
theorem Slots.of_get? (hs : s.Slots lang Right) {n : Node}
    (hright : ∀ m name, lang.key m = lang.key n → Right m name → Right n name) {id : EntryId}
    (h : s.memo.get? (lang.key n) = some id) {e : Entry} (he : s.registry.byId? id = some e) :
    Right n e.name := by
  obtain ⟨m, e', hk, he', hm⟩ := hs _ _ h
  obtain rfl : e' = e := Option.some.inj (he'.symm.trans he)
  exact hright m _ hk hm

theorem Slots.conclude (hs : s.Slots lang Right) {w : Walk Node}
    (h : ∀ id m, (id, m) ∈ w.stores → ∃ name, s.registry.lookup? name = some id ∧ Right m name) :
    (s.conclude lang w).session.Slots lang Right := by
  intro k id hk
  rw [registry_conclude]
  rcases mem_stores_or_get? hk with ⟨m, hm, rfl⟩ | hk
  · obtain ⟨name, hl, hright⟩ := h id m hm
    obtain ⟨e, he, rfl⟩ := Registry.exists_entry_of_lookup? hl
    exact ⟨m, e, rfl, he, hright⟩
  · exact hs k id hk

theorem Slots.extend (hs : s.Slots lang Right) {s' : Session Node Key}
    (hr : s.registry.Extends s'.registry) (hm : s'.memo = s.memo ∨ s'.memo = .empty) :
    s'.Slots lang Right := by
  rcases hm with hm | hm
  · intro k id hk
    rw [hm] at hk
    obtain ⟨n, e, hn, he, hright⟩ := hs k id hk
    obtain ⟨b, he⟩ := hr.entries id e he
    exact ⟨n, _, hn, he, hright⟩
  · exact slots_of_empty fun k => by rw [hm]; rfl

/-! ## A session with a slot -/

/-- A session with one entry, of the name `V`. -/
def sample : Session TypeTerm TypeTerm := (new (.new {})).register { name := "V", origin := "a" }

end Session

/-- The walk that resolves `V` in that session. -/
def Walk.sample : Walk TypeTerm :=
  ⟨[.rendered (.named "V") {} "V" true, .stored 0 (.named "V"), .bound 0 (.named "V")],
    some (0, .named "V")⟩

theorem Session.walks_sample (start : TypeTerm) :
    sample.outlook.Walks TypeTerm.plain .untried start (.named "V") .sample :=
  .unsettled rfl (.classless rfl (.spelled rfl rfl))

end TypeMapping
