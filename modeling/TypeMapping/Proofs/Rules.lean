import TypeMapping.Resolution

/-!
# The rules of a walk

* `Stage`            : how far a node has been tried;
* `Outlook.Walks`    : the walks from a node at a stage, one rule for each way in which they go on;
* `Outlook.from?`    : the walk from a node at a stage, `walk?`, `attempt?` or `scan?`;
* `Session.Preempts` : a slot of the memo by which it settles a node.

Main statements: `from?_eq_some_iff`, the rules describe exactly the walks that end; `walks_unique`;
`exists_walks_of_preempts`, where the memo leads to an entry that still has its name, it has the last word.
-/

namespace TypeMapping

/-- How far a node has been tried. -/
inductive Stage
  /-- Not at all. -/
  | untried
  /-- The memo does not settle it. -/
  | unsettled
  /-- Nor does the class declared for it. -/
  | classless
  deriving DecidableEq, Repr

/-- Is the node still to be tried, whatever the memo says? -/
def Recall.isOpen : Recall → Bool
  | .absent | .superseded _ => true
  | .barred _ | .ready _ => false

namespace Outlook

variable {Node Decl Key : Type} [DecidableEq Key] (lang : Language Node Decl Key) (o : Outlook Key)

/-- The walks from a node at a stage, in the resolution that began with the first node. -/
inductive Walks : Stage → Node → Node → Walk Node → Prop
  | ready {start n : Node} {id : EntryId} (hr : o.consult (lang.key n) = .ready id) :
      Walks .untried start n (.found id n)
  | barred {start n : Node} {id : EntryId} (hr : o.consult (lang.key n) = .barred id) :
      Walks .untried start n ⟨[.barred id n], none⟩
  | unsettled {start n : Node} {w : Walk Node} (hr : (o.consult (lang.key n)).isOpen = true)
      (hw : Walks .unsettled start n w) :
      Walks .untried start n (w.after ((o.consult (lang.key n)).steps n))
  | classless {start n : Node} {w : Walk Node} (hc : lang.classTag? n = none)
      (hw : Walks .classless start n w) : Walks .unsettled start n w
  | ofClass {start n m : Node} {w : Walk Node} (hc : lang.classTag? n = some m)
      (hm : Walks .untried m m w) (ha : w.answer ≠ none) : Walks .unsettled start n w
  | classFailed {start n m : Node} {c w : Walk Node} (hc : lang.classTag? n = some m)
      (hm : Walks .untried m m c) (ha : c.answer = none) (hw : Walks .classless start n w) :
      Walks .unsettled start n (w.after c.trail)
  | ofTemplate {start n m : Node} {w : Walk Node} (ht : lang.templateTag? n = some m)
      (hm : Walks .untried m m w) : Walks .classless start n (w.rebind n)
  | spelled {start n : Node} {id : EntryId} (ht : lang.templateTag? n = none)
      (hs : (o.search lang n Presentation.searchOrder).2 = some id) :
      Walks .classless start n ((Walk.found id n).after
        ((o.search lang n Presentation.searchOrder).1 ++ [.stored id n]))
  | unwrapped {start n m : Node} {layer : Layer} {w : Walk Node} (ht : lang.templateTag? n = none)
      (hs : (o.search lang n Presentation.searchOrder).2 = none)
      (hu : lang.unwrap? n = some (layer, m)) (hm : Walks .untried start m w) :
      Walks .classless start n (w.after
        ((o.search lang n Presentation.searchOrder).1 ++ [.unwrapped layer n m]))
  | unmatched {start n : Node} (ht : lang.templateTag? n = none)
      (hs : (o.search lang n Presentation.searchOrder).2 = none) (hu : lang.unwrap? n = none) :
      Walks .classless start n
        ⟨(o.search lang n Presentation.searchOrder).1 ++ [.unmatched start], none⟩

/-- The walk from a node at a stage. -/
def from? : Stage → Node → Node → Option (Walk Node)
  | .untried => o.walk? lang
  | .unsettled => o.attempt? lang
  | .classless => o.scan? lang

variable {lang o}

/-! ## The rules describe the walks -/

theorem walk?_of_isOpen {start n : Node} (hr : (o.consult (lang.key n)).isOpen = true) :
    o.walk? lang start n =
      (o.attempt? lang start n).map (Walk.after ((o.consult (lang.key n)).steps n)) := by
  rw [walk?]
  revert hr
  cases o.consult (lang.key n) with
  | absent | superseded id => intro _; cases o.attempt? lang start n <;> rfl
  | barred id | ready id => exact fun hr => absurd hr (by simp [Recall.isOpen])

theorem from?_of_walks {st : Stage} {start n : Node} {w : Walk Node} (h : o.Walks lang st start n w) :
    o.from? lang st start n = some w := by
  induction h with
  | ready hr => simp only [from?]; rw [walk?, hr]
  | barred hr => simp only [from?]; rw [walk?, hr]
  | unsettled hr _ ih =>
    simp only [from?] at ih ⊢
    rw [walk?_of_isOpen hr, ih, Option.map_some]
  | classless hc _ ih => simp only [from?] at ih ⊢; rw [attempt?, hc]; exact ih
  | ofClass hc _ ha ih =>
    obtain ⟨a, ha⟩ := Option.ne_none_iff_exists'.1 ha
    simp only [from?] at ih ⊢
    rw [attempt?, hc]
    simp [ih, ha]
  | classFailed hc _ ha _ ihm ihw =>
    simp only [from?] at ihm ihw ⊢
    rw [attempt?, hc]
    simp [ihm, ha, ihw]
  | ofTemplate ht _ ih =>
    simp only [from?] at ih ⊢
    rw [scan?, ht]
    simp [ih]
  | spelled ht hs => simp only [from?]; rw [scan?, ht]; simp [hs]
  | unwrapped ht hs hu _ ih =>
    simp only [from?] at ih ⊢
    rw [scan?, ht]
    simp [hs, hu, ih]
  | unmatched ht hs hu => simp only [from?]; rw [scan?, ht]; simp [hs, hu]

/-- Every walk that ends is made by the rules: the fixpoint induction has one part for each stage. -/
theorem walks_of_some :
    (∀ start n w, o.walk? lang start n = some w → o.Walks lang .untried start n w) ∧
    (∀ start n w, o.attempt? lang start n = some w → o.Walks lang .unsettled start n w) ∧
    (∀ start n w, o.scan? lang start n = some w → o.Walks lang .classless start n w) := by
  refine walk?.mutual_partial_correctness lang o (o.Walks lang .untried) (o.Walks lang .unsettled)
    (o.Walks lang .classless) ?_ ?_ ?_
  · intro attempt ih start n w h
    -- both ways in which the memo leaves the node open
    have hsteps : ∀ r, o.consult (lang.key n) = r → r.isOpen = true →
        (do let w ← attempt start n; pure (w.after (r.steps n)) : Option (Walk Node)) = some w →
        o.Walks lang .untried start n w := by
      rintro r rfl hr h
      obtain ⟨v, hv, h⟩ := Option.bind_eq_some_iff.1 h
      obtain rfl := Option.some.inj h
      exact .unsettled hr (ih _ _ _ hv)
    cases hr : o.consult (lang.key n) with
    | ready id => rw [hr] at h; exact Option.some.inj h ▸ .ready hr
    | barred id => rw [hr] at h; exact Option.some.inj h ▸ .barred hr
    | absent => rw [hr] at h; exact hsteps _ hr rfl h
    | superseded id => rw [hr] at h; exact hsteps _ hr rfl h
  · intro walk scan ihw ihs start n w h
    split at h
    · next hc => exact .classless hc (ihs _ _ _ h)
    · next m hc =>
      obtain ⟨c, hm, h⟩ := Option.bind_eq_some_iff.1 h
      split at h
      · next a ha =>
        obtain rfl := Option.some.inj h
        exact .ofClass hc (ihw _ _ _ hm) (by simp [ha])
      · next ha =>
        obtain ⟨v, hv, h⟩ := Option.bind_eq_some_iff.1 h
        obtain rfl := Option.some.inj h
        exact .classFailed hc (ihw _ _ _ hm) ha (ihs _ _ _ hv)
  · intro walk ih start n w h
    split at h
    · next m ht =>
      obtain ⟨v, hv, h⟩ := Option.bind_eq_some_iff.1 h
      obtain rfl := Option.some.inj h
      exact .ofTemplate ht (ih _ _ _ hv)
    · next ht =>
      dsimp only at h
      split at h
      · next id hs => exact Option.some.inj h ▸ .spelled ht hs
      · next hs =>
        split at h
        · next layer m hu =>
          obtain ⟨v, hv, h⟩ := Option.bind_eq_some_iff.1 h
          obtain rfl := Option.some.inj h
          exact .unwrapped ht hs hu (ih _ _ _ hv)
        · next hu => exact Option.some.inj h ▸ .unmatched ht hs hu

/-- The rules describe exactly the walks that end. -/
theorem from?_eq_some_iff {st : Stage} {start n : Node} {w : Walk Node} :
    o.from? lang st start n = some w ↔ o.Walks lang st start n w := by
  refine ⟨fun h => ?_, from?_of_walks⟩
  cases st with
  | untried => exact walks_of_some.1 _ _ _ h
  | unsettled => exact walks_of_some.2.1 _ _ _ h
  | classless => exact walks_of_some.2.2 _ _ _ h

/-- The rules leave no choice. -/
theorem walks_unique {st : Stage} {start n : Node} {v w : Walk Node} (hv : o.Walks lang st start n v)
    (hw : o.Walks lang st start n w) : v = w :=
  Option.some.inj ((from?_of_walks hv).symm.trans (from?_of_walks hw))

/-- A node below which there is nothing goes by its own names. -/
theorem exists_walks_leaf {n : Node} (ht : lang.templateTag? n = none) (hu : lang.unwrap? n = none)
    (start : Node) : ∃ w, o.Walks lang .classless start n w ∧
      w.answer = (o.search lang n Presentation.searchOrder).2.map (·, n) := by
  cases hs : (o.search lang n Presentation.searchOrder).2 with
  | some id => exact ⟨_, .spelled ht hs, rfl⟩
  | none => exact ⟨_, .unmatched ht hs hu, rfl⟩

theorem exists_walks {n : Node} (h : lang.Grounded n) (start : Node) :
    ∃ w, o.Walks lang .untried start n w := by
  obtain ⟨w, hw⟩ := exists_walk? (o := o) h start
  exact ⟨w, from?_eq_some_iff.1 hw⟩

end Outlook

/-! ## What the memo settles -/

namespace Session

variable {Node Decl Key : Type} [DecidableEq Key] {lang : Language Node Decl Key} {s : Session Node Key} {k : Key}
  {id : EntryId}

/-- The memo leads from the key to an entry that still has its name. -/
structure Preempts (s : Session Node Key) (k : Key) (id : EntryId) : Prop where
  slot : s.memo.get? k = some id
  registered : ∃ e, s.registry.byId? id = some e ∧ s.registry.get? e.name = some id

/-- These are the slots that the memo settles a node by. -/
theorem isOpen_eq_false_iff : (s.consult k).isOpen = false ↔ ∃ id, s.Preempts k id := by
  constructor
  · intro h
    cases hr : s.consult k with
    | absent | superseded id =>
      rw [hr] at h
      cases h
    | ready id =>
      obtain ⟨hm, e, he, hl⟩ := consult_eq_ready hr
      exact ⟨id, hm, e, he, Registry.get?_of_lookup? hl⟩
    | barred id =>
      obtain ⟨hm, -, hregistered⟩ := consult_eq_barred hr
      exact ⟨id, hm, hregistered⟩
  · rintro ⟨id, hm, hregistered⟩
    rw [consult_of_isCurrent hm (Registry.isCurrent_eq_true_iff.2 hregistered)]
    split <;> rfl

/-- Such a slot has the last word on a node, whether its entry is switched on or off. -/
theorem exists_walks_of_preempts {n : Node} (h : s.Preempts (lang.key n) id) (start : Node) :
    ∃ w, s.outlook.Walks lang .untried start n w ∧
      w.answer = if s.registry.isEnabled id then some (id, n) else none := by
  have hr : s.outlook.consult (lang.key n) = _ :=
    consult_of_isCurrent h.slot (Registry.isCurrent_eq_true_iff.2 h.registered)
  by_cases he : s.registry.isEnabled id = true
  · rw [if_pos he] at hr
    exact ⟨_, .ready hr, (if_pos he).symm⟩
  · rw [if_neg he] at hr
    exact ⟨_, .barred hr, (if_neg he).symm⟩

end Session

end TypeMapping
