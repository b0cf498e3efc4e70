import TypeMapping.Proofs.Rules

/-!
# The effect of a walk

* `Walk.stores`   : the nodes that a walk writes into the memo, each with its entry;
* `Walk.bindings` : the nodes that it binds entries to, each with its entry;
* `Walk.boundBy?` : the node that it leaves an entry bound to;
* `Step.writes`   : does a step change the session? `Step.isLanding`, the same of the steps that only a
  walk with an answer takes.

Main statements: `registry_conclude`, `memo_conclude`, `bound_conclude`, `boundTo?_conclude`, the session after
a walk; `mem_stores_or_get?`, `mem_bindings_or_boundTo?`, what is found there was written or was there before;
`stores_eq_nil`, a walk without an answer writes nothing into the memo.
-/

namespace TypeMapping

/-- The node that a step stores, with its entry. -/
def Step.store? {Node : Type} : Step Node → Option (EntryId × Node)
  | .stored id n => some (id, n)
  | _ => none

/-- The node that a step binds an entry to, with the entry. -/
def Step.binding? {Node : Type} : Step Node → Option (EntryId × Node)
  | .bound id n | .barred id n => some (id, n)
  | _ => none

namespace Walk

variable {Node : Type}

/-- What the walk writes into the memo. -/
def stores (w : Walk Node) : List (EntryId × Node) := w.trail.filterMap Step.store?

theorem mem_stores_iff {w : Walk Node} {id : EntryId} {n : Node} : (id, n) ∈ w.stores ↔ .stored id n ∈ w.trail := by
  rw [stores, List.mem_filterMap]
  constructor
  · rintro ⟨a, ha, hs⟩
    cases a <;> simp_all [Step.store?]
  · exact fun h => ⟨_, h, rfl⟩

/-- What the walk writes into the bindings. -/
def bindings (w : Walk Node) : List (EntryId × Node) := w.trail.filterMap Step.binding?

@[simp] theorem stores_found (id : EntryId) (n : Node) : (found id n).stores = [] := rfl

@[simp] theorem bindings_found (id : EntryId) (n : Node) : (found id n).bindings = [(id, n)] := rfl

@[simp] theorem stores_barred (id : EntryId) (n : Node) :
    (⟨[.barred id n], none⟩ : Walk Node).stores = [] := rfl

@[simp] theorem bindings_barred (id : EntryId) (n : Node) :
    (⟨[.barred id n], none⟩ : Walk Node).bindings = [(id, n)] := rfl

theorem stores_after (steps : List (Step Node)) (w : Walk Node) :
    (w.after steps).stores = steps.filterMap Step.store? ++ w.stores := List.filterMap_append ..

theorem bindings_after (steps : List (Step Node)) (w : Walk Node) :
    (w.after steps).bindings = steps.filterMap Step.binding? ++ w.bindings := List.filterMap_append ..

@[simp] theorem stores_after_trail (c w : Walk Node) :
    (w.after c.trail).stores = c.stores ++ w.stores := stores_after ..

@[simp] theorem bindings_after_trail (c w : Walk Node) :
    (w.after c.trail).bindings = c.bindings ++ w.bindings := bindings_after ..

@[simp] theorem stores_rebind (w : Walk Node) (n : Node) : (w.rebind n).stores = w.stores := by
  unfold rebind
  split
  · simp [stores, Step.store?]
  · rfl

@[simp] theorem bindings_rebind (w : Walk Node) (n : Node) :
    (w.rebind n).bindings = w.bindings ++ (w.answer.map fun a => (a.1, n)).toList := by
  unfold rebind
  split <;> simp_all [bindings, Step.binding?]

end Walk

/-! ## Steps that write nothing -/

/-- Does the step change the session? -/
def Step.writes {Node : Type} : Step Node → Bool
  | .stored .. | .bound .. | .barred .. => true
  | _ => false

section Silent
variable {Node Decl Key β : Type} {lang : Language Node Decl Key} {o : Outlook Key}
  {f : Step Node → Option β}

theorem Step.store?_of_silent {a : Step Node} (h : a.writes = false) : a.store? = none := by
  cases a <;> simp_all [writes, store?]

theorem Step.binding?_of_silent {a : Step Node} (h : a.writes = false) : a.binding? = none := by
  cases a <;> simp_all [writes, binding?]

theorem Recall.writes_of_mem_steps {r : Recall} {n : Node} {a : Step Node} (h : a ∈ r.steps n) :
    a.writes = false := by
  cases r with
  | superseded id =>
    obtain rfl := List.mem_singleton.1 h
    rfl
  | absent | barred _ | ready _ => cases h

theorem Outlook.writes_of_mem_search {n : Node} {ps : List Presentation} {a : Step Node}
    (h : a ∈ (o.search lang n ps).1) : a.writes = false := by
  induction ps with
  | nil => cases h
  | cons p ps ih =>
    simp only [search] at h
    split at h
    · obtain rfl := List.mem_singleton.1 h
      rfl
    · rcases List.mem_cons.1 h with rfl | h
      · rfl
      · exact ih h

theorem Recall.filterMap_steps (hf : ∀ a, a.writes = false → f a = none) (r : Recall) (n : Node) :
    (r.steps n).filterMap f = [] :=
  List.filterMap_eq_nil_iff.2 fun a ha => hf a (writes_of_mem_steps ha)

theorem Outlook.filterMap_search (hf : ∀ a, a.writes = false → f a = none) (n : Node)
    (ps : List Presentation) : (o.search lang n ps).1.filterMap f = [] :=
  List.filterMap_eq_nil_iff.2 fun a ha => hf a (writes_of_mem_search ha)

@[simp] theorem Recall.stores_steps (r : Recall) (n : Node) : (r.steps n).filterMap Step.store? = [] :=
  r.filterMap_steps (fun _ => Step.store?_of_silent) n

@[simp] theorem Recall.bindings_steps (r : Recall) (n : Node) :
    (r.steps n).filterMap Step.binding? = [] :=
  r.filterMap_steps (fun _ => Step.binding?_of_silent) n

@[simp] theorem Outlook.stores_search (n : Node) (ps : List Presentation) :
    (o.search lang n ps).1.filterMap Step.store? = [] :=
  filterMap_search (fun _ => Step.store?_of_silent) n ps

@[simp] theorem Outlook.bindings_search (n : Node) (ps : List Presentation) :
    (o.search lang n ps).1.filterMap Step.binding? = [] :=
  filterMap_search (fun _ => Step.binding?_of_silent) n ps

end Silent

/-! ## Walks without an answer -/

/-- Is it a step that a walk takes only when it has come to an entry? -/
def Step.isLanding {Node : Type} : Step Node → Bool
  | .stored .. | .bound .. => true
  | _ => false

theorem Step.isLanding_of_silent {Node : Type} {a : Step Node} (h : a.writes = false) :
    a.isLanding = false := by
  cases a <;> simp_all [writes, isLanding]

section Failed
variable {Node Decl Key β : Type} [DecidableEq Key] {lang : Language Node Decl Key} {o : Outlook Key}
  {st : Stage} {start n : Node} {w : Walk Node} {f : Step Node → Option β}

/-- A walk without an answer takes no step of the kind that comes after an entry was found. -/
theorem Outlook.filterMap_eq_nil_of_answer (hf : ∀ a, a.isLanding = false → f a = none)
    (h : o.Walks lang st start n w) (ha : w.answer = none) : w.trail.filterMap f = [] := by
  have hsilent : ∀ a, a.writes = false → f a = none := fun a hw => hf a (Step.isLanding_of_silent hw)
  induction h with
  | ready _ => cases ha
  | @barred _ n id _ => simp [hf (.barred id n) rfl]
  | unsettled _ _ ih => simpa [Recall.filterMap_steps hsilent] using ih ha
  | classless _ _ ih => exact ih ha
  | ofClass _ _ hne _ => exact absurd ha hne
  | classFailed _ _ hca _ ihc ih => simpa [ihc hca] using ih ha
  | ofTemplate _ _ ih =>
    have ha' := Option.map_eq_none_iff.1 ((Walk.answer_rebind _ _).symm.trans ha)
    simpa [Walk.rebind, ha'] using ih ha'
  | spelled => cases ha
  | @unwrapped _ n m layer _ _ _ _ _ ih =>
    simpa [filterMap_search hsilent, hf (.unwrapped layer n m) rfl] using ih ha
  | @unmatched start _ _ _ _ => simp [filterMap_search hsilent, hf (.unmatched start) rfl]

/-- A walk without an answer writes nothing into the memo. -/
theorem Session.stores_eq_nil (h : o.Walks lang st start n w) (ha : w.answer = none) : w.stores = [] :=
  Outlook.filterMap_eq_nil_of_answer (fun a hl => by cases a <;> simp_all [Step.isLanding, Step.store?]) h ha

end Failed

/-! ## The session after a walk -/

/-- What is found after several values were written is one of them or was there before. -/
theorem Dict.mem_or_get?_of_foldl_insert {α κ ν : Type} [DecidableEq κ] {key : α → κ} {val : α → ν}
    {as : List α} {d : Dict κ ν} {k : κ} {v : ν}
    (h : (as.foldl (fun d a => d.insert (key a) (val a)) d).get? k = some v) :
    (∃ a ∈ as, key a = k ∧ val a = v) ∨ d.get? k = some v := by
  induction as generalizing d with
  | nil => exact .inr h
  | cons a as ih =>
    rcases ih h with ⟨b, hb, h⟩ | h
    · exact .inl ⟨b, List.mem_cons_of_mem a hb, h⟩
    · rw [get?_insert] at h
      split at h
      · next hk => exact .inl ⟨a, List.mem_cons_self, hk, Option.some.inj h⟩
      · exact .inr h

/-- What is found after several values were written is the last of them or was there before. -/
theorem Dict.get?_foldl_insert {α κ ν : Type} [DecidableEq κ] {key : α → κ} {val : α → ν} (as : List α)
    (d : Dict κ ν) (k : κ) : (as.foldl (fun d a => d.insert (key a) (val a)) d).get? k =
      ((as.foldl (fun d a => d.insert (key a) (val a)) empty).get? k).or (d.get? k) := by
  induction as generalizing d with
  | nil => simp
  | cons a as ih =>
    rw [List.foldl_cons, List.foldl_cons, ih (d.insert _ _), ih (empty.insert _ _), Option.or_assoc,
      get?_insert, get?_insert]
    split <;> simp

/-- To write several values leaves a value where one of them is written. -/
theorem Dict.isSome_get?_foldl_insert {α κ ν : Type} [DecidableEq κ] {key : α → κ} {val : α → ν}
    {as : List α} {d : Dict κ ν} {a : α} (ha : a ∈ as) :
    ((as.foldl (fun d a => d.insert (key a) (val a)) d).get? (key a)).isSome := by
  induction as generalizing d with
  | nil => cases ha
  | cons b as ih =>
    rcases List.mem_cons.1 ha with rfl | ha
    · rw [List.foldl_cons, get?_foldl_insert, get?_insert, if_pos rfl]
      simp
    · exact ih ha

/-- To write several values under keys that are there leaves the keys as they are. -/
theorem Dict.keys_foldl_insert {α κ ν : Type} [DecidableEq κ] {key : α → κ} {val : α → ν} {as : List α}
    {d : Dict κ ν} (h : ∀ a ∈ as, key a ∈ d.keys) :
    (as.foldl (fun d a => d.insert (key a) (val a)) d).keys = d.keys := by
  induction as generalizing d with
  | nil => rfl
  | cons a as ih =>
    have hd : (d.insert (key a) (val a)).keys = d.keys := by
      rw [keys_insert, if_pos (h a List.mem_cons_self)]
    rw [List.foldl_cons, ih fun b hb => hd ▸ h b (List.mem_cons_of_mem a hb), hd]

/-- To write several values changes nothing if those that are left in the end are there already. -/
theorem Dict.foldl_insert_eq_self {α κ ν : Type} [DecidableEq κ] {key : α → κ} {val : α → ν} {as : List α}
    {d : Dict κ ν} (h : ∀ k v, (as.foldl (fun d a => d.insert (key a) (val a)) empty).get? k = some v →
      d.get? k = some v) : as.foldl (fun d a => d.insert (key a) (val a)) d = d := by
  refine ext_get? (keys_foldl_insert fun a ha => ?_) fun k => ?_
  · have hsome : ((as.foldl (fun d a => d.insert (key a) (val a)) empty).get? (key a)).isSome :=
      isSome_get?_foldl_insert ha
    obtain ⟨v, hv⟩ := Option.isSome_iff_exists.1 hsome
    exact mem_keys_iff.2 (by simp [h _ v hv])
  · rw [get?_foldl_insert]
    cases hv : (as.foldl (fun d a => d.insert (key a) (val a)) empty).get? k with
    | none => rw [Option.none_or]
    | some v => rw [Option.some_or, h k v hv]

/-- The node that the walk leaves the entry bound to, if it binds it. -/
def Walk.boundBy? {Node : Type} (w : Walk Node) (id : EntryId) : Option Node :=
  (w.bindings.foldl (fun d a => d.insert a.1 a.2) Dict.empty).get? id

namespace Walk

variable {Node : Type} {w : Walk Node} {id : EntryId} {n : Node}

theorem mem_bindings_of_boundBy? (h : w.boundBy? id = some n) : (id, n) ∈ w.bindings := by
  obtain ⟨⟨_, _⟩, ha, rfl, rfl⟩ := (Dict.mem_or_get?_of_foldl_insert h).resolve_right (by simp)
  exact ha

theorem isSome_boundBy? (h : (id, n) ∈ w.bindings) : (w.boundBy? id).isSome :=
  Dict.isSome_get?_foldl_insert h

theorem boundBy?_of_bindings_eq {bs : List (EntryId × Node)} (h : w.bindings = bs ++ [(id, n)]) :
    w.boundBy? id = some n := by
  simp [boundBy?, h, Dict.get?_insert]

end Walk

namespace Session

variable {Node Decl Key : Type} [DecidableEq Key] {lang : Language Node Decl Key}

@[simp] theorem registry_foldl_apply (s : Session Node Key) (steps : List (Step Node)) :
    (steps.foldl (apply lang) s).registry = s.registry := by
  induction steps generalizing s with
  | nil => rfl
  | cons a as ih =>
    rw [List.foldl_cons, ih]
    cases a <;> rfl

theorem memo_foldl_apply (s : Session Node Key) (steps : List (Step Node)) :
    (steps.foldl (apply lang) s).memo =
      (steps.filterMap Step.store?).foldl (fun d a => d.insert (lang.key a.2) a.1) s.memo := by
  induction steps generalizing s with
  | nil => rfl
  | cons a as ih =>
    rw [List.foldl_cons, ih]
    cases a <;> rfl

theorem bound_foldl_apply (s : Session Node Key) (steps : List (Step Node)) :
    (steps.foldl (apply lang) s).bound =
      (steps.filterMap Step.binding?).foldl (fun d a => d.insert a.1 a.2) s.bound := by
  induction steps generalizing s with
  | nil => rfl
  | cons a as ih =>
    rw [List.foldl_cons, ih]
    cases a <;> rfl

variable {s : Session Node Key} {w : Walk Node}

@[simp] theorem registry_conclude : (s.conclude lang w).session.registry = s.registry :=
  registry_foldl_apply ..

@[simp] theorem answer_conclude : (s.conclude lang w).answer = w.answer := rfl

theorem memo_conclude : (s.conclude lang w).session.memo =
    w.stores.foldl (fun d a => d.insert (lang.key a.2) a.1) s.memo := memo_foldl_apply ..

theorem bound_conclude :
    (s.conclude lang w).session.bound = w.bindings.foldl (fun d a => d.insert a.1 a.2) s.bound :=
  bound_foldl_apply ..

theorem mem_stores_or_get? {k : Key} {id : EntryId}
    (h : (s.conclude lang w).session.memo.get? k = some id) :
    (∃ n, (id, n) ∈ w.stores ∧ lang.key n = k) ∨ s.memo.get? k = some id := by
  rw [memo_conclude] at h
  refine (Dict.mem_or_get?_of_foldl_insert h).imp_left ?_
  rintro ⟨⟨_, n⟩, ha, hk, rfl⟩
  exact ⟨n, ha, hk⟩

/-- An entry is bound afterwards to the node that the walk left it bound to, or as it was. -/
theorem boundTo?_conclude (id : EntryId) :
    (s.conclude lang w).session.boundTo? id = (w.boundBy? id).or (s.boundTo? id) := by
  rw [boundTo?, bound_conclude]
  exact Dict.get?_foldl_insert ..

theorem mem_bindings_or_boundTo? {id : EntryId} {n : Node}
    (h : (s.conclude lang w).session.boundTo? id = some n) :
    (id, n) ∈ w.bindings ∨ s.boundTo? id = some n := by
  rw [boundTo?_conclude, Option.or_eq_some_iff] at h
  exact h.imp Walk.mem_bindings_of_boundBy? And.right

theorem isSome_boundTo?_conclude {id : EntryId}
    (h : (∃ n, (id, n) ∈ w.bindings) ∨ (s.boundTo? id).isSome) :
    ((s.conclude lang w).session.boundTo? id).isSome := by
  rw [boundTo?_conclude, Option.isSome_or, Bool.or_eq_true]
  exact h.imp_left fun ⟨_, hn⟩ => Walk.isSome_boundBy? hn

/-- A walk that takes nothing down leaves what walks read as it is. -/
theorem outlook_conclude (h : w.stores = []) : (s.conclude lang w).session.outlook = s.outlook := by
  have hmemo : (s.conclude lang w).session.memo = s.memo := by rw [memo_conclude, h, List.foldl_nil]
  unfold outlook
  congr 1
  · funext k
    simp only [consult, hmemo, registry_conclude]
  · rw [registry_conclude]

theorem resolve?_eq_some_iff {n : Node} {r : Resolution Node Key} :
    s.resolve? lang n = some r ↔
      ∃ w, s.outlook.Walks lang .untried n n w ∧ r = s.conclude lang w := by
  rw [resolve?, Option.map_eq_some_iff]
  constructor
  · rintro ⟨w, hw, rfl⟩
    exact ⟨w, Outlook.from?_eq_some_iff.1 hw, rfl⟩
  · rintro ⟨w, hw, rfl⟩
    exact ⟨w, Outlook.from?_of_walks hw, rfl⟩

theorem resolve?_of_walks {n : Node} (h : s.outlook.Walks lang .untried n n w) :
    s.resolve? lang n = some (s.conclude lang w) :=
  resolve?_eq_some_iff.2 ⟨w, h, rfl⟩

end Session

end TypeMapping
