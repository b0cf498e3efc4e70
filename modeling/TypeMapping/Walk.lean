import TypeMapping.Session

/-!
# Walks

Which entry is responsible for a node? A node is tried in this order:

1. the memo;
2. for a template specialization, the class declared for it, then the declaration that its template
   is defined over, where the latter is final either way;
3. its names, one per presentation;
4. the node with its outermost layer off.

A walk reads the session as it was in the beginning and writes down what it does; the session is
changed afterwards, by the record. It would make no difference to change it on the way: a walk stores at
most one node in the memo, immediately before it ends, and bindings are never read.

* `Step`            : what a walk does;
* `Walk`            : its record and its answer;
* `Outlook`         : what a walk reads of a session, `Session.outlook`;
* `Outlook.search`  : the names of a node, tried one after the other;
* `Outlook.walk?`   : the walk from a node, `attempt?` and `scan?` those from a node that the memo, and
  the class declared for it, do not settle. They are `none` when the walk does not end.

Main statements: `search_snd`, a search finds the first name that stands for an enabled entry, and
`exists_walk?`, a walk from a grounded node ends.
-/

namespace TypeMapping

/-! ## Records -/

/-- What a walk does. -/
inductive Step (Node : Type)
  /-- The memo leads to an entry that has lost its name; the node is tried afresh. -/
  | superseded (id : EntryId) (node : Node)
  /-- The memo leads to an entry that is switched off. The entry is bound all the same. -/
  | barred (id : EntryId) (node : Node)
  /-- The node was given a name; `found` says whether the name stood for an enabled entry. -/
  | rendered (node : Node) (presentation : Presentation) (name : String) (found : Bool)
  /-- The walk goes on with the node below a layer. -/
  | unwrapped (layer : Layer) (outer inner : Node)
  /-- The memo takes the node down. -/
  | stored (id : EntryId) (node : Node)
  /-- The entry is bound to the node. -/
  | bound (id : EntryId) (node : Node)
  /-- The resolution that began with the node came to an end without an entry. -/
  | unmatched (start : Node)
  deriving DecidableEq, Repr

/-- The step that passes over an outdated memo. -/
def Recall.steps {Node : Type} (r : Recall) (n : Node) : List (Step Node) :=
  match r with
  | .superseded id => [.superseded id n]
  | _ => []

/-- The record of a walk, and the entry and the node that it came to. -/
structure Walk (Node : Type) where
  trail : List (Step Node)
  answer : Option (EntryId × Node)
  deriving DecidableEq, Repr

namespace Walk

variable {Node : Type}

/-- The walk that ends at `n` with the entry. -/
def found (id : EntryId) (n : Node) : Walk Node := ⟨[.bound id n], some (id, n)⟩

/-- The walk with steps before it. -/
def after (steps : List (Step Node)) (w : Walk Node) : Walk Node := ⟨steps ++ w.trail, w.answer⟩

/-- The walk for a node that stands in for the one it came to. -/
def rebind (w : Walk Node) (n : Node) : Walk Node :=
  match w.answer with
  | some (id, _) => ⟨w.trail ++ [.bound id n], some (id, n)⟩
  | none => w

@[simp] theorem answer_found (id : EntryId) (n : Node) : (found id n).answer = some (id, n) := rfl

@[simp] theorem trail_after (steps : List (Step Node)) (w : Walk Node) :
    (w.after steps).trail = steps ++ w.trail := rfl

@[simp] theorem answer_after (steps : List (Step Node)) (w : Walk Node) :
    (w.after steps).answer = w.answer := rfl

@[simp] theorem answer_rebind (w : Walk Node) (n : Node) :
    (w.rebind n).answer = w.answer.map fun a => (a.1, n) := by
  unfold rebind
  split <;> simp_all

end Walk

/-! ## What a walk reads -/

/-- All that a walk reads of a session. -/
structure Outlook (Key : Type) where
  /-- What the memo says about the node with that key. -/
  consult : Key → Recall
  /-- The enabled entry that a name stands for. -/
  lookup? : String → Option EntryId

/-- What a walk reads of the session. -/
def Session.outlook {Node Key : Type} [DecidableEq Key] (s : Session Node Key) : Outlook Key where
  consult := s.consult
  lookup? := s.registry.lookup?

namespace Outlook

variable {Node Decl Key : Type}

/-- Gives a node its names, one presentation after the other, until one stands for an enabled entry. -/
def search (lang : Language Node Decl Key) (o : Outlook Key) (n : Node) : List Presentation → List (Step Node) × Option EntryId
  | [] => ([], none)
  | p :: ps =>
    let name := lang.render n p
    match o.lookup? name with
    | some id => ([.rendered n p name true], some id)
    | none =>
      let rest := o.search lang n ps
      (.rendered n p name false :: rest.1, rest.2)

theorem search_snd (lang : Language Node Decl Key) (o : Outlook Key) (n : Node) (ps : List Presentation) :
    (o.search lang n ps).2 = ps.findSome? fun p => o.lookup? (lang.render n p) := by
  induction ps with
  | nil => rfl
  | cons p ps ih =>
    simp only [search, List.findSome?_cons]
    split <;> simp_all

/-- A search asks for names only. -/
theorem search_congr (lang : Language Node Decl Key) {o o' : Outlook Key} (h : o.lookup? = o'.lookup?) (n : Node)
    (ps : List Presentation) : o.search lang n ps = o'.search lang n ps := by
  induction ps with
  | nil => rfl
  | cons p ps ih => simp only [search, ih, h]

/-! ## Walks -/

variable [DecidableEq Key]

mutual

/-- The walk from `n`, in the resolution that began with `start`. -/
def walk? (lang : Language Node Decl Key) (o : Outlook Key) (start n : Node) : Option (Walk Node) :=
  match o.consult (lang.key n) with
  | .ready id => some (.found id n)
  | .barred id => some ⟨[.barred id n], none⟩
  | r => do
    let w ← o |>.attempt? lang start n
    return w.after (r.steps n)
partial_fixpoint

/-- The walk from a node that the memo does not settle. The class declared for it comes first. -/
def attempt? (lang : Language Node Decl Key) (o : Outlook Key) (start n : Node) : Option (Walk Node) :=
  match lang.classTag? n with
  | none => o |>.scan? lang start n
  | some m => do
    let c ← o |>.walk? lang m m
    match c.answer with
    | some _ => return c
    | none =>
      let w ← o |>.scan? lang start n
      return w.after c.trail
partial_fixpoint

/-- The walk from a node that neither the memo nor the class declared for it settles. -/
def scan? (lang : Language Node Decl Key) (o : Outlook Key) (start n : Node) : Option (Walk Node) :=
  match lang.templateTag? n with
  | some m => do
    let w ← o |>.walk? lang m m
    return w.rebind n
  | none =>
    let search := o.search lang n Presentation.searchOrder
    match search.2 with
    | some id => some ((Walk.found id n).after (search.1 ++ [.stored id n]))
    | none =>
      match lang.unwrap? n with
      | some (layer, m) => do
        let w ← o |>.walk? lang start m
        return w.after (search.1 ++ [.unwrapped layer n m])
      | none => some ⟨search.1 ++ [.unmatched start], none⟩
partial_fixpoint

end

variable {lang : Language Node Decl Key} {o : Outlook Key}

theorem exists_scan? {n : Node} (ih : ∀ m, lang.Below m n → ∀ start, ∃ w, o.walk? lang start m = some w)
    (start : Node) : ∃ w, o.scan? lang start n = some w := by
  rw [scan?]
  split
  · next m ht =>
    obtain ⟨w, hw⟩ := ih m (.inr (.inl ht)) m
    exact ⟨w.rebind n, by simp [hw]⟩
  · dsimp only
    split
    · exact ⟨_, rfl⟩
    · split
      · next layer m hu =>
        obtain ⟨w, hw⟩ := ih m (.inr (.inr ⟨layer, hu⟩)) start
        exact ⟨_, by simp only [hw]; rfl⟩
      · exact ⟨_, rfl⟩

theorem exists_attempt? {n : Node}
    (ih : ∀ m, lang.Below m n → ∀ start, ∃ w, o.walk? lang start m = some w) (start : Node) :
    ∃ w, o.attempt? lang start n = some w := by
  obtain ⟨w, hw⟩ := exists_scan? ih start
  rw [attempt?]
  split
  · exact ⟨w, hw⟩
  · next m hc =>
    obtain ⟨c, hc⟩ := ih m (.inl hc) m
    cases ha : c.answer with
    | none => exact ⟨w.after c.trail, by simp [hc, ha, hw]⟩
    | some a => exact ⟨c, by simp [hc, ha]⟩

/-- A walk from a grounded node ends. -/
theorem exists_walk? {n : Node} (h : lang.Grounded n) (start : Node) :
    ∃ w, o.walk? lang start n = some w := by
  induction h generalizing start with
  | intro n _ ih =>
    obtain ⟨w, hw⟩ := exists_attempt? ih start
    rw [walk?]
    split
    · exact ⟨_, rfl⟩
    · exact ⟨_, rfl⟩
    · exact ⟨_, by simp only [hw]; rfl⟩

end Outlook

end TypeMapping
