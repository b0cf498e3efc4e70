import TypeMapping.Proofs.Wrappers
import TypeMapping.Report

/-!
# Renderings

Which names does a resolution ask for, and how many?

* `Block`             : a node and how many of its names are asked for, in the search order;
* `Outlook.Asks`      : blocks of which all but the last are complete and in vain;
* `Language.Budget`   : a bound on the number of blocks, given for each stage of a node;
* `Session.AsksFor`   : what the blocks of a resolution come to;
* `Report.candidate`  : the line about a name that was asked for;
* `TypeTerm.Printer`  : a printer of type terms that counts its calls and takes them down;
* `TypeTerm.Bench`    : a session of type terms together with its printer;
* `TypeTerm.budget`   : the bound for type terms.

Main statements: `exists_asks` and `exists_asksFor`, walks and resolutions ask in blocks; `Printer.search_eq`, a search
through the printer is the search of the walk; `Bench.resolve_asksFor`, how many names the resolution of a type asks for.
-/

namespace TypeMapping

variable {Node Decl Key : Type}

/-! ## Blocks -/

/-- A node and the number of its names that are asked for. -/
structure Block (Node : Type) where
  node : Node
  size : Nat
  deriving DecidableEq, Repr

namespace Block

/-- The names that are asked for: those in the first presentations of the search order. -/
def renderings (b : Block Node) : List (Node × Presentation) :=
  (Presentation.searchOrder.take b.size).map (b.node, ·)

/-- All names of a node. -/
def full (n : Node) : Block Node := ⟨n, Presentation.searchOrder.length⟩

@[simp] theorem size_full (n : Node) : (full n).size = 16 := Presentation.length_searchOrder

theorem renderings_full (n : Node) : (full n).renderings = Presentation.searchOrder.map (n, ·) := by
  rw [renderings, full, List.take_length]

theorem length_renderings_le (b : Block Node) : b.renderings.length ≤ 16 := by
  rw [renderings, List.length_map, List.length_take, Presentation.length_searchOrder]
  exact Nat.min_le_right _ _

theorem length_flatMap_renderings_le (bs : List (Block Node)) :
    (bs.flatMap renderings).length ≤ 16 * bs.length := by
  induction bs with
  | nil => simp
  | cons b bs ih =>
    have := b.length_renderings_le
    simp only [List.flatMap_cons, List.length_append, List.length_cons]
    omega

end Block

namespace Outlook

/-- The step that asks for a name. -/
def rendering (lang : Language Node Decl Key) (o : Outlook Key) (q : Node × Presentation) : Step Node :=
  .rendered q.1 q.2 (lang.render q.1 q.2) (o.lookup? (lang.render q.1 q.2)).isSome

/-- The last name of the block stands for the entry, and no other name of the block stands for one. -/
structure Hit (lang : Language Node Decl Key) (o : Outlook Key) (id : EntryId) (b : Block Node) : Prop where
  pos : 0 < b.size
  found : ∃ p, Presentation.searchOrder[b.size - 1]? = some p ∧ o.lookup? (lang.render b.node p) = some id
  vain : ∀ p ∈ Presentation.searchOrder.take (b.size - 1), o.lookup? (lang.render b.node p) = none

/-- The names that are asked for to come to the entry, if to any: all names of a node are asked for in vain before those
of another one, and a name that stands for an entry is the last. The memo settles none of the nodes. -/
inductive Asks (lang : Language Node Decl Key) (o : Outlook Key) : Option EntryId → List (Block Node) → Prop
  /-- No name is asked for. -/
  | done (a : Option EntryId) : Asks lang o a []
  | hit {id : EntryId} {b : Block Node} (hb : (o.consult (lang.key b.node)).isOpen = true)
      (h : o.Hit lang id b) : Asks lang o (some id) [b]
  | vain {n : Node} {a : Option EntryId} {bs : List (Block Node)} (hn : (o.consult (lang.key n)).isOpen = true)
      (hv : ∀ p ∈ Presentation.searchOrder, o.lookup? (lang.render n p) = none) (h : Asks lang o a bs) :
      Asks lang o a (.full n :: bs)

variable {lang : Language Node Decl Key} {o : Outlook Key}

/-- After blocks without an answer, others may follow. -/
theorem Asks.append {bs cs : List (Block Node)} {a : Option EntryId} (h : Asks lang o none bs)
    (h' : Asks lang o a cs) : Asks lang o a (bs ++ cs) := by
  generalize ha : (none : Option EntryId) = x at h
  induction h with
  | done => exact h'
  | hit => cases ha
  | vain hn hv _ ih => exact .vain hn hv (ih ha)

/-! ## What the blocks come to -/

section Blocks
variable {a : Option EntryId} {b : Block Node} {bs : List (Block Node)}

theorem Hit.size_le {id : EntryId} (h : o.Hit lang id b) : b.size ≤ 16 := by
  obtain ⟨p, hp, -⟩ := h.found
  have hlt := (List.getElem?_eq_some_iff.1 hp).1
  rw [Presentation.length_searchOrder] at hlt
  omega

/-- The last name of a hit is the one that stands for the entry. -/
theorem Hit.renderings_eq {id : EntryId} (h : o.Hit lang id b) :
    ∃ p, b.renderings = (Presentation.searchOrder.take (b.size - 1)).map (b.node, ·) ++ [(b.node, p)] ∧
      o.lookup? (lang.render b.node p) = some id := by
  obtain ⟨p, hp, hl⟩ := h.found
  have htake : Presentation.searchOrder.take (b.size - 1 + 1) = _ := List.take_add_one
  rw [Nat.sub_add_cancel h.pos, hp] at htake
  exact ⟨p, by simp [Block.renderings, htake], hl⟩

theorem Asks.size (h : Asks lang o a bs) (hb : b ∈ bs) : 0 < b.size ∧ b.size ≤ 16 := by
  induction h with
  | done => cases hb
  | hit _ h =>
    obtain rfl := List.mem_singleton.1 hb
    exact ⟨h.pos, h.size_le⟩
  | vain _ _ _ ih =>
    rcases List.mem_cons.1 hb with rfl | hb
    · simp
    · exact ih hb

theorem Asks.isOpen (h : Asks lang o a bs) (hb : b ∈ bs) : (o.consult (lang.key b.node)).isOpen = true := by
  induction h with
  | done => cases hb
  | hit hopen =>
    obtain rfl := List.mem_singleton.1 hb
    exact hopen
  | vain hn _ _ ih =>
    rcases List.mem_cons.1 hb with rfl | hb
    · exact hn
    · exact ih hb

theorem Asks.complete (h : Asks lang o a bs) (hb : b ∈ bs.dropLast) : b.size = 16 := by
  induction h with
  | done | hit => cases hb
  | @vain n a bs _ _ _ ih =>
    cases bs with
    | nil => cases hb
    | cons c cs =>
      rcases List.mem_cons.1 hb with rfl | hb
      · exact Presentation.length_searchOrder
      · exact ih hb

/-- An incomplete block ends with the name that stands for the answer. -/
theorem Asks.incomplete (h : Asks lang o a bs) (hb : b ∈ bs) (hlt : b.size < 16) :
    ∃ p id, b.renderings.getLast? = some (b.node, p) ∧ o.lookup? (lang.render b.node p) = some id ∧
      a = some id := by
  induction h with
  | done => cases hb
  | hit _ h =>
    obtain rfl := List.mem_singleton.1 hb
    obtain ⟨p, hp, hl⟩ := h.renderings_eq
    exact ⟨p, _, by rw [hp, List.getLast?_concat], hl, rfl⟩
  | vain _ _ _ ih =>
    rcases List.mem_cons.1 hb with rfl | hb
    · simp at hlt
    · exact ih hb

/-- No name but the last one stands for an entry. -/
theorem Asks.vain_of_mem_dropLast (h : Asks lang o a bs) {q : Node × Presentation}
    (hq : q ∈ (bs.flatMap Block.renderings).dropLast) : o.lookup? (lang.render q.1 q.2) = none := by
  induction h with
  | done => cases hq
  | hit _ h =>
    obtain ⟨p, hp, -⟩ := h.renderings_eq
    rw [List.flatMap_singleton, hp, List.dropLast_concat] at hq
    obtain ⟨p, hp, rfl⟩ := List.mem_map.1 hq
    exact h.vain p hp
  | @vain n a bs _ hv _ ih =>
    rw [List.flatMap_cons] at hq
    have hfull : ∀ q ∈ (Block.full n).renderings, o.lookup? (lang.render q.1 q.2) = none := by
      rw [Block.renderings_full]
      intro q hq
      obtain ⟨p, hp, rfl⟩ := List.mem_map.1 hq
      exact hv p hp
    by_cases hbs : bs.flatMap Block.renderings = []
    · rw [hbs, List.append_nil] at hq
      exact hfull q (List.dropLast_subset _ hq)
    · rw [List.dropLast_append_of_ne_nil hbs] at hq
      rcases List.mem_append.1 hq with hq | hq
      · exact hfull q hq
      · exact ih hq

end Blocks

/-! ## Walks ask in blocks -/

theorem search_of_none {n : Node} {ps : List Presentation} (h : (o.search lang n ps).2 = none) :
    (o.search lang n ps).1 = ps.map fun p => o.rendering lang (n, p) := by
  induction ps with
  | nil => rfl
  | cons p ps ih =>
    rw [search] at h ⊢
    cases hl : o.lookup? (lang.render n p) with
    | some id => simp [hl] at h
    | none =>
      simp only [hl] at h ⊢
      simp [ih h, rendering, hl]

theorem search_of_some {n : Node} {ps : List Presentation} {id : EntryId} (h : (o.search lang n ps).2 = some id) :
    ∃ i p, ps[i]? = some p ∧ o.lookup? (lang.render n p) = some id ∧
      (∀ q ∈ ps.take i, o.lookup? (lang.render n q) = none) ∧
      (o.search lang n ps).1 = (ps.take (i + 1)).map fun p => o.rendering lang (n, p) := by
  induction ps with
  | nil => cases h
  | cons p ps ih =>
    rw [search] at h ⊢
    cases hl : o.lookup? (lang.render n p) with
    | some id' =>
      simp only [hl] at h
      obtain rfl := Option.some.inj h
      exact ⟨0, p, rfl, hl, by simp, by simp [rendering, hl]⟩
    | none =>
      simp only [hl] at h
      obtain ⟨i, q, hq, hlq, hv, hs⟩ := ih h
      refine ⟨i + 1, q, hq, hlq, ?_, by simp [hs, rendering, hl]⟩
      simpa [hl] using hv

end Outlook

namespace Walk

/-- The steps that ask for names. -/
def asked (w : Walk Node) : List (Step Node) := w.trail.filter Step.isRendering

theorem asked_after (steps : List (Step Node)) (w : Walk Node) :
    (w.after steps).asked = steps.filter Step.isRendering ++ w.asked := List.filter_append ..

@[simp] theorem asked_found (id : EntryId) (n : Node) : (found id n).asked = [] := rfl

@[simp] theorem asked_rebind (w : Walk Node) (n : Node) : (w.rebind n).asked = w.asked := by
  unfold rebind
  split <;> simp [asked, Step.isRendering]

end Walk

@[simp] theorem Recall.asked_steps (r : Recall) (n : Node) : (r.steps n).filter Step.isRendering = [] := by
  cases r <;> rfl

namespace Outlook

variable {lang : Language Node Decl Key} {o : Outlook Key}

theorem filter_map_rendering (qs : List (Node × Presentation)) :
    (qs.map (o.rendering lang)).filter Step.isRendering = qs.map (o.rendering lang) :=
  List.filter_eq_self.2 fun a ha => by
    obtain ⟨q, -, rfl⟩ := List.mem_map.1 ha
    rfl

theorem asked_search_of_none {n : Node} (h : (o.search lang n Presentation.searchOrder).2 = none) :
    (o.search lang n Presentation.searchOrder).1.filter Step.isRendering =
      (Block.full n).renderings.map (o.rendering lang) := by
  rw [← filter_map_rendering, search_of_none h, Block.renderings_full, List.map_map]
  rfl

theorem asked_search_of_some {n : Node} {id : EntryId}
    (h : (o.search lang n Presentation.searchOrder).2 = some id) :
    ∃ b, b.node = n ∧ o.Hit lang id b ∧ (o.search lang n Presentation.searchOrder).1.filter Step.isRendering =
      b.renderings.map (o.rendering lang) := by
  obtain ⟨i, p, hp, hl, hv, hs⟩ := search_of_some h
  refine ⟨⟨n, i + 1⟩, rfl, ⟨i.succ_pos, ⟨p, hp, hl⟩, hv⟩, ?_⟩
  rw [← filter_map_rendering, hs, Block.renderings, List.map_map]
  rfl

end Outlook

/-- A bound on the number of nodes that are asked for their names, from each stage of a node on. It is enough for what
each rule of a walk asks for. -/
structure Language.Budget [DecidableEq Key] (lang : Language Node Decl Key) (f : Stage → Node → Nat) : Prop where
  unsettled : ∀ n, f .unsettled n ≤ f .untried n
  classless : ∀ {n}, lang.classTag? n = none → f .classless n ≤ f .unsettled n
  ofClass : ∀ {n m}, lang.classTag? n = some m → f .untried m + f .classless n ≤ f .unsettled n
  ofTemplate : ∀ {n m}, lang.templateTag? n = some m → f .untried m ≤ f .classless n
  own : ∀ {n}, lang.templateTag? n = none → 1 ≤ f .classless n
  unwrapped : ∀ {n m l}, lang.templateTag? n = none → lang.unwrap? n = some (l, m) →
    f .untried m + 1 ≤ f .classless n

/-- **Walks ask in blocks.** Names are asked for node by node, none after the one that stands for the answer, and no more
nodes are asked than there is a budget for. -/
theorem Outlook.exists_asks [DecidableEq Key] {lang : Language Node Decl Key} {o : Outlook Key}
    {f : Stage → Node → Nat} (hf : lang.Budget f) {st : Stage} {start n : Node} {w : Walk Node}
    (h : o.Walks lang st start n w) (hn : st ≠ .untried → (o.consult (lang.key n)).isOpen = true) :
    ∃ bs, o.Asks lang (w.answer.map Prod.fst) bs ∧
      w.asked = (bs.flatMap Block.renderings).map (o.rendering lang) ∧ bs.length ≤ f st n := by
  induction h with
  | ready | barred => exact ⟨[], .done _, rfl, Nat.zero_le _⟩
  | @unsettled _ n _ hr _ ih =>
    obtain ⟨bs, ha, hs, hl⟩ := ih fun _ => hr
    exact ⟨bs, ha, by rw [Walk.asked_after, Recall.asked_steps, List.nil_append, hs],
      Nat.le_trans hl (hf.unsettled n)⟩
  | classless hc _ ih =>
    obtain ⟨bs, ha, hs, hl⟩ := ih fun _ => hn nofun
    exact ⟨bs, ha, hs, Nat.le_trans hl (hf.classless hc)⟩
  | ofClass hc _ _ ih =>
    obtain ⟨bs, ha, hs, hl⟩ := ih fun h => absurd rfl h
    exact ⟨bs, ha, hs, by have := hf.ofClass hc; omega⟩
  | @classFailed _ _ _ c w hc _ hca _ ihc ih =>
    obtain ⟨bs, hb, hs, hl⟩ := ihc fun h => absurd rfl h
    obtain ⟨bs', hb', hs', hl'⟩ := ih fun _ => hn nofun
    rw [hca] at hb
    refine ⟨bs ++ bs', hb.append hb', ?_, ?_⟩
    · rw [Walk.asked_after, List.flatMap_append, List.map_append, ← hs, hs']
      rfl
    · rw [List.length_append]
      exact Nat.le_trans (Nat.add_le_add hl hl') (hf.ofClass hc)
  | @ofTemplate _ n _ w ht _ ih =>
    obtain ⟨bs, ha, hs, hl⟩ := ih fun h => absurd rfl h
    refine ⟨bs, ?_, by rw [Walk.asked_rebind, hs], Nat.le_trans hl (hf.ofTemplate ht)⟩
    have hanswer : (w.rebind n).answer.map Prod.fst = w.answer.map Prod.fst := by
      simp [Function.comp_def]
    rwa [hanswer]
  | spelled ht hs =>
    obtain ⟨b, rfl, hb, hasked⟩ := asked_search_of_some hs
    refine ⟨[b], .hit (hn nofun) hb, ?_, hf.own ht⟩
    rw [Walk.asked_after, List.filter_append, hasked]
    simp [Step.isRendering]
  | @unwrapped _ n m layer w ht hs hu _ ih =>
    obtain ⟨bs, ha, hasked, hl⟩ := ih fun h => absurd rfl h
    refine ⟨.full n :: bs, .vain (hn nofun) ?_ ha, ?_, Nat.le_trans (Nat.add_le_add_right hl 1) (hf.unwrapped ht hu)⟩
    · rw [search_snd, List.findSome?_eq_none_iff] at hs
      exact hs
    · rw [Walk.asked_after, List.filter_append, asked_search_of_none hs, hasked]
      simp [Step.isRendering]
  | @unmatched start n ht hs hu =>
    refine ⟨[.full n], .vain (hn nofun) ?_ (.done _), ?_, hf.own ht⟩
    · rw [search_snd, List.findSome?_eq_none_iff] at hs
      exact hs
    · rw [Walk.asked, List.filter_append, asked_search_of_none hs]
      simp [Step.isRendering]

/-! ## What a resolution asks for -/

/-- Is the line about a name that was asked for? -/
def Report.Line.isCandidate (l : Report.Line) : Bool :=
  l.message == "type map found" || l.message == "no type map"

/-- The line about a name that was asked for, where `found` says whether it stands for an enabled entry. -/
def Report.candidate (name : String) (p : Presentation) (found : Bool) : Report.Line :=
  let fields := [("name", .text name), ("config", .text p.describe)]
  if found then ⟨.debug, "type map found", fields⟩ else ⟨.trace, "no type map", fields⟩

theorem Step.line?_rendered (r : Registry) (describe : Node → String) (n : Node) (p : Presentation) (name : String)
    (found : Bool) : line? r describe (.rendered n p name found) = some (Report.candidate name p found) := by
  cases found <;> rfl

/-- What the trail tells about names are the steps that asked for them. -/
theorem Step.filter_isCandidate (r : Registry) (describe : Node → String) (steps : List (Step Node)) :
    (steps.filterMap (line? r describe)).filter Report.Line.isCandidate =
      (steps.filter isRendering).filterMap (line? r describe) := by
  rw [List.filter_filterMap, List.filterMap_filter]
  congr 1
  funext a
  cases a with
  | rendered n p name found => cases found <;> rfl
  | unwrapped layer outer inner => cases layer <;> rfl
  | superseded | barred | stored | bound | unmatched => rfl

theorem Step.filterMap_rendering? (steps : List (Step Node)) :
    steps.filterMap rendering? = (steps.filter isRendering).filterMap rendering? := by
  rw [List.filterMap_filter]
  congr 1
  funext a
  cases a <;> rfl

namespace Session

variable [DecidableEq Key] {lang : Language Node Decl Key} {s : Session Node Key} {n : Node}

/-- The resolution asks for the names in the blocks and for no others. -/
structure AsksFor (lang : Language Node Decl Key) (s : Session Node Key) (r : Resolution Node Key)
    (bs : List (Block Node)) : Prop where
  renderings : r.trail.filterMap Step.rendering? = bs.flatMap Block.renderings
  size : ∀ b ∈ bs, 0 < b.size ∧ b.size ≤ 16
  complete : ∀ b ∈ bs.dropLast, b.size = 16
  /-- No name but the last one stands for an enabled entry. -/
  vain : ∀ q ∈ (bs.flatMap Block.renderings).dropLast, s.registry.lookup? (lang.render q.1 q.2) = none
  /-- An incomplete block ends with the name of the answer. -/
  hit : ∀ b ∈ bs, b.size < 16 → ∃ p id e n, b.renderings.getLast? = some (b.node, p) ∧
    r.answer = some (id, n) ∧ s.registry.byId? id = some e ∧ e.name = lang.render b.node p
  /-- A node is not asked for its names if the memo leads from it to an entry that has its name. -/
  fresh : ∀ b ∈ bs, ∀ id, s.memo.get? (lang.key b.node) = some id → s.registry.isCurrent id = false
  /-- The lines about names are those about these names, in their order. -/
  lines : ∀ describe, (r.trail.filterMap (Step.line? r.session.registry describe)).filter Report.Line.isCandidate =
    (bs.flatMap Block.renderings).map fun q => Report.candidate (lang.render q.1 q.2) q.2
      (s.registry.lookup? (lang.render q.1 q.2)).isSome

theorem isCurrent_of_isOpen {k : Key} {id : EntryId} (h : (s.consult k).isOpen = true)
    (hm : s.memo.get? k = some id) : s.registry.isCurrent id = false := by
  cases hc : s.registry.isCurrent id with
  | false => rfl
  | true =>
    rw [isOpen_eq_false_iff.2 ⟨id, hm, Registry.isCurrent_eq_true_iff.1 hc⟩] at h
    cases h

/-- **Resolutions ask in blocks.** -/
theorem exists_asksFor {f : Stage → Node → Nat} (hf : lang.Budget f) {r : Resolution Node Key}
    (h : s.resolve? lang n = some r) : ∃ bs, s.AsksFor lang r bs ∧ bs.length ≤ f .untried n := by
  obtain ⟨w, hw, rfl⟩ := resolve?_eq_some_iff.1 h
  obtain ⟨bs, ha, hasked, hl⟩ := Outlook.exists_asks hf hw fun h => absurd rfl h
  replace hasked : w.trail.filter Step.isRendering = _ := hasked
  refine ⟨bs, ⟨?_, fun b => ha.size, fun b => ha.complete, fun q => ha.vain_of_mem_dropLast, fun b hb hlt => ?_,
    fun b hb id => isCurrent_of_isOpen (ha.isOpen hb), fun describe => ?_⟩, hl⟩
  · rw [Step.filterMap_rendering?]
    show (w.trail.filter _).filterMap _ = _
    rw [hasked, List.filterMap_map]
    exact List.filterMap_some
  · obtain ⟨p, id, hp, hlookup, hid⟩ := ha.incomplete hb hlt
    obtain ⟨⟨_, m⟩, hanswer, rfl⟩ := Option.map_eq_some_iff.1 hid
    obtain ⟨e, he, hname⟩ := Registry.exists_entry_of_lookup? hlookup
    exact ⟨p, _, e, m, hp, hanswer, he, hname⟩
  · rw [Step.filter_isCandidate]
    show (w.trail.filter _).filterMap _ = _
    rw [hasked, List.filterMap_map, ← List.filterMap_eq_map]
    congr 1
    funext q
    exact Step.line?_rendered ..

end Session

/-! ## Printers of type terms -/

namespace TypeTerm

/-- A printer that counts its calls and takes them down. -/
structure Printer where
  exceptions : Exceptions
  calls : Nat := 0
  log : List (TypeTerm × Presentation) := []

namespace Printer

/-- The types with the names that the printer gives them. -/
def language (P : Printer) : Language TypeTerm String TypeTerm := TypeTerm.language (spellExcept P.exceptions)

/-- Prints a type. -/
def print (P : Printer) (t : TypeTerm) (p : Presentation) : String × Printer :=
  (spellExcept P.exceptions t p, { P with calls := P.calls + 1, log := P.log ++ [(t, p)] })

/-- Prints a type in one presentation after the other, until a name stands for an entry. -/
def search (P : Printer) (lookup? : String → Option EntryId) (t : TypeTerm) :
    List Presentation → Option EntryId × Printer
  | [] => (none, P)
  | p :: ps =>
    let printed := P.print t p
    match lookup? printed.1 with
    | some id => (some id, printed.2)
    | none => printed.2.search lookup? t ps

/-- The printer after a step of a walk. -/
def hear (P : Printer) : Step TypeTerm → Printer
  | .rendered t p _ _ => (P.print t p).2
  | _ => P

/-- The printer after several steps. -/
def follow (P : Printer) (steps : List (Step TypeTerm)) : Printer := steps.foldl hear P

/-- A search through the printer is the search of a walk, followed by the printer. -/
theorem search_eq (P : Printer) (o : Outlook TypeTerm) (t : TypeTerm) (ps : List Presentation) :
    P.search o.lookup? t ps = ((o.search P.language t ps).2, P.follow (o.search P.language t ps).1) := by
  induction ps generalizing P with
  | nil => rfl
  | cons p ps ih =>
    rw [search, Outlook.search]
    show (match o.lookup? (P.language.render t p) with | some id => _ | none => _) = _
    cases o.lookup? (P.language.render t p) with
    | some id => rfl
    | none => exact ih _

@[simp] theorem exceptions_follow (P : Printer) (steps : List (Step TypeTerm)) :
    (P.follow steps).exceptions = P.exceptions := by
  induction steps generalizing P with
  | nil => rfl
  | cons a as ih =>
    show ((P.hear a).follow as).exceptions = _
    rw [ih]
    cases a <;> rfl

theorem log_follow (P : Printer) (steps : List (Step TypeTerm)) :
    (P.follow steps).log = P.log ++ steps.filterMap Step.rendering? := by
  induction steps generalizing P with
  | nil => simp [follow]
  | cons a as ih =>
    show ((P.hear a).follow as).log = _
    rw [ih]
    cases a <;> simp [hear, print, Step.rendering?, List.filterMap_cons]

theorem calls_follow (P : Printer) (steps : List (Step TypeTerm)) :
    (P.follow steps).calls = P.calls + (steps.filterMap Step.rendering?).length := by
  induction steps generalizing P with
  | nil => rfl
  | cons a as ih =>
    show ((P.hear a).follow as).calls = _
    rw [ih]
    cases a <;> simp [hear, print, Step.rendering?, List.filterMap_cons, Nat.add_assoc, Nat.add_comm]

end Printer

/-! ## Sessions with a printer -/

/-- A session of type terms and the printer that spells them. -/
structure Bench where
  session : Session TypeTerm TypeTerm
  printer : Printer

namespace Bench

/-- A session in which nothing was resolved yet, with a printer that has printed nothing. -/
def new (registry : Registry) (exceptions : Exceptions) : Bench := ⟨.new registry, { exceptions }⟩

/-- The session and the printer after an action. -/
def perform (d : Bench) : Action TypeTerm → Option Bench
  | .resolve t => (d.session.resolve? d.printer.language t).map fun r => ⟨r.session, d.printer.follow r.trail⟩
  | a => (d.session.perform d.printer.language a).map fun s => ⟨s, d.printer⟩

/-- The session and the printer after several actions, one after the other. -/
def run (d : Bench) : List (Action TypeTerm) → Option Bench
  | [] => some d
  | a :: as => (d.perform a).bind fun d => run d as

variable {d d' : Bench}

theorem perform_resolve {t : TypeTerm} {w : Walk TypeTerm}
    (h : d.session.outlook.Walks d.printer.language .untried t t w) : d.perform (.resolve t) =
      some ⟨(d.session.conclude d.printer.language w).session, d.printer.follow w.trail⟩ := by
  rw [perform, Session.resolve?_of_walks h]
  rfl

/-- The session goes its own way, and the printer has counted what it took down. -/
theorem of_perform {a : Action TypeTerm} (h : d.perform a = some d') :
    d.session.perform d.printer.language a = some d'.session ∧ d'.printer.exceptions = d.printer.exceptions ∧
      (d.printer.calls = d.printer.log.length → d'.printer.calls = d'.printer.log.length) := by
  cases a with
  | resolve t =>
    obtain ⟨r, hr, rfl⟩ := Option.map_eq_some_iff.1 h
    refine ⟨by rw [Session.perform, hr]; rfl, Printer.exceptions_follow _ _, fun hc => ?_⟩
    simp only [Printer.calls_follow, Printer.log_follow, List.length_append, hc]
  | register | discover | setEnabled | forget =>
    obtain rfl := Option.some.inj h
    exact ⟨rfl, rfl, id⟩

theorem of_run {as : List (Action TypeTerm)} (h : d.run as = some d') :
    d.session.run d.printer.language as = some d'.session ∧ d'.printer.exceptions = d.printer.exceptions ∧
      (d.printer.calls = d.printer.log.length → d'.printer.calls = d'.printer.log.length) := by
  induction as generalizing d with
  | nil =>
    obtain rfl := Option.some.inj h
    exact ⟨rfl, rfl, id⟩
  | cons a as ih =>
    obtain ⟨c, hc, h⟩ := Option.bind_eq_some_iff.1 h
    obtain ⟨hs, he, hcount⟩ := of_perform hc
    obtain ⟨hs', he', hcount'⟩ := ih h
    have hlang : c.printer.language = d.printer.language := congrArg (fun e => TypeTerm.language (spellExcept e)) he
    refine ⟨?_, he'.trans he, hcount' ∘ hcount⟩
    rw [Session.run, hs, Option.bind_some, ← hlang, hs']

end Bench

/-! ## The budget of a type -/

/-- The number of nodes that are asked for names at most: a specialization takes two, one of them the class declared for
it. -/
def askable : TypeTerm → Nat
  | named _ => 1
  | typedef _ t => askable t + 1
  | pointer t => askable t + 1
  | specialization .. => 2

/-- The same from each stage of the type on. -/
def budget : Stage → TypeTerm → Nat
  | .classless, specialization .. => 1
  | _, t => askable t

theorem askable_around (w : Wrapper) (t : TypeTerm) : askable (w.around t) = askable t + 1 := by
  cases w <;> rfl

theorem budget_around (st : Stage) (w : Wrapper) (t : TypeTerm) : budget st (w.around t) = askable t + 1 := by
  cases w <;> cases st <;> rfl

theorem budget_language (render : Renderer TypeTerm) : (TypeTerm.language render).Budget budget where
  unsettled n := Nat.le_of_eq rfl
  classless {n} _ := by cases n <;> simp [budget, askable]
  ofClass hc := by
    obtain ⟨⟨x, as, c, d, rfl⟩, name, rfl⟩ := exists_specialization_of_tag (.inl hc)
    exact Nat.le_refl 2
  ofTemplate ht := by
    obtain ⟨⟨x, as, c, d, rfl⟩, name, rfl⟩ := exists_specialization_of_tag (.inr ht)
    exact Nat.le_refl 1
  own {n} _ := by cases n <;> simp [budget, askable]
  unwrapped _ hu := by
    obtain ⟨w, rfl⟩ := exists_around_of_unwrap? hu
    exact Nat.le_of_eq (budget_around .classless w _).symm

theorem askable_wrap (ws : List Wrapper) (t : TypeTerm) : askable (wrap ws t) = askable t + ws.length := by
  induction ws generalizing t with
  | nil => rfl
  | cons w ws ih =>
    show askable (wrap ws (w.around t)) = _
    rw [ih, askable_around, List.length_cons]
    omega

theorem askable_le_of_base {b : TypeTerm} (hb : base b = b) : askable b ≤ 2 := by
  rcases base_cases b with ⟨x, h⟩ | ⟨x, as, c, d, h⟩
  · rw [← hb, h]
    simp [askable]
  · rw [← hb, h]
    simp [askable]

/-! ## Main statement -/

namespace Bench

/-- **The names that the resolution of a type asks for.** After any run the printer has counted the calls that it took
down. The resolution of a type under `k` typedefs and pointers asks for names block by block, at most `k + 2` blocks of
sixteen names each, and the lines about names are those about the names in the blocks. -/
theorem resolve_asksFor {registry : Registry} {exceptions : Exceptions} {as : List (Action TypeTerm)} {d : Bench}
    (hd : (new registry exceptions).run as = some d) (ws : List Wrapper) {b : TypeTerm} (hb : base b = b) :
    d.printer.calls = d.printer.log.length ∧
    (Session.new registry).run (TypeTerm.language (spellExcept exceptions)) as = some d.session ∧
    ∃ r d' bs, d.session.resolve? (TypeTerm.language (spellExcept exceptions)) (wrap ws b) = some r ∧
      d.perform (.resolve (wrap ws b)) = some d' ∧ d'.session = r.session ∧
      d.session.AsksFor (TypeTerm.language (spellExcept exceptions)) r bs ∧
      d'.printer.log = d.printer.log ++ bs.flatMap Block.renderings ∧ bs.length ≤ ws.length + 2 ∧
      d'.printer.calls ≤ d.printer.calls + 16 * (ws.length + 2) := by
  obtain ⟨hrun, hexceptions, hcalls⟩ := of_run hd
  have hlang : d.printer.language = TypeTerm.language (spellExcept exceptions) :=
    congrArg (fun e => TypeTerm.language (spellExcept e)) hexceptions
  have hground : (TypeTerm.language (spellExcept exceptions)).Grounded (wrap ws b) := grounded _
  obtain ⟨w, hw⟩ := Outlook.exists_walks (o := d.session.outlook) hground (wrap ws b)
  have hr := Session.resolve?_of_walks hw
  obtain ⟨bs, hbs, hlength⟩ := Session.exists_asksFor (budget_language _) hr
  have hle : bs.length ≤ ws.length + 2 := by
    have hbudget : budget .untried (wrap ws b) = askable b + ws.length := askable_wrap ws b
    have := askable_le_of_base hb
    omega
  refine ⟨hcalls rfl, hrun, _, _, bs, hr, by rw [perform, hlang, hr]; rfl, rfl, hbs, ?_, hle, ?_⟩
  · rw [Printer.log_follow, hbs.renderings]
  · rw [Printer.calls_follow, hbs.renderings]
    have := Block.length_flatMap_renderings_le bs
    omega

/-- The declaration `D` is spelled `V` in the second presentation. -/
def spelledV : Exceptions := Dict.empty.insert (named "D", { scope := .qualified }) "V"

/-- A template over `D`, with a class declared for its arguments, under a typedef and a pointer: all names of the pointer,
of the typedef and of the class are asked for, and two names of `D`. There are as many blocks as there can be. -/
theorem resolve_asksFor_of_template :
    ∃ d r d' bs, (new (.new {}) spelledV).run [.register { name := "V", origin := "a" }, .resolve (named "V")] = some d ∧
      d.perform (.resolve (wrap Wrapper.sample (specialization "T" [] (some "C") (some "D")))) = some d' ∧
      d.session.AsksFor (TypeTerm.language (spellExcept spelledV)) r bs ∧
      d'.printer.log = d.printer.log ++ bs.flatMap Block.renderings ∧ bs.length = 4 ∧
      d.printer.calls = 1 ∧ d'.printer.calls = 51 := by
  let t := wrap Wrapper.sample (specialization "T" [] (some "C") (some "D"))
  let lang := TypeTerm.language (spellExcept spelledV)
  let d : Bench := ⟨(Session.sample.conclude lang .sample).session,
    { exceptions := spelledV, calls := 1, log := [(named "V", {})] }⟩
  have hd : (new (.new {}) spelledV).run [.register { name := "V", origin := "a" }, .resolve (named "V")] = some d := by
    have hw : Session.sample.outlook.Walks lang .untried (named "V") (named "V") .sample :=
      .unsettled rfl (.classless rfl (.spelled rfl rfl))
    exact congrArg (Option.bind · _) (perform_resolve (d := ⟨Session.sample, { exceptions := spelledV }⟩) hw)
  -- neither a layer nor the class has a registered name, and `D` has one in the second presentation
  obtain ⟨w, hw, hcount⟩ : ∃ w, d.session.outlook.Walks lang .untried t t w ∧
      (w.trail.filterMap Step.rendering?).length = 50 :=
    ⟨_, .unsettled rfl (.classless rfl (.unwrapped rfl rfl (unwrap?_pointer _)
      (.unsettled rfl (.classless rfl (.unwrapped rfl rfl (unwrap?_typedef _ _)
      (.unsettled rfl (.classFailed rfl (.unsettled rfl (.classless rfl (.unmatched rfl rfl (unwrap?_named _)))) rfl
      (.ofTemplate rfl (.unsettled rfl (.classless rfl (.spelled rfl rfl))))))))))), rfl⟩
  obtain ⟨-, -, r, d', bs, hr, hd', -, hasks, hlog, hle, -⟩ := resolve_asksFor hd Wrapper.sample
    (b := specialization "T" [] (some "C") (some "D")) rfl
  obtain rfl : d.session.conclude lang w = r := Option.some.inj ((Session.resolve?_of_walks hw).symm.trans hr)
  have hlength : (bs.flatMap Block.renderings).length = 50 := by rw [← hasks.renderings]; exact hcount
  have hblocks := Block.length_flatMap_renderings_le bs
  refine ⟨d, _, d', bs, hd, hd', hasks, hlog, ?_, rfl, ?_⟩
  · have hlayers : Wrapper.sample.length = 2 := rfl
    omega
  · rw [(of_perform hd').2.2 rfl, hlog, List.length_append, hlength]
    rfl

end Bench

end TypeTerm

end TypeMapping
