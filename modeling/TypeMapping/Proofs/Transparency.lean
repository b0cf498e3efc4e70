import Mathlib.Data.Set.Basic
import TypeMapping.Proofs.Slots

/-!
# Transparency of the memo

As long as resolutions find the same names enabled, the memo cannot be noticed.

* `Outlook.unmemoized`, `Session.resolveAfresh?` : resolutions that neither ask the memo nor fill it;
* `Registry.enabledNames` : the names that stand for an enabled entry;
* `Language.Fails`        : a node that is not resolved as long as these names are enabled;
* `Language.Settled`      : a node that is resolved by a name of its own as long as these names are;
* `Session.Coherent`      : every slot of the memo is settled;
* `Session.Steady`        : every resolution of a run finds the same names enabled.

Main statements: `coherent_run`; `Coherent.exists_walks_unmemoized`, a walk does what it would do without
the memo; `resolve?_resolveAfresh?`, so does a resolution.
-/

namespace TypeMapping

/-! ## Without a memo -/

/-- The outlook in which the memo says nothing. -/
def Outlook.unmemoized {Key : Type} (o : Outlook Key) : Outlook Key :=
  { o with consult := fun _ => .absent }

/-- Does the step write into the memo? -/
def Step.isStore {Node : Type} : Step Node → Bool
  | .stored .. => true
  | _ => false

/-- The walk with nothing written into the memo. -/
def Walk.unstored {Node : Type} (w : Walk Node) : Walk Node :=
  ⟨w.trail.filter (!·.isStore), w.answer⟩

variable {Node Decl Key : Type} [DecidableEq Key]

/-- Resolves a node without a memo, if that comes to an end. -/
def Session.resolveAfresh? (lang : Language Node Decl Key) (s : Session Node Key) (n : Node) :
    Option (Resolution Node Key) :=
  (s.outlook.unmemoized.walk? lang n n).map fun w => s.conclude lang w.unstored

omit [DecidableEq Key] in
theorem Walk.stores_unstored (w : Walk Node) : w.unstored.stores = [] := by
  refine List.filterMap_eq_nil_iff.2 fun a ha => ?_
  have := (List.mem_filter.1 ha).2
  cases a <;> simp_all [Step.isStore, Step.store?]

omit [DecidableEq Key] in
theorem Walk.bindings_unstored (w : Walk Node) : w.unstored.bindings = w.bindings := by
  simp only [bindings, unstored, List.filterMap_filter]
  congr 1
  funext a
  cases a <;> rfl

variable {lang : Language Node Decl Key}

theorem Session.resolveAfresh?_of_walks {s : Session Node Key} {n : Node} {w : Walk Node}
    (h : s.outlook.unmemoized.Walks lang .untried n n w) :
    s.resolveAfresh? lang n = some (s.conclude lang w.unstored) := by
  rw [resolveAfresh?, ← Outlook.from?, Outlook.from?_of_walks h, Option.map_some]

/-- The engine without a memo leaves the memo as it is. -/
theorem Session.memo_of_resolveAfresh? {s : Session Node Key} {n : Node} {r : Resolution Node Key}
    (h : s.resolveAfresh? lang n = some r) : r.session.memo = s.memo := by
  obtain ⟨w, -, rfl⟩ := Option.map_eq_some_iff.1 h
  rw [memo_conclude, Walk.stores_unstored, List.foldl_nil]

/-! ## Enabled names -/

/-- The names that a walk finds enabled. -/
def Outlook.names (o : Outlook Key) : Set String := {name | (o.lookup? name).isSome}

/-- The names that stand for an enabled entry. -/
def Registry.enabledNames (r : Registry) : Set String := {name | (r.lookup? name).isSome}

/-- It is the first name of the node among the names. -/
def Language.GoesBy (lang : Language Node Decl Key) (N : Set String) (n : Node) (name : String) : Prop :=
  ∃ ps p qs, Presentation.searchOrder = ps ++ p :: qs ∧ lang.render n p = name ∧ name ∈ N ∧
    ∀ q ∈ ps, lang.render n q ∉ N

namespace Outlook

variable {o o' : Outlook Key} {n n' : Node} {id : EntryId}

omit [DecidableEq Key] in
theorem search_unmemoized (n : Node) (ps : List Presentation) :
    o.unmemoized.search lang n ps = o.search lang n ps :=
  search_congr lang (show o.unmemoized.lookup? = o.lookup? from rfl) n ps

omit [DecidableEq Key] in
/-- A search finds the entry of the first name. -/
theorem search_eq_some_iff : (o.search lang n Presentation.searchOrder).2 = some id ↔
    ∃ name, lang.GoesBy o.names n name ∧ o.lookup? name = some id := by
  rw [search_snd, List.findSome?_eq_some_iff]
  constructor
  · rintro ⟨ps, p, qs, ho, hl, hn⟩
    exact ⟨_, ⟨ps, p, qs, ho, rfl, by simp [names, hl], fun q hq => by simp [names, hn q hq]⟩, hl⟩
  · rintro ⟨_, ⟨ps, p, qs, ho, rfl, -, hn⟩, hl⟩
    exact ⟨ps, p, qs, ho, hl, fun q hq => by simpa [names] using hn q hq⟩

omit [DecidableEq Key] in
/-- Whether a search finds an entry depends on the enabled names alone. -/
theorem isSome_search_eq (hx : lang.Interchangeable) (hN : o.names = o'.names)
    (hk : lang.key n = lang.key n') (ps : List Presentation) :
    (o.search lang n ps).2.isSome = (o'.search lang n' ps).2.isSome := by
  rw [search_snd, search_snd, hx.render hk, Bool.eq_iff_iff, List.findSome?_isSome_iff,
    List.findSome?_isSome_iff]
  exact exists_congr fun p => and_congr_right fun _ => Set.ext_iff.1 hN _

variable {st : Stage} {start : Node} {w : Walk Node}

/-- Without a memo, key-equal nodes end alike under outlooks with the same enabled names. -/
theorem exists_walks_alike (hx : lang.Interchangeable) (hN : o.names = o'.names)
    (h : o.unmemoized.Walks lang st start n w) (start' : Node) (hk : lang.key n = lang.key n') :
    ∃ w', o'.unmemoized.Walks lang st start' n' w' ∧ w'.answer.isSome = w.answer.isSome := by
  have hsearch : ∀ {n n' : Node}, lang.key n = lang.key n' →
      (o.unmemoized.search lang n Presentation.searchOrder).2.isSome =
        (o'.unmemoized.search lang n' Presentation.searchOrder).2.isSome := by
    intro n n' hk
    rw [search_unmemoized, search_unmemoized]
    exact isSome_search_eq hx hN hk _
  induction h generalizing start' n' with
  | ready hr => cases hr
  | barred hr => cases hr
  | unsettled _ _ ih =>
    obtain ⟨v, hv, ha⟩ := ih start' hk
    exact ⟨_, .unsettled rfl hv, ha⟩
  | classless hc _ ih =>
    obtain ⟨v, hv, ha⟩ := ih start' hk
    exact ⟨v, .classless (eq_none_of_map_eq_map (hx.classTag hk) hc) hv, ha⟩
  | ofClass hc _ ha ih =>
    obtain ⟨m', hc', hm⟩ := exists_of_map_eq_map (hx.classTag hk) hc
    obtain ⟨v, hv, hva⟩ := ih m' hm
    refine ⟨v, .ofClass hc' hv ?_, hva⟩
    rwa [← Option.isSome_iff_ne_none, hva, Option.isSome_iff_ne_none]
  | classFailed hc _ ha _ ihc ih =>
    obtain ⟨m', hc', hm⟩ := exists_of_map_eq_map (hx.classTag hk) hc
    obtain ⟨c, hcw, hca⟩ := ihc m' hm
    obtain ⟨v, hv, hva⟩ := ih start' hk
    exact ⟨_, .classFailed hc' hcw (by simpa [ha] using hca) hv, hva⟩
  | ofTemplate ht _ ih =>
    obtain ⟨m', ht', hm⟩ := exists_of_map_eq_map (hx.templateTag hk) ht
    obtain ⟨v, hv, hva⟩ := ih m' hm
    exact ⟨_, .ofTemplate ht' hv, by simpa using hva⟩
  | spelled ht hs =>
    have ht' := eq_none_of_map_eq_map (hx.templateTag hk) ht
    obtain ⟨id', hs'⟩ := Option.isSome_iff_exists.1 ((hsearch hk).symm.trans (by rw [hs]; rfl))
    exact ⟨_, .spelled ht' hs', rfl⟩
  | unwrapped ht hs hu _ ih =>
    obtain ⟨⟨layer, m'⟩, hu', hm⟩ := exists_of_map_eq_map (hx.unwrap hk) hu
    have ht' := eq_none_of_map_eq_map (hx.templateTag hk) ht
    obtain ⟨v, hv, hva⟩ := ih start' hm
    exact ⟨_, .unwrapped ht' (by simpa [hs] using hsearch hk) hu' hv, hva⟩
  | unmatched ht hs hu =>
    have ht' := eq_none_of_map_eq_map (hx.templateTag hk) ht
    have hu' := eq_none_of_map_eq_map (hx.unwrap hk) hu
    exact ⟨_, .unmatched ht' (by simpa [hs] using hsearch hk) hu', rfl⟩

/-- Without a memo, a walk without an answer binds nothing. -/
theorem bindings_eq_nil (h : o.unmemoized.Walks lang st start n w) (ha : w.answer = none) :
    w.bindings = [] := by
  induction h with
  | ready hr => cases hr
  | barred hr => cases hr
  | unsettled _ _ ih => simpa [Walk.bindings_after] using ih ha
  | classless _ _ ih => exact ih ha
  | ofClass _ _ hne _ => exact absurd ha hne
  | classFailed _ _ hca _ ihc ih => simp [ihc hca, ih ha]
  | ofTemplate _ _ ih =>
    have ha' := Option.map_eq_none_iff.1 ((Walk.answer_rebind _ _).symm.trans ha)
    simp [ih ha', ha']
  | spelled => cases ha
  | unwrapped _ _ _ _ ih => simpa [Walk.bindings_after, Step.binding?] using ih ha
  | unmatched => simp [Walk.bindings, Step.binding?]

end Outlook

/-! ## Settled nodes -/

namespace Language

/-- A walk from the node ends without an answer where just these names are enabled. -/
def Fails (lang : Language Node Decl Key) (N : Set String) (m : Node) : Prop :=
  ∃ o : Outlook Key, o.names = N ∧
    ∃ w, o.unmemoized.Walks lang .untried m m w ∧ w.answer = none

/-- A walk from the node ends at its name where just these names are enabled. -/
structure Settled (lang : Language Node Decl Key) (N : Set String) (n : Node) (name : String) : Prop where
  templateless : lang.templateTag? n = none
  classFails : ∀ m, lang.classTag? n = some m → lang.Fails N m
  goesBy : lang.GoesBy N n name

variable {N : Set String} {n m : Node} {name : String}

theorem Fails.exists_walks (hx : lang.Interchangeable) {o : Outlook Key} (h : lang.Fails o.names n)
    (start : Node) (hk : lang.key n = lang.key m) :
    ∃ w, o.unmemoized.Walks lang .untried start m w ∧ w.answer = none := by
  obtain ⟨o', ho, w, hw, ha⟩ := h
  obtain ⟨v, hv, hva⟩ := Outlook.exists_walks_alike hx ho hw start hk
  exact ⟨v, hv, by simpa [ha] using hva⟩

theorem Fails.congr (hx : lang.Interchangeable) (h : lang.Fails N n) (hk : lang.key n = lang.key m) :
    lang.Fails N m := by
  obtain ⟨o, rfl, hw⟩ := h
  exact ⟨o, rfl, Fails.exists_walks hx ⟨o, rfl, hw⟩ m hk⟩

theorem Settled.congr (hx : lang.Interchangeable) (h : lang.Settled N n name)
    (hk : lang.key n = lang.key m) : lang.Settled N m name where
  templateless := eq_none_of_map_eq_map (hx.templateTag hk) h.templateless
  classFails m' hc := by
    obtain ⟨n', hc', hk'⟩ := exists_of_map_eq_map (hx.classTag hk.symm) hc
    exact (h.classFails n' hc').congr hx hk'.symm
  goesBy := by
    obtain ⟨ps, p, qs, ho, hp, hN, hn⟩ := h.goesBy
    exact ⟨ps, p, qs, ho, by rwa [← hx.render hk], hN, by rwa [← hx.render hk]⟩

/-- Without a memo, the walk from a settled node comes to the entry of its name, and binds it alone. -/
theorem Settled.exists_walks (hx : lang.Interchangeable) {o : Outlook Key} {id : EntryId}
    (h : lang.Settled o.names n name) (hl : o.lookup? name = some id) (start : Node) :
    ∃ w, o.unmemoized.Walks lang .untried start n w ∧ w.answer = some (id, n) ∧
      w.bindings = [(id, n)] := by
  have hs : (o.unmemoized.search lang n Presentation.searchOrder).2 = some id := by
    rw [Outlook.search_unmemoized]
    exact Outlook.search_eq_some_iff.2 ⟨name, h.goesBy, hl⟩
  have hown : ∃ w, o.unmemoized.Walks lang .classless start n w ∧ w.answer = some (id, n) ∧
      w.bindings = [(id, n)] :=
    ⟨_, .spelled h.templateless hs, rfl, by simp [Walk.bindings_after, Step.binding?]⟩
  obtain ⟨w, hw, ha, hb⟩ := hown
  cases hc : lang.classTag? n with
  | none => exact ⟨_, .unsettled rfl (.classless hc hw), ha, by simpa [Walk.bindings_after] using hb⟩
  | some m =>
    obtain ⟨c, hcw, hca⟩ := (h.classFails m hc).exists_walks hx m rfl
    refine ⟨_, .unsettled rfl (.classFailed hc hcw hca hw), ha, ?_⟩
    rw [Walk.bindings_after, Recall.bindings_steps, List.nil_append, Walk.bindings_after_trail,
      Outlook.bindings_eq_nil hcw hca, List.nil_append, hb]

end Language

/-! ## The invariant -/

namespace Session

/-- Every slot of the memo leads from a settled node to an entry of its name. -/
def Coherent (lang : Language Node Decl Key) (N : Set String) (s : Session Node Key) : Prop :=
  s.Slots lang (lang.Settled N)

variable {s : Session Node Key} {N : Set String} {st : Stage} {start n : Node} {w : Walk Node}

/-- Whatever node it is that the memo leads from, it is settled. -/
theorem Coherent.settled (hx : lang.Interchangeable) (hs : s.Coherent lang N) {id : EntryId}
    (h : s.memo.get? (lang.key n) = some id) {e : Entry} (he : s.registry.byId? id = some e) :
    lang.Settled N n e.name :=
  hs.of_get? (fun _ _ hk hm => hm.congr hx hk) h he

/-- The memo leads to no entry that is switched off: its name is enabled, so it has lost the name. -/
theorem Coherent.consult_ne_barred (hx : lang.Interchangeable)
    (hs : s.Coherent lang s.registry.enabledNames) (n : Node) (id : EntryId) :
    s.consult (lang.key n) ≠ .barred id := by
  intro h
  obtain ⟨hm, hoff, e, he, hg⟩ := consult_eq_barred h
  obtain ⟨-, -, -, -, -, hN, -⟩ := (hs.settled hx hm he).goesBy
  obtain ⟨id', hl⟩ := Option.isSome_iff_exists.1 hN
  obtain ⟨hg', hon⟩ := Registry.lookup?_eq_some_iff.1 hl
  obtain rfl := Option.some.inj (hg.symm.trans hg')
  rw [hoff] at hon
  cases hon

/-- A walk does what it would do without the memo. -/
theorem Coherent.exists_walks_unmemoized (hx : lang.Interchangeable)
    (hs : s.Coherent lang s.registry.enabledNames) (h : s.outlook.Walks lang st start n w) :
    ∃ v, s.outlook.unmemoized.Walks lang st start n v ∧ v.answer = w.answer ∧
      v.bindings = w.bindings := by
  induction h with
  | ready hr =>
    -- the slot is settled, and its name stands for the same entry again
    obtain ⟨hm, e, he, hl⟩ := consult_eq_ready hr
    exact Language.Settled.exists_walks hx (o := s.outlook) (hs.settled hx hm he) hl _
  | barred hr => exact absurd hr (hs.consult_ne_barred hx _ _)
  | unsettled _ _ ih =>
    obtain ⟨v, hv, ha, hb⟩ := ih
    exact ⟨_, .unsettled rfl hv, ha, by simpa [Walk.bindings_after] using hb⟩
  | classless hc _ ih =>
    obtain ⟨v, hv, ha, hb⟩ := ih
    exact ⟨v, .classless hc hv, ha, hb⟩
  | ofClass hc _ hne ih =>
    obtain ⟨v, hv, ha, hb⟩ := ih
    exact ⟨v, .ofClass hc hv (ha ▸ hne), ha, hb⟩
  | classFailed hc _ hca _ ihc ih =>
    obtain ⟨c, hcw, hc', hcb⟩ := ihc
    obtain ⟨v, hv, ha, hb⟩ := ih
    exact ⟨_, .classFailed hc hcw (hc'.trans hca) hv, ha, by simp [hcb, hb]⟩
  | ofTemplate ht _ ih =>
    obtain ⟨v, hv, ha, hb⟩ := ih
    exact ⟨_, .ofTemplate ht hv, by simp [ha], by simp [ha, hb]⟩
  | spelled ht hf =>
    rw [← Outlook.search_unmemoized] at hf
    exact ⟨_, .spelled ht hf, rfl, by simp [Walk.bindings_after]⟩
  | unwrapped ht hf hu _ ih =>
    obtain ⟨v, hv, ha, hb⟩ := ih
    rw [← Outlook.search_unmemoized] at hf
    exact ⟨_, .unwrapped ht hf hu hv, ha, by simpa [Walk.bindings_after] using hb⟩
  | unmatched ht hf hu =>
    rw [← Outlook.search_unmemoized] at hf
    exact ⟨_, .unmatched ht hf hu, rfl, by simp [Walk.bindings]⟩

/-- What a walk stores is settled. A node that a search stores has no class that would be resolved: at its
stage the class was tried before. -/
theorem Coherent.settled_of_mem_stores (hx : lang.Interchangeable)
    (hs : s.Coherent lang s.registry.enabledNames) (h : s.outlook.Walks lang st start n w)
    (hst : st = .classless → ∀ m, lang.classTag? n = some m → lang.Fails s.registry.enabledNames m)
    {id : EntryId} {u : Node} (hu : (id, u) ∈ w.stores) :
    ∃ name, s.registry.lookup? name = some id ∧ lang.Settled s.registry.enabledNames u name := by
  induction h with
  | ready _ | barred _ => simp at hu
  | unsettled _ _ ih => exact ih (by simp) (by simpa [Walk.stores_after] using hu)
  | classless hc _ ih => exact ih (fun _ m hm => absurd (hc.symm.trans hm) (by simp)) hu
  | ofClass _ _ _ ih => exact ih (by simp) hu
  | @classFailed _ n m c w hc hm ha _ ihc ih =>
    -- the walk of the class, taken without the memo, shows that the class fails
    rw [Walk.stores_after_trail, List.mem_append] at hu
    refine hu.elim (ihc (by simp)) (ih fun _ m' hm' => ?_)
    obtain rfl := Option.some.inj (hc.symm.trans hm')
    obtain ⟨v, hv, hva, -⟩ := hs.exists_walks_unmemoized hx hm
    exact ⟨s.outlook, rfl, v, hv, hva.trans ha⟩
  | ofTemplate _ _ ih => exact ih (by simp) (by simpa using hu)
  | spelled ht hf =>
    obtain ⟨rfl, rfl⟩ : id = _ ∧ u = _ := by simpa [Walk.stores_after, Step.store?] using hu
    obtain ⟨name, hn, hl⟩ := Outlook.search_eq_some_iff.1 hf
    exact ⟨name, hl, ht, hst rfl, hn⟩
  | unwrapped _ _ _ _ ih => exact ih (by simp) (by simpa [Walk.stores_after, Step.store?] using hu)
  | unmatched => simp [Walk.stores, Step.store?] at hu

/-! ## Runs -/

theorem Coherent.conclude (hx : lang.Interchangeable) (hs : s.Coherent lang s.registry.enabledNames)
    (h : s.outlook.Walks lang .untried start n w) :
    (s.conclude lang w).session.Coherent lang s.registry.enabledNames :=
  Slots.conclude hs fun _ _ hm => hs.settled_of_mem_stores hx h (by simp) hm

theorem Coherent.perform (hx : lang.Interchangeable) (hs : s.Coherent lang N) {a : Action Node}
    {s' : Session Node Key} (h : s.perform lang a = some s')
    (hN : ∀ n, a = .resolve n → s.registry.enabledNames = N) : s'.Coherent lang N := by
  rcases perform_cases h with ⟨hr, hm, -⟩ | ⟨n, r, ha, hr, rfl⟩
  · exact Slots.extend hs hr hm
  · obtain rfl := hN n ha
    obtain ⟨w, hw, rfl⟩ := resolve?_eq_some_iff.1 hr
    exact hs.conclude hx hw

/-- Whenever the run resolves a node, just these names are enabled. -/
def Steady (lang : Language Node Decl Key) (s : Session Node Key) (as : List (Action Node))
    (N : Set String) : Prop :=
  ∀ bs n cs t, as = bs ++ .resolve n :: cs → s.run lang bs = some t → t.registry.enabledNames = N

theorem Steady.tail {a : Action Node} {as : List (Action Node)} {t : Session Node Key}
    (h : s.Steady lang (a :: as) N) (ht : s.perform lang a = some t) : t.Steady lang as N := by
  rintro bs n cs u rfl hu
  exact h (a :: bs) n cs u rfl (Option.bind_eq_some_iff.2 ⟨t, ht, hu⟩)

theorem steady_nil : s.Steady lang [] N := by
  intro bs n cs t h
  simp at h

theorem steady_cons {a : Action Node} {as : List (Action Node)}
    (ha : ∀ n, a = .resolve n → s.registry.enabledNames = N)
    (has : ∀ t, s.perform lang a = some t → t.Steady lang as N) : s.Steady lang (a :: as) N := by
  rintro (_ | ⟨b, bs⟩) n cs t h ht
  · obtain ⟨ha', -⟩ := List.cons.inj h
    obtain rfl := Option.some.inj ht
    exact ha n ha'
  · obtain ⟨rfl, rfl⟩ := List.cons.inj h
    obtain ⟨u, hu, ht⟩ := run_cons ht
    exact has u hu bs n cs t rfl ht

/-- The slots stay settled as long as resolutions find the same names enabled. -/
theorem coherent_run (hx : lang.Interchangeable) {t : Session Node Key} {as : List (Action Node)}
    (hs : s.Coherent lang N) (hN : s.Steady lang as N) (h : s.run lang as = some t) :
    t.Coherent lang N := by
  induction as generalizing s with
  | nil => exact Option.some.inj h ▸ hs
  | cons a as ih =>
    obtain ⟨u, hu, h⟩ := run_cons h
    refine ih (hs.perform hx hu fun n ha => ?_) (hN.tail hu) h
    exact hN [] n as s (congrArg (· :: as) ha) rfl

/-! ## Main statement -/

/-- **The memo cannot be noticed.** Let a session begin with an empty memo, and let just the same names be
enabled at all resolutions from then on. Then the resolution of a node answers what the engine without a memo
answers in the same session, and leaves every entry bound to the same node. -/
theorem resolve?_resolveAfresh? (hx : lang.Interchangeable) {t : Session Node Key}
    {as : List (Action Node)} (h₀ : ∀ k, s.memo.get? k = none) (ht : s.run lang as = some t)
    (hN : s.Steady lang as t.registry.enabledNames) (hn : lang.Grounded n) :
    ∃ r r', t.resolve? lang n = some r ∧ t.resolveAfresh? lang n = some r' ∧ r.answer = r'.answer ∧
      ∀ id, r.session.boundTo? id = r'.session.boundTo? id := by
  have hcoherent : t.Coherent lang t.registry.enabledNames :=
    coherent_run hx (slots_of_empty h₀) hN ht
  obtain ⟨w, hw⟩ := Outlook.exists_walks (o := t.outlook) hn n
  obtain ⟨v, hv, ha, hb⟩ := hcoherent.exists_walks_unmemoized hx hw
  refine ⟨_, _, resolve?_of_walks hw, resolveAfresh?_of_walks hv, ha.symm, fun id => ?_⟩
  rw [boundTo?, bound_conclude, boundTo?, bound_conclude, Walk.bindings_unstored, hb]

/-- A pointer meets the slot of its pointee, whose entry was switched off and on in between. -/
theorem resolve?_resolveAfresh?_past_switch :
    ∃ t r r', (Session.new (.new {})).run TypeTerm.plain [.register { name := "V", origin := "a" },
        .resolve (.named "V"), .setEnabled 0 false, .setEnabled 0 true] = some t ∧
      t.resolve? TypeTerm.plain (.pointer (.named "V")) = some r ∧
      t.resolveAfresh? TypeTerm.plain (.pointer (.named "V")) = some r' ∧
      t.memo.get? (.named "V") = some 0 ∧ r.answer = r'.answer ∧
      ∀ id, r.session.boundTo? id = r'.session.boundTo? id := by
  let s₂ := ((sample.conclude TypeTerm.plain .sample).session.setEnabled 0 false).setEnabled 0 true
  have hs : (Session.new (.new {})).run TypeTerm.plain [.register { name := "V", origin := "a" },
      .resolve (.named "V"), .setEnabled 0 false, .setEnabled 0 true] = some s₂ :=
    run_resolve (walks_sample _) _
  have hN : (Session.new (.new {})).Steady TypeTerm.plain [.register { name := "V", origin := "a" },
      .resolve (.named "V"), .setEnabled 0 false, .setEnabled 0 true] s₂.registry.enabledNames := by
    refine steady_cons (by simp) fun t ht => ?_
    obtain rfl : sample = t := Option.some.inj ht
    exact steady_cons (fun _ _ => rfl) fun _ _ => steady_cons (by simp) fun _ _ =>
      steady_cons (by simp) fun _ _ => steady_nil
  obtain ⟨r, r', hr, hr', ha, hb⟩ := resolve?_resolveAfresh? (TypeTerm.interchangeable _) (fun _ => rfl) hs hN
    (TypeTerm.grounded (.pointer (.named "V")))
  exact ⟨s₂, r, r', hs, hr, hr', rfl, ha, hb⟩

end Session

end TypeMapping
