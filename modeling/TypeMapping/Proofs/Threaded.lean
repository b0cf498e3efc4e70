import TypeMapping.Proofs.Effect

/-!
# The session threaded through

A walk reads the session as it was in the beginning. The engine here changes the session with every step and
reads it as it is then.

* `Resolution.after`    : a resolution with steps before it;
* `Session.threaded?`   : the resolution of a node, step by step, with `threadedAttempt?` and
  `threadedScan?` for the later stages of a node;
* `Session.threadedFrom?` : the same by the stage.

Main statement: `resolve?_eq_threaded?`, it makes no difference.
-/

namespace TypeMapping

variable {Node Decl Key : Type}

/-- The resolution with steps before it. -/
def Resolution.after (steps : List (Step Node)) (r : Resolution Node Key) : Resolution Node Key :=
  { r with trail := steps ++ r.trail }

variable [DecidableEq Key]

/-- The resolution for a node that stands in for the one it came to. -/
def Resolution.rebind (lang : Language Node Decl Key) (r : Resolution Node Key) (n : Node) :
    Resolution Node Key :=
  match r.answer with
  | some (id, _) => ⟨r.session.apply lang (.bound id n), r.trail ++ [.bound id n], some (id, n)⟩
  | none => r

namespace Session

mutual

/-- Resolves `n`, in the resolution that began with `start`, and changes the session on the way. -/
def threaded? (lang : Language Node Decl Key) (s : Session Node Key) (start n : Node) :
    Option (Resolution Node Key) :=
  match s.consult (lang.key n) with
  | .ready id => some (s.conclude lang (.found id n))
  | .barred id => some (s.conclude lang ⟨[.barred id n], none⟩)
  | r => do
    let t ← s |>.threadedAttempt? lang start n
    return t.after (r.steps n)
partial_fixpoint

/-- Resolves a node that the memo does not settle. -/
def threadedAttempt? (lang : Language Node Decl Key) (s : Session Node Key) (start n : Node) :
    Option (Resolution Node Key) :=
  match lang.classTag? n with
  | none => s |>.threadedScan? lang start n
  | some m => do
    let c ← s |>.threaded? lang m m
    match c.answer with
    | some _ => return c
    | none =>
      let t ← c.session |>.threadedScan? lang start n
      return t.after c.trail
partial_fixpoint

/-- Resolves a node that neither the memo nor the class declared for it settles. -/
def threadedScan? (lang : Language Node Decl Key) (s : Session Node Key) (start n : Node) :
    Option (Resolution Node Key) :=
  match lang.templateTag? n with
  | some m => do
    let t ← s |>.threaded? lang m m
    return t.rebind lang n
  | none =>
    let search := s.outlook.search lang n Presentation.searchOrder
    match search.2 with
    | some id => some (s.conclude lang ((Walk.found id n).after (search.1 ++ [.stored id n])))
    | none =>
      match lang.unwrap? n with
      | some (layer, m) => do
        let t ← s |>.threaded? lang start m
        return t.after (search.1 ++ [.unwrapped layer n m])
      | none => some (s.conclude lang ⟨search.1 ++ [.unmatched start], none⟩)
partial_fixpoint

end

/-- Resolves a node at a stage. -/
def threadedFrom? (lang : Language Node Decl Key) (s : Session Node Key) :
    Stage → Node → Node → Option (Resolution Node Key)
  | .untried => s.threaded? lang
  | .unsettled => s.threadedAttempt? lang
  | .classless => s.threadedScan? lang

variable {lang : Language Node Decl Key} {s : Session Node Key} {o : Outlook Key} {st : Stage}
  {start n : Node} {w : Walk Node}

/-! ## Walks put together -/

theorem foldl_apply_eq_self {steps : List (Step Node)}
    (h : ∀ a ∈ steps, a.store? = none ∧ a.binding? = none) : steps.foldl (apply lang) s = s := by
  induction steps with
  | nil => rfl
  | cons a as ih =>
    have ha : apply lang s a = s := by
      have hsilent := h a List.mem_cons_self
      cases a <;> simp_all [apply, Step.store?, Step.binding?]
    rw [List.foldl_cons, ha]
    exact ih fun b hb => h b (List.mem_cons_of_mem a hb)

/-- Steps that write nothing may be taken before or after. -/
theorem conclude_after_silent {steps : List (Step Node)} (hm : steps.filterMap Step.store? = [])
    (hb : steps.filterMap Step.binding? = []) :
    s.conclude lang (w.after steps) = (s.conclude lang w).after steps := by
  have hsilent : steps.foldl (apply lang) s = s := foldl_apply_eq_self fun a ha =>
    ⟨List.filterMap_eq_nil_iff.1 hm a ha, List.filterMap_eq_nil_iff.1 hb a ha⟩
  simp only [conclude, Walk.trail_after, Walk.answer_after, List.foldl_append, hsilent, Resolution.after]

theorem conclude_after_trail (c : Walk Node) :
    s.conclude lang (w.after c.trail) = ((s.conclude lang c).session.conclude lang w).after c.trail := by
  simp only [conclude, Walk.trail_after, Walk.answer_after, List.foldl_append, Resolution.after]

theorem conclude_rebind (m : Node) : s.conclude lang (w.rebind m) = (s.conclude lang w).rebind lang m := by
  cases ha : w.answer <;>
    simp [Walk.rebind, Resolution.rebind, conclude, ha, List.foldl_append]

/-! ## The engines agree -/

theorem threaded?_of_isOpen (hr : (s.consult (lang.key n)).isOpen = true) : s.threaded? lang start n =
    (s.threadedAttempt? lang start n).map (Resolution.after ((s.consult (lang.key n)).steps n)) := by
  rw [threaded?]
  revert hr
  cases s.consult (lang.key n) with
  | absent | superseded id => intro _; cases s.threadedAttempt? lang start n <;> rfl
  | barred id | ready id => exact fun hr => absurd hr (by simp [Recall.isOpen])

/-- What a walk comes to with the session as it was, it comes to with the session threaded through: the
session is read again only after a class that was not resolved, and then the memo is what it was. -/
theorem threadedFrom?_of_walks (h : o.Walks lang st start n w) (ho : s.outlook = o) :
    s.threadedFrom? lang st start n = some (s.conclude lang w) := by
  induction h generalizing s with
  | ready hr =>
    subst ho
    replace hr : s.consult _ = _ := hr
    simp only [threadedFrom?]
    rw [threaded?, hr]
  | barred hr =>
    subst ho
    replace hr : s.consult _ = _ := hr
    simp only [threadedFrom?]
    rw [threaded?, hr]
  | unsettled hr _ ih =>
    subst ho
    have ih := ih rfl
    simp only [threadedFrom?] at ih ⊢
    rw [threaded?_of_isOpen hr, ih, conclude_after_silent (Recall.stores_steps _ _)
      (Recall.bindings_steps _ _)]
    rfl
  | classless hc _ ih =>
    have ih := ih ho
    simp only [threadedFrom?] at ih ⊢
    rw [threadedAttempt?, hc]
    exact ih
  | ofClass hc _ hne ih =>
    have ih := ih ho
    obtain ⟨a, ha⟩ := Option.ne_none_iff_exists'.1 hne
    simp only [threadedFrom?] at ih ⊢
    rw [threadedAttempt?, hc]
    simp [ih, ha]
  | @classFailed start n m c w hc hm hca _ ihm ihw =>
    -- the only place where the session is read after it was changed
    have hc' : (s.conclude lang c).session.outlook = o := (outlook_conclude (stores_eq_nil hm hca)).trans ho
    have ihm := ihm ho
    have ihw := ihw hc'
    simp only [threadedFrom?] at ihm ihw ⊢
    rw [threadedAttempt?, hc, conclude_after_trail]
    simp only [ihm, Option.bind_eq_bind, Option.bind_some, answer_conclude, hca, ihw]
    rfl
  | ofTemplate ht _ ih =>
    have ih := ih ho
    simp only [threadedFrom?] at ih ⊢
    rw [threadedScan?, ht, conclude_rebind]
    simp [ih]
  | spelled ht hf =>
    subst ho
    simp only [threadedFrom?]
    rw [threadedScan?, ht]
    simp [hf]
  | unwrapped ht hf hu _ ih =>
    subst ho
    have ih := ih rfl
    simp only [threadedFrom?] at ih ⊢
    rw [threadedScan?, ht, conclude_after_silent (by simp [Step.store?]) (by simp [Step.binding?])]
    simp [hf, hu, ih]
  | unmatched ht hf hu =>
    subst ho
    simp only [threadedFrom?]
    rw [threadedScan?, ht]
    simp [hf, hu]

/-- Whatever the engine that threads the session comes to is what a walk comes to. -/
theorem walks_of_threaded :
    (∀ (s : Session Node Key) (start n : Node) (r : Resolution Node Key),
      s.threaded? lang start n = some r →
        ∃ w, s.outlook.Walks lang .untried start n w ∧ s.conclude lang w = r) ∧
    (∀ (s : Session Node Key) (start n : Node) (r : Resolution Node Key),
      s.threadedAttempt? lang start n = some r →
        ∃ w, s.outlook.Walks lang .unsettled start n w ∧ s.conclude lang w = r) ∧
    (∀ (s : Session Node Key) (start n : Node) (r : Resolution Node Key),
      s.threadedScan? lang start n = some r →
        ∃ w, s.outlook.Walks lang .classless start n w ∧ s.conclude lang w = r) := by
  refine threaded?.mutual_partial_correctness lang
    (fun s start n r => ∃ w, s.outlook.Walks lang .untried start n w ∧ s.conclude lang w = r)
    (fun s start n r => ∃ w, s.outlook.Walks lang .unsettled start n w ∧ s.conclude lang w = r)
    (fun s start n r => ∃ w, s.outlook.Walks lang .classless start n w ∧ s.conclude lang w = r)
    ?_ ?_ ?_
  · intro attempt ih s start n r h
    have hopen : ∀ c, s.consult (lang.key n) = c → c.isOpen = true →
        (do let t ← attempt s start n; pure (t.after (c.steps n)) : Option _) = some r →
        ∃ w, s.outlook.Walks lang .untried start n w ∧ s.conclude lang w = r := by
      rintro c rfl hr h
      obtain ⟨t, ht, h⟩ := Option.bind_eq_some_iff.1 h
      obtain rfl := Option.some.inj h
      obtain ⟨w, hw, rfl⟩ := ih _ _ _ _ ht
      exact ⟨_, .unsettled hr hw,
        conclude_after_silent (Recall.stores_steps _ _) (Recall.bindings_steps _ _)⟩
    cases hr : s.consult (lang.key n) with
    | ready id => rw [hr] at h; exact ⟨_, .ready hr, Option.some.inj h⟩
    | barred id => rw [hr] at h; exact ⟨_, .barred hr, Option.some.inj h⟩
    | absent => rw [hr] at h; exact hopen _ hr rfl h
    | superseded id => rw [hr] at h; exact hopen _ hr rfl h
  · intro walk scan ihw ihs s start n r h
    split at h
    · next hc =>
      obtain ⟨w, hw, hr⟩ := ihs _ _ _ _ h
      exact ⟨w, .classless hc hw, hr⟩
    · next m hc =>
      obtain ⟨t, ht, h⟩ := Option.bind_eq_some_iff.1 h
      obtain ⟨c, hm, rfl⟩ := ihw _ _ _ _ ht
      split at h
      · next a ha =>
        exact ⟨c, .ofClass hc hm (by rw [← answer_conclude (s := s), ha]; simp), Option.some.inj h⟩
      · next ha =>
        obtain ⟨u, hu, h⟩ := Option.bind_eq_some_iff.1 h
        obtain rfl := Option.some.inj h
        obtain ⟨w, hw, rfl⟩ := ihs _ _ _ _ hu
        rw [outlook_conclude (stores_eq_nil hm ha)] at hw
        exact ⟨_, .classFailed hc hm ha hw, conclude_after_trail c⟩
  · intro walk ih s start n r h
    split at h
    · next m ht =>
      obtain ⟨t, hm, h⟩ := Option.bind_eq_some_iff.1 h
      obtain rfl := Option.some.inj h
      obtain ⟨w, hw, rfl⟩ := ih _ _ _ _ hm
      exact ⟨_, .ofTemplate ht hw, conclude_rebind n⟩
    · next ht =>
      dsimp only at h
      split at h
      · next id hf => exact ⟨_, .spelled ht hf, Option.some.inj h⟩
      · next hf =>
        split at h
        · next layer m hu =>
          obtain ⟨t, hm, h⟩ := Option.bind_eq_some_iff.1 h
          obtain rfl := Option.some.inj h
          obtain ⟨w, hw, rfl⟩ := ih _ _ _ _ hm
          exact ⟨_, .unwrapped ht hf hu hw,
            conclude_after_silent (by simp [Step.store?]) (by simp [Step.binding?])⟩
        · next hu => exact ⟨_, .unmatched ht hf hu, Option.some.inj h⟩

/-- **Threading the session makes no difference.** The resolution that reads the session as it was in the
beginning, and changes it in the end, is the one that changes it with every step. -/
theorem resolve?_eq_threaded? (s : Session Node Key) (n : Node) :
    s.resolve? lang n = s.threaded? lang n n := by
  refine Option.ext fun r => ⟨fun h => ?_, fun h => ?_⟩
  · obtain ⟨w, hw, rfl⟩ := resolve?_eq_some_iff.1 h
    exact threadedFrom?_of_walks hw rfl
  · obtain ⟨w, hw, rfl⟩ := walks_of_threaded.1 _ _ _ _ h
    exact resolve?_of_walks hw

end Session

end TypeMapping
