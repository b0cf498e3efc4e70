import TypeMapping.Proofs.Derivation
import TypeMapping.Proofs.Effect

/-!
# The first match

What a type term is resolved to when the memo is empty, without a walk.

* `tower`, `base`  : a type with one typedef or pointer after the other off, and without any;
* `Hit`, `LeastHit`: a spelling of the tower that stands for an entry, and the first of them;
* `BaseMatch`      : what a specialization is resolved to, by its class, its template or its own names;
* `FirstMatch`     : the answer that the spellings determine;
* `firstMatch?`    : the same as a function.

Main statements: `firstHit?_eq_some_iff`, `firstMatch_iff`; `resolve?_forget_firstMatch`, a resolution with
an empty memo answers the first match.
-/

namespace TypeMapping.TypeTerm

/-! ## Towers -/

/-- The type, the type below its outermost typedef or pointer, and so on. -/
def tower : TypeTerm → List TypeTerm
  | typedef name t => typedef name t :: tower t
  | pointer t => pointer t :: tower t
  | t => [t]

/-- The type below all typedefs and pointers. -/
def base : TypeTerm → TypeTerm
  | typedef _ t => base t
  | pointer t => base t
  | t => t

section
variable (lookup? : String → Option EntryId) (render : Renderer TypeTerm)

/-! ## The first match as a condition -/

/-- Type `i` of the list is no specialization, and its name in presentation `j` of the search order stands
for the entry. -/
def Hit (ts : List TypeTerm) (i j : Nat) (id : EntryId) (t : TypeTerm) : Prop :=
  ts[i]? = some t ∧ frontEnd.isSpecialization t = false ∧
    ∃ p, Presentation.searchOrder[j]? = some p ∧ lookup? (render t p) = some id

/-- The hit whose pair of numbers is the least in lexicographic order. -/
def LeastHit (ts : List TypeTerm) (i j : Nat) (id : EntryId) (t : TypeTerm) : Prop :=
  Hit lookup? render ts i j id t ∧
    ∀ i' j' id' t', Hit lookup? render ts i' j' id' t' → i < i' ∨ i = i' ∧ j ≤ j'

/-- The first name of the type that stands for an entry stands for this one. -/
def FirstSpelling (t : TypeTerm) (id : EntryId) : Prop :=
  ∃ (j : Nat) (p : Presentation), Presentation.searchOrder[j]? = some p ∧
    lookup? (render t p) = some id ∧
    ∀ j' < j, ∀ p', Presentation.searchOrder[j']? = some p' → lookup? (render t p') = none

/-- No name of the type stands for an entry. -/
def Unspelled (t : TypeTerm) : Prop := ∀ p ∈ Presentation.searchOrder, lookup? (render t p) = none

/-- No name of the types stands for an entry, specializations apart. -/
def NoHit (ts : List TypeTerm) : Prop := ∀ i j id t, ¬ Hit lookup? render ts i j id t

/-- There is no class declared for a specialization whose name stands for an entry. -/
def NoClass (c : Option String) : Prop := ∀ name ∈ c, Unspelled lookup? render (named name)

/-- What a name or a specialization leads to when there is no hit: a specialization goes by its class, then by
its template, and by its own names only if it has no template. -/
inductive BaseMatch : TypeTerm → Option (EntryId × TypeTerm) → Prop
  | ofClass {x : String} {as : List TypeTerm} {c : String} {d : Option String} {id : EntryId}
      (h : FirstSpelling lookup? render (named c) id) :
      BaseMatch (specialization x as (some c) d) (some (id, named c))
  | ofTemplate {x : String} {as : List TypeTerm} {c : Option String} {d : String} {id : EntryId}
      (hc : NoClass lookup? render c) (h : FirstSpelling lookup? render (named d) id) :
      BaseMatch (specialization x as c (some d)) (some (id, specialization x as c (some d)))
  /-- A template whose declaration has no entry is a dead end, whatever the names of the type. -/
  | deadEnd {x : String} {as : List TypeTerm} {c : Option String} {d : String}
      (hc : NoClass lookup? render c) (h : Unspelled lookup? render (named d)) :
      BaseMatch (specialization x as c (some d)) none
  | own {x : String} {as : List TypeTerm} {c : Option String} {id : EntryId}
      (hc : NoClass lookup? render c)
      (h : FirstSpelling lookup? render (specialization x as c none) id) :
      BaseMatch (specialization x as c none) (some (id, specialization x as c none))
  | ownless {x : String} {as : List TypeTerm} {c : Option String} (hc : NoClass lookup? render c)
      (h : Unspelled lookup? render (specialization x as c none)) :
      BaseMatch (specialization x as c none) none
  | nameless {x : String} : BaseMatch (named x) none

/-- The answer for a type: the first hit of its tower; without one, what its base leads to. -/
inductive FirstMatch (t : TypeTerm) : Option (EntryId × TypeTerm) → Prop
  | layer {i j : Nat} {id : EntryId} {u : TypeTerm} (h : LeastHit lookup? render (tower t) i j id u) :
      FirstMatch t (some (id, u))
  | base {a : Option (EntryId × TypeTerm)} (hn : NoHit lookup? render (tower t))
      (h : BaseMatch lookup? render (base t) a) : FirstMatch t a

/-! ## The first match as a function -/

/-- The entry of the first name of the type that stands for one. -/
def firstSpelling? (t : TypeTerm) : Option EntryId :=
  Presentation.searchOrder.findSome? fun p => lookup? (render t p)

/-- The entry of the first name of the types, specializations apart, and the type that has the name. -/
def firstHit? (ts : List TypeTerm) : Option (EntryId × TypeTerm) :=
  ts.findSome? fun t =>
    if frontEnd.isSpecialization t then none else (firstSpelling? lookup? render t).map (·, t)

/-- The answer of the class declared for a specialization. -/
def classMatch? (c : Option String) : Option (EntryId × TypeTerm) :=
  c.bind fun c => (firstSpelling? lookup? render (named c)).map (·, named c)

/-- The answer of a specialization. The declaration of the template, if there is one, is final. -/
def baseMatch? : TypeTerm → Option (EntryId × TypeTerm)
  | specialization x as c d =>
    let t := specialization x as c d
    (classMatch? lookup? render c).or
      ((firstSpelling? lookup? render (d.elim t named)).map (·, t))
  | _ => none

/-- The answer for a type. -/
def firstMatch? (t : TypeTerm) : Option (EntryId × TypeTerm) :=
  (firstHit? lookup? render (tower t)).or (baseMatch? lookup? render (base t))

end

variable {lookup? : String → Option EntryId} {render : Renderer TypeTerm}

/-! ## Condition and function agree -/

/-- The first value of a search is that of a place before which there is none. -/
theorem findSome?_eq_some_iff_getElem? {α β : Type} {f : α → Option β} {l : List α} {b : β} :
    l.findSome? f = some b ↔ ∃ (i : Nat) (a : α), l[i]? = some a ∧ f a = some b ∧
      ∀ i' < i, ∀ a', l[i']? = some a' → f a' = none := by
  rw [List.findSome?_eq_some_iff]
  constructor
  · rintro ⟨l₁, a, l₂, rfl, ha, hn⟩
    refine ⟨l₁.length, a, by simp, ha, fun i' hi' a' h => hn a' ?_⟩
    rw [List.getElem?_append_left hi'] at h
    exact List.mem_of_getElem? h
  · rintro ⟨i, a, hi, ha, hn⟩
    obtain ⟨hlt, rfl⟩ := List.getElem?_eq_some_iff.1 hi
    refine ⟨l.take i, l[i], l.drop (i + 1), by simp, ha, fun x hx => ?_⟩
    obtain ⟨i', hi', rfl⟩ := List.mem_take_iff_getElem.1 hx
    exact hn i' (by omega) _ (List.getElem?_eq_getElem (by omega))

theorem firstSpelling?_eq_none_iff {t : TypeTerm} :
    firstSpelling? lookup? render t = none ↔ Unspelled lookup? render t :=
  List.findSome?_eq_none_iff

theorem firstSpelling?_eq_some_iff {t : TypeTerm} {id : EntryId} :
    firstSpelling? lookup? render t = some id ↔ FirstSpelling lookup? render t id :=
  findSome?_eq_some_iff_getElem?

theorem exists_firstSpelling?_of_hit {ts : List TypeTerm} {i j : Nat} {id : EntryId} {t : TypeTerm}
    (h : Hit lookup? render ts i j id t) : ∃ id', firstSpelling? lookup? render t = some id' := by
  obtain ⟨-, -, p, hp, hl⟩ := h
  cases hf : firstSpelling? lookup? render t with
  | some id' => exact ⟨id', rfl⟩
  | none =>
    have hu := firstSpelling?_eq_none_iff.1 hf p (List.mem_of_getElem? hp)
    rw [hl] at hu
    cases hu

theorem firstHit?_eq_none_iff {ts : List TypeTerm} :
    firstHit? lookup? render ts = none ↔ NoHit lookup? render ts := by
  rw [firstHit?, List.findSome?_eq_none_iff]
  constructor
  · intro h i j id t hit
    obtain ⟨id', hf⟩ := exists_firstSpelling?_of_hit hit
    simpa [hit.2.1, hf] using h t (List.mem_of_getElem? hit.1)
  · intro h t ht
    obtain ⟨i, hi⟩ := List.mem_iff_getElem?.1 ht
    split
    · rfl
    · next hsp =>
      cases hf : firstSpelling? lookup? render t with
      | none => rfl
      | some id =>
        obtain ⟨j, p, hp, hl, -⟩ := firstSpelling?_eq_some_iff.1 hf
        exact (h i j id t ⟨hi, Bool.eq_false_iff.2 hsp, p, hp, hl⟩).elim

/-- A search through the types and their names finds the least hit. -/
theorem firstHit?_eq_some_iff {ts : List TypeTerm} {id : EntryId} {t : TypeTerm} :
    firstHit? lookup? render ts = some (id, t) ↔ ∃ i j, LeastHit lookup? render ts i j id t := by
  rw [firstHit?, findSome?_eq_some_iff_getElem?]
  constructor
  · rintro ⟨i, u, hi, hu, hn⟩
    split at hu
    · cases hu
    · next hsp =>
      obtain ⟨id', hf, he⟩ := Option.map_eq_some_iff.1 hu
      obtain ⟨rfl, rfl⟩ := Prod.mk.inj he
      obtain ⟨j, p, hp, hl, hj⟩ := firstSpelling?_eq_some_iff.1 hf
      refine ⟨i, j, ⟨hi, Bool.eq_false_iff.2 hsp, p, hp, hl⟩, fun i' j' id' t' hit => ?_⟩
      rcases Nat.lt_trichotomy i i' with hlt | rfl | hgt
      · exact .inl hlt
      · refine .inr ⟨rfl, Nat.le_of_not_lt fun hlt => ?_⟩
        obtain ⟨hi', -, p', hp', hl'⟩ := hit
        obtain rfl := Option.some.inj (hi.symm.trans hi')
        rw [hj j' hlt p' hp'] at hl'
        cases hl'
      · obtain ⟨id'', hf'⟩ := exists_firstSpelling?_of_hit hit
        simpa [hit.2.1, hf'] using hn i' hgt t' hit.1
  · rintro ⟨i, j, ⟨hi, hsp, p, hp, hl⟩, hleast⟩
    have hf : firstSpelling? lookup? render t = some id := by
      refine firstSpelling?_eq_some_iff.2 ⟨j, p, hp, hl, fun j' hj' p' hp' => ?_⟩
      refine Option.eq_none_iff_forall_ne_some.2 fun id' hl' => ?_
      have := hleast i j' id' t ⟨hi, hsp, p', hp', hl'⟩
      omega
    refine ⟨i, t, hi, by simp [hsp, hf], fun i' hi' t' ht' => ?_⟩
    split
    · rfl
    · next hsp' =>
      cases hf' : firstSpelling? lookup? render t' with
      | none => rfl
      | some id' =>
        obtain ⟨j', p', hp', hl', -⟩ := firstSpelling?_eq_some_iff.1 hf'
        have := hleast i' j' id' t' ⟨ht', Bool.eq_false_iff.2 hsp', p', hp', hl'⟩
        omega

/-- No typedef and no pointer is left below all of them. -/
theorem base_cases : ∀ t : TypeTerm, (∃ x, base t = named x) ∨
    ∃ x as c d, base t = specialization x as c d
  | named x => .inl ⟨x, rfl⟩
  | typedef _ t => base_cases t
  | pointer t => base_cases t
  | specialization x as c d => .inr ⟨x, as, c, d, rfl⟩

theorem classMatch?_eq_none_iff {c : Option String} :
    classMatch? lookup? render c = none ↔ NoClass lookup? render c := by
  simp [classMatch?, NoClass, firstSpelling?_eq_none_iff]

theorem baseMatch?_of_baseMatch {t : TypeTerm} {a : Option (EntryId × TypeTerm)}
    (h : BaseMatch lookup? render t a) : baseMatch? lookup? render t = a := by
  cases h with
  | ofClass h => simp [baseMatch?, classMatch?, firstSpelling?_eq_some_iff.2 h]
  | ofTemplate hc h =>
    simp [baseMatch?, classMatch?_eq_none_iff.2 hc, firstSpelling?_eq_some_iff.2 h]
  | deadEnd hc h => simp [baseMatch?, classMatch?_eq_none_iff.2 hc, firstSpelling?_eq_none_iff.2 h]
  | own hc h => simp [baseMatch?, classMatch?_eq_none_iff.2 hc, firstSpelling?_eq_some_iff.2 h]
  | ownless hc h => simp [baseMatch?, classMatch?_eq_none_iff.2 hc, firstSpelling?_eq_none_iff.2 h]
  | nameless => rfl

theorem baseMatch_specialization (x : String) (as : List TypeTerm) (c d : Option String) :
    BaseMatch lookup? render (specialization x as c d)
      (baseMatch? lookup? render (specialization x as c d)) := by
  simp only [baseMatch?]
  cases hc : classMatch? lookup? render c with
  | some b =>
    obtain ⟨name, rfl, hb⟩ := Option.bind_eq_some_iff.1 hc
    obtain ⟨id, hf, rfl⟩ := Option.map_eq_some_iff.1 hb
    rw [Option.some_or]
    exact .ofClass (firstSpelling?_eq_some_iff.1 hf)
  | none =>
    have hnc := classMatch?_eq_none_iff.1 hc
    rw [Option.none_or]
    cases d with
    | some d =>
      rw [Option.elim_some]
      cases hf : firstSpelling? lookup? render (named d) with
      | some id => exact .ofTemplate hnc (firstSpelling?_eq_some_iff.1 hf)
      | none => exact .deadEnd hnc (firstSpelling?_eq_none_iff.1 hf)
    | none =>
      rw [Option.elim_none]
      cases hf : firstSpelling? lookup? render (specialization x as c none) with
      | some id => exact .own hnc (firstSpelling?_eq_some_iff.1 hf)
      | none => exact .ownless hnc (firstSpelling?_eq_none_iff.1 hf)

/-- The spellings determine exactly one answer. -/
theorem firstMatch_iff {t : TypeTerm} {a : Option (EntryId × TypeTerm)} :
    FirstMatch lookup? render t a ↔ firstMatch? lookup? render t = a := by
  unfold firstMatch?
  constructor
  · intro h
    cases h with
    | layer h =>
      have hl := firstHit?_eq_some_iff.2 ⟨_, _, h⟩
      rw [hl, Option.some_or]
    | base hn h =>
      have hl := firstHit?_eq_none_iff.2 hn
      rw [hl, Option.none_or, baseMatch?_of_baseMatch h]
  · rintro rfl
    cases hl : firstHit? lookup? render (tower t) with
    | some b =>
      obtain ⟨i, j, h⟩ := firstHit?_eq_some_iff.1 hl
      exact .layer h
    | none =>
      rw [Option.none_or]
      refine .base (firstHit?_eq_none_iff.1 hl) ?_
      rcases base_cases t with ⟨x, hb⟩ | ⟨x, as, c, d, hb⟩
      · rw [hb]
        exact .nameless
      · rw [hb]
        exact baseMatch_specialization x as c d

/-! ## The first match, constructor by constructor -/

theorem firstMatch?_named (x : String) : firstMatch? lookup? render (named x) =
    (firstSpelling? lookup? render (named x)).map (·, named x) := by
  simp [firstMatch?, firstHit?, baseMatch?, tower, base, frontEnd]

/-- The names of a layer come before all that lies below it. -/
theorem firstHit?_cons {t : TypeTerm} (ht : frontEnd.isSpecialization t = false) (ts : List TypeTerm) :
    firstHit? lookup? render (t :: ts) =
      ((firstSpelling? lookup? render t).map (·, t)).or (firstHit? lookup? render ts) := by
  rw [firstHit?, List.findSome?_cons, ht]
  cases firstSpelling? lookup? render t <;> simp [firstHit?]

theorem firstMatch?_typedef (x : String) (t : TypeTerm) : firstMatch? lookup? render (typedef x t) =
    ((firstSpelling? lookup? render (typedef x t)).map (·, typedef x t)).or
      (firstMatch? lookup? render t) := by
  rw [firstMatch?, tower, firstHit?_cons rfl, Option.or_assoc, base, firstMatch?]

theorem firstMatch?_pointer (t : TypeTerm) : firstMatch? lookup? render (pointer t) =
    ((firstSpelling? lookup? render (pointer t)).map (·, pointer t)).or
      (firstMatch? lookup? render t) := by
  rw [firstMatch?, tower, firstHit?_cons rfl, Option.or_assoc, base, firstMatch?]

theorem firstMatch?_specialization (x : String) (as : List TypeTerm) (c d : Option String) :
    firstMatch? lookup? render (specialization x as c d) =
      baseMatch? lookup? render (specialization x as c d) := by
  simp [firstMatch?, firstHit?, tower, base, frontEnd]

/-! ## Walks without a memo -/

section
variable {o : Outlook TypeTerm} {start t : TypeTerm}

theorem exists_walks_untried (ho : ∀ k, o.consult k = .absent) {a : Option (EntryId × TypeTerm)}
    (h : ∃ w, o.Walks (language render) .unsettled start t w ∧ w.answer = a) :
    ∃ w, o.Walks (language render) .untried start t w ∧ w.answer = a := by
  obtain ⟨w, hw, rfl⟩ := h
  exact ⟨_, .unsettled (by rw [ho]; rfl) hw, rfl⟩

theorem exists_walks_own (ht : (language render).templateTag? t = none)
    (hu : (language render).unwrap? t = none) :
    ∃ w, o.Walks (language render) .classless start t w ∧
      w.answer = (firstSpelling? o.lookup? render t).map (·, t) := by
  obtain ⟨w, hw, ha⟩ := Outlook.exists_walks_leaf (o := o) ht hu start
  rw [Outlook.search_snd] at ha
  exact ⟨w, hw, ha⟩

/-- A layer goes by its own names, and without one by what lies below it. -/
theorem exists_walks_layer {m : TypeTerm} {layer : Layer} {a : Option (EntryId × TypeTerm)}
    (ht : (language render).templateTag? t = none)
    (hu : (language render).unwrap? t = some (layer, m))
    (hm : ∃ w, o.Walks (language render) .untried start m w ∧ w.answer = a) :
    ∃ w, o.Walks (language render) .classless start t w ∧
      w.answer = ((firstSpelling? o.lookup? render t).map (·, t)).or a := by
  have hs := o.search_snd (language render) t Presentation.searchOrder
  cases hf : firstSpelling? o.lookup? render t with
  | some id => exact ⟨_, .spelled ht (hs.trans hf), rfl⟩
  | none =>
    obtain ⟨w, hw, rfl⟩ := hm
    exact ⟨_, .unwrapped ht (hs.trans hf) hu hw, rfl⟩

theorem unwrap?_named (x : String) : (language render).unwrap? (named x) = none := by
  simp [FrontEnd.unwrap?, language, frontEnd, stripSugar, pointee?]

theorem unwrap?_typedef (x : String) (t : TypeTerm) :
    (language render).unwrap? (typedef x t) = some (.sugar, t) :=
  if_pos fun h => absurd (congrArg sizeOf h) (by simp [language, frontEnd, stripSugar])

theorem unwrap?_pointer (t : TypeTerm) :
    (language render).unwrap? (pointer t) = some (.indirection, t) := by
  simp [FrontEnd.unwrap?, language, frontEnd, stripSugar, pointee?]

theorem unwrap?_specialization (x : String) (as : List TypeTerm) (c d : Option String) :
    (language render).unwrap? (specialization x as c d) = none := by
  simp [FrontEnd.unwrap?, language, frontEnd, stripSugar, pointee?]

theorem exists_walks_named (ho : ∀ k, o.consult k = .absent) (render : Renderer TypeTerm)
    (start : TypeTerm) (x : String) :
    ∃ w, o.Walks (language render) .untried start (named x) w ∧
      w.answer = (firstSpelling? o.lookup? render (named x)).map (·, named x) := by
  obtain ⟨w, hw, ha⟩ := exists_walks_own (t := named x) rfl (unwrap?_named x)
  exact exists_walks_untried ho ⟨w, .classless rfl hw, ha⟩

theorem exists_walks_specialization (ho : ∀ k, o.consult k = .absent) (x : String) (as : List TypeTerm)
    (c d : Option String) :
    ∃ w, o.Walks (language render) .untried start (specialization x as c d) w ∧
      w.answer = baseMatch? o.lookup? render (specialization x as c d) := by
  have hscan : ∃ w, o.Walks (language render) .classless start (specialization x as c d) w ∧ w.answer =
      (firstSpelling? o.lookup? render (d.elim (specialization x as c d) named)).map
        (·, specialization x as c d) := by
    cases d with
    | none => exact exists_walks_own rfl (unwrap?_specialization x as c none)
    | some d =>
      obtain ⟨w, hw, ha⟩ := exists_walks_named ho render (named d) d
      exact ⟨_, .ofTemplate rfl hw, by simp [ha, Function.comp_def]⟩
  obtain ⟨w, hw, ha⟩ := hscan
  refine exists_walks_untried ho ?_
  cases c with
  | none => exact ⟨w, .classless rfl hw, ha⟩
  | some c =>
    obtain ⟨v, hv, hva⟩ := exists_walks_named ho render (named c) c
    cases hf : firstSpelling? o.lookup? render (named c) with
    | some id =>
      rw [hf] at hva
      exact ⟨v, .ofClass rfl hv (by simp [hva]), by simp [hva, baseMatch?, classMatch?, hf]⟩
    | none =>
      rw [hf] at hva
      exact ⟨_, .classFailed rfl hv hva hw, by simp [ha, baseMatch?, classMatch?, hf]⟩

theorem exists_walks_firstMatch? (ho : ∀ k, o.consult k = .absent) (render : Renderer TypeTerm)
    (start : TypeTerm) :
    ∀ t, ∃ w, o.Walks (language render) .untried start t w ∧
      w.answer = firstMatch? o.lookup? render t
  | named x => by
    rw [firstMatch?_named]
    exact exists_walks_named ho render start x
  | typedef x t => by
    rw [firstMatch?_typedef]
    obtain ⟨w, hw, ha⟩ := exists_walks_layer (t := typedef x t) rfl (unwrap?_typedef x t)
      (exists_walks_firstMatch? ho render start t)
    exact exists_walks_untried ho ⟨w, .classless rfl hw, ha⟩
  | pointer t => by
    rw [firstMatch?_pointer]
    obtain ⟨w, hw, ha⟩ := exists_walks_layer (t := pointer t) rfl (unwrap?_pointer t)
      (exists_walks_firstMatch? ho render start t)
    exact exists_walks_untried ho ⟨w, .classless rfl hw, ha⟩
  | specialization x as c d => by
    rw [firstMatch?_specialization]
    exact exists_walks_specialization ho x as c d

end

/-! ## Main statement -/

/-- **Resolutions without a memo answer the first match.** There is exactly one, and the resolution of a
type in a session with an empty memo comes to it. -/
theorem resolve?_forget_firstMatch (s : Session TypeTerm TypeTerm) (render : Renderer TypeTerm)
    (t : TypeTerm) : ∃ r, s.forget.resolve? (language render) t = some r ∧
      ∀ a, FirstMatch s.registry.lookup? render t a ↔ r.answer = a := by
  obtain ⟨w, hw, ha⟩ := exists_walks_firstMatch? (o := s.forget.outlook) (fun _ => rfl) render t t
  refine ⟨_, Session.resolve?_of_walks hw, fun a => ?_⟩
  rw [firstMatch_iff]
  exact ⟨fun h => ha.trans h, fun h => ha.symm.trans h⟩

end TypeMapping.TypeTerm
