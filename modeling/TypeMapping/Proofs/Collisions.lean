import Mathlib.Data.List.Chain
import TypeMapping.Proofs.Slots
import TypeMapping.Proofs.Verdicts
import TypeMapping.Report

/-!
# Collisions on record

The collisions that a registry has on record are an account of all claims to a taken name.

* `Registry.origin?`          : the origin of the handler that has a name;
* `Registration`              : a registration and the registry just before it;
* `Registration.collision?`   : the collision that it is to put on record;
* `Session.registrations`     : the registrations of a run, `Session.notices` what a run reports about them;
* `Registry.Registers`        : what a registration does, case by case;
* `Registry.Audited`          : the record is the account of the registrations;
* `Report.claims`             : the lines about claims to a taken name.

Main statements: `registers`, the cases are all there are; `Audited.register`, a registration keeps the account;
`claims_notices`, a run reports the collisions that it puts on record; `audited_run`, the record of a run.
-/

namespace TypeMapping

/-! ## Registrations -/

namespace Registry

/-- The origin of the handler that has the name. -/
def origin? (r : Registry) (name : String) : Option String := (r.holder? name).map Entry.origin

variable {r : Registry} {name : String}

theorem origin?_store (r : Registry) (e : Entry) (name : String) :
    (r.store e).origin? name = if e.name = name then some e.origin else r.origin? name := by
  rw [origin?, holder?_store]
  split <;> rfl

theorem origin?_store_entry (r : Registry) (d : Declaration) (o : Options) (name : String) :
    (r.store (d.entry o)).origin? name = if d.name = name then some d.origin else r.origin? name :=
  origin?_store ..

theorem origin?_setEnabled (r : Registry) (i : EntryId) (b : Bool) (name : String) :
    (r.setEnabled i b).origin? name = r.origin? name := by
  rw [origin?, origin?, holder?, holder?, get?_setEnabled]
  cases r.get? name with
  | none => rfl
  | some id =>
    rw [Option.bind_some, Option.bind_some, byId?_setEnabled]
    split
    · rw [Option.map_map]
      rfl
    · rfl

theorem isSome_origin? : (r.origin? name).isSome = (r.get? name).isSome := by
  rw [origin?, Option.isSome_map, holder?]
  cases h : r.get? name with
  | none => rfl
  | some id =>
    obtain ⟨e, he, -⟩ := exists_entry_of_get? h
    rw [Option.bind_some, he]
    rfl

end Registry

/-- A registration and the registry just before it. -/
structure Registration where
  before : Registry
  declaration : Declaration

namespace Registration

/-- The registry just after it. -/
def after (c : Registration) : Registry := c.before.register c.declaration

/-- Does the handler serve the target? -/
def isAdmitted (c : Registration) : Bool := c.declaration.filter.admits c.before.options.target

/-- The collision that it is to put on record, if the handler serves the target and the name is taken. -/
def collision? (c : Registration) : Option Collision :=
  if c.isAdmitted then
    (c.before.origin? c.declaration.name).map fun existing =>
      ⟨c.declaration.name, existing, c.declaration.origin, c.before.options.policy⟩
  else none

end Registration

/-- The registrations, made one after the other. -/
def Registry.registrations (r : Registry) : List Declaration → List Registration
  | [] => []
  | d :: ds => ⟨r, d⟩ :: (r.register d).registrations ds

theorem Registry.map_declaration_registrations (r : Registry) (ds : List Declaration) :
    (r.registrations ds).map Registration.declaration = ds := by
  induction ds generalizing r with
  | nil => rfl
  | cons d ds ih => exact congrArg (d :: ·) (ih (r.register d))

theorem Registry.registrations_append (r : Registry) (ds es : List Declaration) :
    r.registrations (ds ++ es) = r.registrations ds ++ (ds.foldl register r).registrations es := by
  induction ds generalizing r with
  | nil => rfl
  | cons d ds ih => exact congrArg (⟨r, d⟩ :: ·) (ih (r.register d))

section Run
variable {Node Decl Key : Type}

/-- What an action reports about its registrations. -/
def Action.notices (r : Registry) : Action Node → List Notice
  | .register d => r.notices d
  | .discover ps => (r.discover ps).notices
  | _ => []

variable [DecidableEq Key] (lang : Language Node Decl Key)

/-- The registrations of a run. -/
def Session.registrations (s : Session Node Key) : List (Action Node) → List Registration
  | [] => []
  | a :: as => s.registry.registrations a.declarations ++ (s.perform lang a).elim [] fun t => t.registrations as

/-- What a run reports about its registrations. -/
def Session.notices (s : Session Node Key) : List (Action Node) → List Notice
  | [] => []
  | a :: as => a.notices s.registry ++ (s.perform lang a).elim [] fun t => t.notices as

end Run

namespace Registry

/-! ## One registration -/

/-- What a registration does, with the collision that it is to put on record. -/
inductive Registers (r : Registry) (d : Declaration) : Registry → Option Collision → Prop
  | filtered (ha : d.filter.admits r.options.target = false) : Registers r d r none
  | added (ha : d.filter.admits r.options.target = true) (hn : r.origin? d.name = none) :
      Registers r d (r.store (d.entry r.options)) none
  | replaced {existing : String} (ha : d.filter.admits r.options.target = true)
      (hn : r.origin? d.name = some existing) (hp : r.options.policy = .lastWins) :
      Registers r d ((r.store (d.entry r.options)).record ⟨d.name, existing, d.origin, .lastWins⟩)
        (some ⟨d.name, existing, d.origin, .lastWins⟩)
  | refused {existing : String} (ha : d.filter.admits r.options.target = true)
      (hn : r.origin? d.name = some existing) (hp : r.options.policy = .reject) :
      Registers r d (r.record ⟨d.name, existing, d.origin, .reject⟩) (some ⟨d.name, existing, d.origin, .reject⟩)

/-- There is no other case. -/
theorem registers (r : Registry) (d : Declaration) :
    r.Registers d (r.register d) (Registration.mk r d).collision? := by
  unfold register Registration.collision? Registration.isAdmitted
  cases ha : d.filter.admits r.options.target with
  | false =>
    rw [verdict_of_not_admits ha]
    exact .filtered ha
  | true =>
    rw [if_pos rfl]
    cases hn : r.origin? d.name with
    | none =>
      rw [verdict_of_admits ha (Option.map_eq_none_iff.1 hn)]
      exact .added ha hn
    | some existing =>
      obtain ⟨e, he, rfl⟩ := Option.map_eq_some_iff.1 hn
      rw [verdict_of_holder? ha he]
      cases hp : r.options.policy with
      | lastWins => simpa [hp] using Registers.replaced ha hn hp
      | reject => simpa [hp] using Registers.refused ha hn hp

/-! ## The account -/

/-- The collisions on record about the name. -/
def collisionsOf (r : Registry) (name : String) : List Collision := r.collisions.filter (·.name = name)

/-- The record of collisions is the account of the registrations. -/
structure Audited (o : Options) (cs : List Registration) (r : Registry) : Prop where
  options : r.options = o
  /-- There is one collision for each registration of a taken name, and no other. -/
  collisions : r.collisions = cs.filterMap Registration.collision?
  /-- Every admitted registration made a name or a collision. -/
  size : r.collisions.length + r.size = cs.countP Registration.isAdmitted
  /-- The handler that a collision says was kept has the name just after the registration. -/
  kept : ∀ c ∈ cs, ∀ k, c.collision? = some k → ∃ origin, c.after.origin? k.name = some origin ∧
    k.message = "'" ++ k.name ++ "' claimed by " ++ k.existing ++ " and " ++ k.incoming ++ " (" ++ origin ++ " kept)"
  /-- Where the last handler wins, a collision begins with the handler that the one before ended with. -/
  chain : o.policy = .lastWins → ∀ name, (r.collisionsOf name).IsChain fun k l => l.existing = k.incoming
  last : o.policy = .lastWins → ∀ name k, (r.collisionsOf name).getLast? = some k → r.origin? name = some k.incoming
  /-- Where later handlers are refused, the name stays with the handler that had it. -/
  refused : o.policy = .reject → ∀ k ∈ r.collisions, r.origin? k.name = some k.existing

variable {r r' : Registry} {o : Options} {cs : List Registration} {d : Declaration} {k : Option Collision}

theorem audited_new (o : Options) : (new o).Audited o [] where
  options := rfl
  collisions := rfl
  size := rfl
  kept _ h := by cases h
  chain _ _ := .nil
  last _ _ _ h := by cases h
  refused _ _ h := by cases h

theorem Registers.kept (h : r.Registers d r' k) {c : Collision} (hc : k = some c) : r'.origin? c.name = some c.kept := by
  cases h with
  | filtered | added => cases hc
  | replaced =>
    obtain rfl := Option.some.inj hc
    exact (origin?_store_entry ..).trans (if_pos rfl)
  | refused _ hn =>
    obtain rfl := Option.some.inj hc
    exact hn

theorem Registers.collisions (h : r.Registers d r' k) : r'.collisions = r.collisions ++ k.toList := by
  cases h with
  | filtered | added => exact (List.append_nil _).symm
  | replaced | refused => rfl

theorem Registers.options (h : r.Registers d r' k) : r'.options = r.options := by
  cases h <;> rfl

/-- An admitted registration makes a name or a collision. -/
theorem Registers.size (h : r.Registers d r' k) : k.toList.length + r'.size =
    r.size + [Registration.mk r d].countP Registration.isAdmitted := by
  cases h with
  | filtered ha => simp [Registration.isAdmitted, ha]
  | added ha hn =>
    have hnone : (r.get? d.name).isSome = false := by rw [← isSome_origin?, hn]; rfl
    rw [size_store, show (d.entry r.options).name = d.name from rfl, hnone]
    simp [Registration.isAdmitted, ha]
  | replaced ha hn =>
    have hsome : (r.get? d.name).isSome = true := by rw [← isSome_origin?, hn]; rfl
    show 1 + (r.store (d.entry r.options)).size = _
    rw [size_store, show (d.entry r.options).name = d.name from rfl, hsome]
    simp [Registration.isAdmitted, ha, Nat.add_comm]
  | refused ha hn =>
    show 1 + r.size = _
    simp [Registration.isAdmitted, ha, Nat.add_comm]

theorem Registers.collisionsOf (h : r.Registers d r' k) (name : String) :
    r'.collisionsOf name = r.collisionsOf name ++ k.toList.filter (·.name = name) := by
  rw [Registry.collisionsOf, h.collisions, List.filter_append]
  rfl

/-- Other names stay with their handlers. -/
theorem Registers.origin?_of_ne (h : r.Registers d r' k) {name : String} (hn : d.name ≠ name) :
    r'.origin? name = r.origin? name := by
  have hstore : (r.store (d.entry r.options)).origin? name = r.origin? name :=
    (origin?_store_entry ..).trans (if_neg hn)
  cases h with
  | filtered | refused => rfl
  | added | replaced => exact hstore

theorem Registers.collisionsOf_of_ne (h : r.Registers d r' k) {name : String} (hn : d.name ≠ name) :
    r'.collisionsOf name = r.collisionsOf name := by
  have hnone : k.toList.filter (·.name = name) = [] := by cases h <;> simp [hn]
  rw [h.collisionsOf, hnone, List.append_nil]

/-- Where the last handler wins, a registration adds a link to the chain of its name, if there is one. -/
theorem Registers.linked (h : r.Registers d r' k) (hp : r.options.policy = .lastWins) {name : String}
    (hc : (r.collisionsOf name).IsChain fun k l => l.existing = k.incoming)
    (hl : ∀ k, (r.collisionsOf name).getLast? = some k → r.origin? name = some k.incoming) :
    ((r'.collisionsOf name).IsChain fun k l => l.existing = k.incoming) ∧
      ∀ k, (r'.collisionsOf name).getLast? = some k → r'.origin? name = some k.incoming := by
  by_cases hname : d.name = name
  · subst hname
    cases h with
    | filtered => exact ⟨hc, hl⟩
    | added ha hn =>
      -- a name that is new has no chain
      have hnil : (r.store (d.entry r.options)).collisionsOf d.name = [] := by
        rw [← List.getLast?_eq_none_iff]
        refine Option.eq_none_iff_forall_ne_some.2 fun k hk => ?_
        rw [hl k hk] at hn
        cases hn
      rw [hnil]
      exact ⟨.nil, fun k hk => by cases hk⟩
    | @replaced existing ha hn =>
      let link : Collision := ⟨d.name, existing, d.origin, .lastWins⟩
      have hlink : ((r.store (d.entry r.options)).record link).collisionsOf d.name =
          r.collisionsOf d.name ++ [link] := by simpa [link] using (Registers.replaced ha hn hp).collisionsOf d.name
      rw [hlink]
      refine ⟨hc.append (.singleton _) fun k hk l hl' => ?_, fun k hk => ?_⟩
      · obtain rfl := Option.some.inj hl'
        exact Option.some.inj (hn.symm.trans (hl k hk))
      · rw [List.getLast?_concat] at hk
        obtain rfl := Option.some.inj hk
        exact (origin?_store_entry ..).trans (if_pos rfl)
    | refused _ _ hp' =>
      rw [hp] at hp'
      cases hp'
  · rw [h.collisionsOf_of_ne hname, h.origin?_of_ne hname]
    exact ⟨hc, hl⟩

/-- Where later handlers are refused, no name changes hands. -/
theorem Registers.origin?_of_reject (h : r.Registers d r' k) (hp : r.options.policy = .reject) {name origin : String}
    (hn : r.origin? name = some origin) : r'.origin? name = some origin := by
  by_cases hname : d.name = name
  · subst hname
    cases h with
    | filtered | refused => exact hn
    | added _ hn' =>
      rw [hn] at hn'
      cases hn'
    | replaced _ _ hp' =>
      rw [hp] at hp'
      cases hp'
  · rwa [h.origin?_of_ne hname]

theorem Registers.origin?_of_collision (h : r.Registers d r' k) {c : Collision} (hc : c ∈ k.toList) :
    r.origin? c.name = some c.existing := by
  cases h with
  | filtered | added => cases hc
  | replaced _ hn | refused _ hn =>
    obtain rfl := List.mem_singleton.1 hc
    exact hn

/-- A registration keeps the account. -/
theorem Audited.register (h : r.Audited o cs) (d : Declaration) : (r.register d).Audited o (cs ++ [⟨r, d⟩]) := by
  have hreg := r.registers d
  have hpolicy : r.options.policy = o.policy := congrArg Options.policy h.options
  refine ⟨hreg.options.trans h.options, ?_, ?_, fun c hc k hk => ?_, fun hp name => ?_, fun hp name => ?_,
    fun hp k hk => ?_⟩
  · rw [hreg.collisions, h.collisions, List.filterMap_append, List.filterMap_cons]
    cases (Registration.mk r d).collision? <;> rfl
  · rw [hreg.collisions, List.length_append, List.countP_append, ← h.size]
    have := hreg.size
    omega
  · rcases List.mem_append.1 hc with hc | hc
    · exact h.kept c hc k hk
    · obtain rfl := List.mem_singleton.1 hc
      exact ⟨_, hreg.kept hk, rfl⟩
  · exact (hreg.linked (hpolicy.trans hp) (h.chain hp name) (h.last hp name)).1
  · exact (hreg.linked (hpolicy.trans hp) (h.chain hp name) (h.last hp name)).2
  · refine hreg.origin?_of_reject (hpolicy.trans hp) ?_
    rw [hreg.collisions] at hk
    rcases List.mem_append.1 hk with hk | hk
    · exact h.refused hp k hk
    · exact hreg.origin?_of_collision hk

theorem Audited.foldl_register (h : r.Audited o cs) (ds : List Declaration) :
    (ds.foldl Registry.register r).Audited o (cs ++ r.registrations ds) := by
  induction ds generalizing r cs with
  | nil => simpa [registrations] using h
  | cons d ds ih => simpa [registrations] using ih (h.register d)

theorem Audited.setEnabled (h : r.Audited o cs) (i : EntryId) (b : Bool) : (r.setEnabled i b).Audited o cs :=
  { h with
    last := fun hp name k hk => (origin?_setEnabled ..).trans (h.last hp name k hk)
    refused := fun hp k hk => (origin?_setEnabled ..).trans (h.refused hp k hk) }

end Registry

/-! ## Lines about collisions -/

/-- The line about a collision. -/
def Collision.line (c : Collision) : Report.Line :=
  let fields := [("name", .text c.name), ("existing", .text c.existing), ("incoming", .text c.incoming)]
  match c.policy with
  | .lastWins => ⟨.warning, "type map registered twice; later registration wins", fields⟩
  | .reject => ⟨.error, "ambiguous type map registration rejected", fields⟩

/-- Is the line about a claim to a taken name? -/
def Report.Line.isClaim (l : Report.Line) : Bool :=
  l.message == "type map registered twice; later registration wins" ||
    l.message == "ambiguous type map registration rejected"

/-- The lines about claims to taken names. -/
def Report.claims (ns : List Notice) : List Report.Line := (ns.map Notice.line).filter Line.isClaim

/-- The lines about the collisions that registrations are to put on record. -/
def Registration.claims (cs : List Registration) : List Report.Line :=
  (cs.filterMap collision?).map Collision.line

namespace Report

theorem claims_append (ns ms : List Notice) : claims (ns ++ ms) = claims ns ++ claims ms := by
  simp [claims]

theorem claims_notices (r : Registry) (d : Declaration) : claims (r.notices d) = Registration.claims [⟨r, d⟩] := by
  unfold Registry.notices Registration.claims
  rw [List.filterMap_cons, Registration.collision?, Registration.isAdmitted]
  cases ha : d.filter.admits r.options.target with
  | false =>
    rw [Registry.verdict_of_not_admits ha]
    rfl
  | true =>
    rw [if_pos rfl, Registry.origin?]
    cases hn : r.holder? d.name with
    | none =>
      rw [Registry.verdict_of_admits ha hn]
      rfl
    | some e =>
      rw [Registry.verdict_of_holder? ha hn]
      cases hp : r.options.policy with
      | lastWins => simp [Collision.line, claims, Notice.line, Line.isClaim]
      | reject => simp [Collision.line, claims, Notice.line, Line.isClaim]

end Report

namespace Registration

theorem claims_append (cs es : List Registration) : claims (cs ++ es) = claims cs ++ claims es := by
  simp [claims]

theorem claims_foldl_register (ds : List Declaration) (s : Discovery) :
    Report.claims (ds.foldl Discovery.register s).notices =
      Report.claims s.notices ++ claims (s.registry.registrations ds) := by
  induction ds generalizing s with
  | nil => simp [claims, Registry.registrations]
  | cons d ds ih =>
    have hcons : claims (s.registry.registrations (d :: ds)) =
        claims [⟨s.registry, d⟩] ++ claims ((s.registry.register d).registrations ds) := claims_append [_] _
    rw [List.foldl_cons, ih, hcons, ← Report.claims_notices, ← List.append_assoc, ← Report.claims_append]
    rfl

theorem claims_visit (s : Discovery) (p : Provider) : Report.claims (s.visit p).notices =
    Report.claims s.notices ++ claims (s.registry.registrations p.offers) := by
  unfold Discovery.visit Provider.offers
  cases p.declarations with
  | error failure =>
    show Report.claims (s.notices ++ _) = _
    rw [Report.claims_append]
    rfl
  | ok ds => exact claims_foldl_register ..

theorem claims_foldl_visit (ps : List Provider) (s : Discovery) :
    Report.claims (ps.foldl Discovery.visit s).notices =
      Report.claims s.notices ++ claims (s.registry.registrations (ps.flatMap Provider.offers)) := by
  induction ps generalizing s with
  | nil => simp [claims, Registry.registrations]
  | cons p ps ih =>
    rw [List.foldl_cons, ih, claims_visit, Discovery.registry_visit, List.flatMap_cons, Registry.registrations_append,
      claims_append, List.append_assoc]

/-- An action reports the collisions that its registrations are to put on record. -/
theorem claims_action {Node : Type} (r : Registry) (a : Action Node) :
    Report.claims (a.notices r) = claims (r.registrations a.declarations) := by
  cases a with
  | register d => exact Report.claims_notices r d
  | discover ps =>
    show Report.claims ((ps.foldl Discovery.visit _).notices ++ [_]) = _
    rw [Report.claims_append, claims_foldl_visit]
    exact List.append_nil _
  | setEnabled | forget | resolve => rfl

end Registration

/-! ## Runs -/

namespace Session

variable {Node Decl Key : Type} [DecidableEq Key] {lang : Language Node Decl Key} {s t : Session Node Key}
  {o : Options} {cs : List Registration}

theorem audited_perform {a : Action Node} (h : s.registry.Audited o cs) (ha : s.perform lang a = some t) :
    t.registry.Audited o (cs ++ s.registry.registrations a.declarations) := by
  rcases registry_perform_cases ha with ⟨-, hr⟩ | ⟨i, b, rfl, hr⟩
  · rw [hr]
    exact h.foldl_register _
  · rw [hr]
    simpa [Action.declarations, Registry.registrations] using h.setEnabled i b

/-- A run keeps the account of its registrations. -/
theorem audited_of_run {as : List (Action Node)} (h : s.registry.Audited o cs) (ht : s.run lang as = some t) :
    t.registry.Audited o (cs ++ s.registrations lang as) := by
  induction as generalizing s cs with
  | nil => simpa [registrations] using Option.some.inj ht ▸ h
  | cons a as ih =>
    obtain ⟨u, hu, ht⟩ := run_cons ht
    have hrest := ih (audited_perform h hu) ht
    rwa [List.append_assoc, show s.registry.registrations a.declarations ++ u.registrations lang as =
      s.registrations lang (a :: as) by rw [registrations, hu]; rfl] at hrest

/-- The registrations of a run are of its declarations, in their order. -/
theorem map_declaration_registrations {as : List (Action Node)} (ht : s.run lang as = some t) :
    (s.registrations lang as).map Registration.declaration = as.flatMap Action.declarations := by
  induction as generalizing s with
  | nil => rfl
  | cons a as ih =>
    obtain ⟨u, hu, ht⟩ := run_cons ht
    rw [registrations, hu, List.map_append, Registry.map_declaration_registrations, List.flatMap_cons, ← ih ht]
    rfl

/-- A run reports the collisions that its registrations are to put on record. -/
theorem claims_notices (s : Session Node Key) (as : List (Action Node)) :
    Report.claims (s.notices lang as) = Registration.claims (s.registrations lang as) := by
  induction as generalizing s with
  | nil => rfl
  | cons a as ih =>
    rw [notices, registrations, Report.claims_append, Registration.claims_append, Registration.claims_action]
    cases s.perform lang a with
    | none => rfl
    | some u => exact congrArg _ (ih u)

/-- **The record of collisions is a faithful account.** After any run there is one collision on record for each
registration of a taken name that serves the target, in their order; each tells who had the name before and who has it
afterwards, and the warnings and errors about registrations tell the same. -/
theorem audited_run {as : List (Action Node)} (hs : (Session.new (.new o)).run lang as = some s) :
    ((Session.new (.new o)).registrations lang as).map Registration.declaration = as.flatMap Action.declarations ∧
      s.registry.Audited o ((Session.new (.new o)).registrations lang as) ∧
      Report.claims ((Session.new (.new o)).notices lang as) = s.registry.collisions.map Collision.line := by
  have haudited := audited_of_run (Registry.audited_new o) hs
  rw [List.nil_append] at haudited
  refine ⟨map_declaration_registrations hs, haudited, ?_⟩
  rw [claims_notices, haudited.collisions]
  rfl

/-- The name `V` is taken over twice, by way of a discovery that takes over `W` in between; a handler for another target
leaves no trace. -/
theorem audited_run_of_interleaved :
    ∃ s, (Session.new (.new {})).run TypeTerm.plain [.register { name := "V", origin := "a" }, .resolve (.named "V"),
        .register { name := "W", origin := "b" }, .register { name := "V", origin := "b", filter := .only .cpp },
        .discover [.ofList "c" [{ name := "V", origin := "" }, { name := "W", origin := "" }]], .setEnabled 0 false,
        .register { name := "V", origin := "d" }] = some s ∧
      s.registry.collisions = [⟨"V", "a", "c", .lastWins⟩, ⟨"W", "b", "c", .lastWins⟩, ⟨"V", "c", "d", .lastWins⟩] ∧
      (s.registry.collisionsOf "V").IsChain (fun k l => l.existing = k.incoming) ∧
      s.registry.origin? "V" = some "d" ∧ s.registry.size = 2 ∧
      ((Session.new (.new {})).registrations TypeTerm.plain [.register { name := "V", origin := "a" },
        .resolve (.named "V"), .register { name := "W", origin := "b" },
        .register { name := "V", origin := "b", filter := .only .cpp },
        .discover [.ofList "c" [{ name := "V", origin := "" }, { name := "W", origin := "" }]], .setEnabled 0 false,
        .register { name := "V", origin := "d" }]).countP Registration.isAdmitted = 5 := by
  have hs : (Session.new (.new {})).run TypeTerm.plain [.register { name := "V", origin := "a" }, .resolve (.named "V"),
      .register { name := "W", origin := "b" }, .register { name := "V", origin := "b", filter := .only .cpp },
      .discover [.ofList "c" [{ name := "V", origin := "" }, { name := "W", origin := "" }]], .setEnabled 0 false,
      .register { name := "V", origin := "d" }] = some _ := run_resolve (walks_sample _) _
  obtain ⟨-, haudited, -⟩ := audited_run hs
  exact ⟨_, hs, rfl, haudited.chain rfl "V", haudited.last rfl "V" ⟨"V", "c", "d", .lastWins⟩ rfl, rfl,
    haudited.size.symm⟩

end Session

end TypeMapping
