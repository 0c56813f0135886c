import SafetyCrit.Monitors.Health
import SafetyCrit.Supervisor.Degradation
import SafetyCrit.Supervisor.Promotion

/-!
Owns what the supervisor announces about exhausted rings: which `ring_degraded`
events a run has emitted, and when a crash without a standby adds one.

The source keys the announced-once latch by physical worker. The ledger relates
it to the rings: a ring at home is announced exactly when the latch of its owner
is set, a ring at the standby when the standby's latch was set for it and not for
the standby's own ring.
-/

namespace SafetyCrit.Supervisor.MainLoop

open SafetyCrit.Library.Run
open SafetyCrit.Monitors (hasFlag)
open SafetyCrit.SharedMemory
open SafetyCrit.SharedMemory.RegionMachine (currentToken tokens_apply tokens_start tokens_finish)

/-! ### The ledger -/

/-- What the announced rings say, with the physical owner of every ring and the
latch of every physical worker. -/
structure Ledger (owner : Nat → Nat) (degradedRings : Nat → Bool) (announced : List Nat) :
    Prop where
  home : ∀ ring, ring < kStandbyPhysical → owner ring ≠ kStandbyPhysical →
    announced.count ring = if degradedRings ring = true then 1 else 0
  moved : ∀ ring, ring < kStandbyPhysical → owner ring = kStandbyPhysical →
    announced.count ring =
      if degradedRings kStandbyPhysical = true ∧ kStandbyPhysical ∉ announced then 1 else 0
  last : announced.count kStandbyPhysical ≤ 1
  latched : kStandbyPhysical ∈ announced → degradedRings kStandbyPhysical = true
  idle : degradedRings kStandbyPhysical = true →
    (∀ ring, ring < kStandbyPhysical → owner ring ≠ kStandbyPhysical) →
    kStandbyPhysical ∈ announced
  rings : ∀ ring ∈ announced, ring ≤ kStandbyPhysical

section Ledger

variable {owner : Nat → Nat} {degradedRings : Nat → Bool} {announced : List Nat}

theorem ledger_empty (owner : Nat → Nat) : Ledger owner (fun _ => false) [] where
  home := fun _ _ _ => rfl
  moved := fun _ _ _ => rfl
  last := Nat.zero_le _
  latched := fun impossible => nomatch impossible
  idle := fun impossible => nomatch impossible
  rings := fun _ impossible => nomatch impossible

/-- No ring is announced twice. -/
theorem Ledger.once (ledger : Ledger owner degradedRings announced) (ring : Nat) :
    announced.count ring ≤ 1 := by
  rcases Nat.lt_trichotomy ring kStandbyPhysical with hot | rfl | above
  · by_cases moved : owner ring = kStandbyPhysical
    · rw [ledger.moved ring hot moved]
      split <;> omega
    · rw [ledger.home ring hot moved]
      split <;> omega
  · exact ledger.last
  · have absent : ring ∉ announced := fun member =>
      absurd (ledger.rings ring member) (Nat.not_le.mpr above)
    rw [List.count_eq_zero.mpr absent]
    exact Nat.zero_le _

/-- A hot ring is announced exactly when the latch of its owner was set for it. -/
theorem Ledger.listed_iff (ledger : Ledger owner degradedRings announced) {ring : Nat}
    (hot : ring < kStandbyPhysical) (home : owner ring = ring ∨ owner ring = kStandbyPhysical) :
    ring ∈ announced ↔ degradedRings (owner ring) = true ∧
      (owner ring = kStandbyPhysical → kStandbyPhysical ∉ announced) := by
  rw [← List.count_pos_iff]
  rcases home with home | moved
  · have different : ring ≠ kStandbyPhysical := Nat.ne_of_lt hot
    rw [ledger.home ring hot (by rw [home]; exact different), home]
    split
    · next set => exact iff_of_true Nat.one_pos ⟨set, fun same => absurd same different⟩
    · next unset => exact iff_of_false (Nat.lt_irrefl 0) fun both => unset both.1
  · rw [ledger.moved ring hot moved, moved]
    split
    · next set => exact iff_of_true Nat.one_pos ⟨set.1, fun _ => set.2⟩
    · next unset => exact iff_of_false (Nat.lt_irrefl 0) fun both => unset ⟨both.1, both.2 rfl⟩

/-- The first ring goes to the standby, before the latch of its owner was set. -/
theorem Ledger.promote (ledger : Ledger owner degradedRings announced) {ring : Nat}
    (hot : ring < kStandbyPhysical) (free : ∀ other, other < kStandbyPhysical →
      owner other ≠ kStandbyPhysical) (unset : degradedRings ring = false) :
    Ledger (Function.update owner ring kStandbyPhysical) degradedRings announced where
  home := by
    intro other below elsewhere
    have different : other ≠ ring := by
      rintro rfl
      exact elsewhere (Function.update_self ..)
    exact ledger.home other below (free other below)
  moved := by
    intro other below there
    have same : other = ring := by
      by_contra different
      rw [Function.update_of_ne different] at there
      exact free other below there
    subst same
    rw [ledger.home other below (free other below), unset, if_neg (by decide), if_neg]
    rintro ⟨set, absent⟩
    exact absent (ledger.idle set free)
  last := ledger.last
  latched := ledger.latched
  idle := fun _ none' => absurd (Function.update_self ..) (none' ring hot)
  rings := ledger.rings

theorem count_append_of_ne {other ring : Nat} (different : other ≠ ring) :
    (announced ++ [ring]).count other = announced.count other := by
  rw [List.count_append, List.count_singleton, beq_eq_false_iff_ne.mpr different.symm]
  rfl

/-- A ring at home is announced. -/
theorem Ledger.degrade_home (ledger : Ledger owner degradedRings announced) {ring : Nat}
    (hot : ring < kStandbyPhysical) (home : owner ring ≠ kStandbyPhysical)
    (unset : degradedRings ring = false) :
    Ledger owner (Function.update degradedRings ring true) (announced ++ [ring]) := by
  have standby : kStandbyPhysical ≠ ring := Nat.ne_of_gt hot
  have kept : Function.update degradedRings ring true kStandbyPhysical =
      degradedRings kStandbyPhysical := Function.update_of_ne standby ..
  have member : kStandbyPhysical ∈ announced ++ [ring] ↔ kStandbyPhysical ∈ announced := by
    rw [List.mem_append, List.mem_singleton, or_iff_left standby]
  refine ⟨fun other below elsewhere => ?_, fun other below there => ?_, ?_, ?_, ?_, ?_⟩
  · by_cases same : other = ring
    · subst same
      rw [Function.update_self, List.count_append, List.count_singleton_self,
        ledger.home other below elsewhere, unset]
      rfl
    · rw [Function.update_of_ne same, count_append_of_ne same]
      exact ledger.home other below elsewhere
  · have different : other ≠ ring := by
      rintro rfl
      exact home there
    simp only [count_append_of_ne different, kept, member]
    exact ledger.moved other below there
  · rw [count_append_of_ne standby]
    exact ledger.last
  · rw [member, kept]
    exact ledger.latched
  · rw [member, kept]
    exact ledger.idle
  · intro other listed
    rcases List.mem_append.mp listed with old | new
    · exact ledger.rings other old
    · exact (List.mem_singleton.mp new).le.trans hot.le

/-- The ring the standby owns is announced: the one that was moved to it, or
its own. -/
theorem Ledger.degrade_standby (ledger : Ledger owner degradedRings announced) {ring : Nat}
    (below : ring ≤ kStandbyPhysical) (there : owner ring = kStandbyPhysical)
    (only : ∀ other, other < kStandbyPhysical → owner other = kStandbyPhysical → other = ring)
    (unset : degradedRings kStandbyPhysical = false) :
    Ledger owner (Function.update degradedRings kStandbyPhysical true) (announced ++ [ring]) := by
  have absent : kStandbyPhysical ∉ announced := by
    intro listed
    have set := ledger.latched listed
    rw [unset] at set
    cases set
  refine ⟨fun other hot elsewhere => ?_, fun other hot moved => ?_, ?_, fun _ => ?_, ?_, ?_⟩
  · have different : other ≠ ring := by
      rintro rfl
      exact elsewhere there
    rw [Function.update_of_ne (Nat.ne_of_lt hot), count_append_of_ne different]
    exact ledger.home other hot elsewhere
  · obtain rfl := only other hot moved
    have away : kStandbyPhysical ≠ other := Nat.ne_of_gt hot
    have still : kStandbyPhysical ∉ announced ++ [other] := by
      rw [List.mem_append, List.mem_singleton]
      exact not_or.mpr ⟨absent, away⟩
    rw [if_pos ⟨Function.update_self .., still⟩, List.count_append, List.count_singleton_self,
      ledger.moved other hot moved, if_neg (fun both => absurd both.1 (by simp [unset]))]
  · rw [List.count_append, List.count_eq_zero.mpr absent, List.count_singleton]
    split <;> decide
  · exact Function.update_self ..
  · intro _ free
    have last : ring = kStandbyPhysical := by
      by_contra other
      exact free ring (Nat.lt_of_le_of_ne below other) there
    rw [last]
    exact List.mem_append_right _ (List.mem_singleton.mpr rfl)
  · intro other listed
    rcases List.mem_append.mp listed with old | new
    · exact ledger.rings other old
    · exact (List.mem_singleton.mp new).le.trans below

end Ledger

/-! ### What a step does to the latches -/

/-- The physical owner of every ring. -/
def State.owner (state : State) : Nat → Nat :=
  (fun token : OwnershipToken => token.physicalOwner.toNat) ∘ currentToken state.machine.log

/-- Tokens change in the supervisor's transfer only, not between its calls. -/
theorem tokens_supervise (state : State) (input : Input) :
    currentToken (state.supervise input).machine.log = currentToken state.machine.log := by
  cases supervise_cases state input with
  | kept kept => rw [kept.log]
  | retired index child status reaps after =>
      rw [after]
      rfl
  | crashed index child crash =>
      rw [supervise_crash crash]
      cases state.crashPlan index child with
      | transfer args => exact tokens_start ..
      | fail => rfl
      | degrade logical => rfl
      | restart => rfl
  | promoted index physicalWorker at' =>
      simp only [State.supervise, at', State.promote]
      split
      · exact tokens_finish ..
      · exact tokens_finish ..
      · rfl
  | restarted index physicalWorker at' =>
      simp only [State.supervise, at', State.restart]
      split <;> rfl

theorem owner_supervise (state : State) (input : Input) :
    (state.supervise input).owner = state.owner := by
  rw [State.owner, tokens_supervise]
  rfl

theorem restart_announced (roster : Roster) (fork : Int) (physicalWorker : Nat) :
    (roster.restart fork physicalWorker).1.announced = roster.announced := by
  simp only [Roster.restart]
  split <;> rfl

theorem servers_restart {other physicalWorker : Nat} (different : other ≠ physicalWorker)
    (roster : Roster) (fork : Int) :
    servers (roster.restart fork physicalWorker).1.children other =
      servers roster.children other := by
  simp only [Roster.restart]
  split
  · rfl
  · have away : (⟨fork, physicalWorker, true, false⟩ : Child).serves other = false := by
      simp [Child.serves, different.symm]
    rw [servers_append, away, if_neg Bool.false_ne_true, List.append_nil]

theorem restart_roster (state : State) (forked : Bool) (index physicalWorker : Nat) :
    ∃ fork, (state.restart forked index physicalWorker).loop.roster =
      (state.loop.roster.restart fork physicalWorker).1 := by
  refine ⟨if forked then (state.nextPid : Int) else -1, ?_⟩
  simp only [State.restart]
  split
  · next roster refused =>
    rw [refused]
    rfl
  · next roster succeeded =>
    rw [succeeded]
    rfl

/-- What a step of the supervisor does to its latches and announcements. -/
inductive Latches (before after : State) : Prop where
  | same (degradedRings : after.loop.roster.degradedRings = before.loop.roster.degradedRings)
      (announced : after.loop.roster.announced = before.loop.roster.announced)
  | degraded (index : Nat) (child : Child) (logical : Nat)
      (crash : before.crash = some (index, child))
      (plan : before.crashPlan index child = .degrade logical)
      (degradedRings : after.loop.roster.degradedRings =
        Function.update before.loop.roster.degradedRings child.physicalWorker true)
      (announced : after.loop.roster.announced = before.loop.roster.announced ++ [logical])

theorem latches_supervise (state : State) (input : Input) :
    Latches state (state.supervise input) := by
  cases supervise_cases state input with
  | kept kept => exact .same (by rw [kept.roster]) (by rw [kept.roster])
  | retired index child status reaps after =>
      rw [after]
      exact .same rfl rfl
  | crashed index child crash =>
      rw [supervise_crash crash]
      cases plan : state.crashPlan index child with
      | degrade logical => exact .degraded index child logical crash plan rfl rfl
      | fail => exact .same rfl rfl
      | transfer args => exact .same rfl rfl
      | restart => exact .same rfl rfl
  | promoted index physicalWorker at' =>
      simp only [State.supervise, at', State.promote]
      split <;> exact .same rfl rfl
  | restarted index physicalWorker at' =>
      obtain ⟨fork, kept⟩ := restart_roster state input.forked index physicalWorker
      simp only [State.supervise, at']
      refine .same ?_ ?_
      · rw [kept, restart_degradedRings]
      · rw [kept, restart_announced]

/-! ### The lost standby -/

/-- No promotion is left: the standby owns a ring, or has gone without a
replacement. -/
def Spent (state : State) : Prop :=
  (∃ ring, ring < kStandbyPhysical ∧ state.owner ring = kStandbyPhysical) ∨
    servers state.loop.roster.children kStandbyPhysical = [] ∧
      state.loop.pc.recovering ≠ some kStandbyPhysical

theorem Spent.supervise {state : State} (spent : Spent state) (staffing : Staffing state)
    (input : Input) : Spent (state.supervise input) := by
  rcases spent with busy | ⟨vacant, other⟩
  · left
    rw [owner_supervise]
    exact busy
  have away : ∀ {index child status}, Reaps state index child status →
      child.physicalWorker ≠ kStandbyPhysical := by
    intro index child status reaps same
    have serves : child ∈ servers state.loop.roster.children child.physicalWorker :=
      List.mem_filter.mpr ⟨List.mem_of_getElem? reaps.found, reaps.serves⟩
    rw [same, vacant] at serves
    cases serves
  right
  cases supervise_cases state input with
  | kept kept =>
      rw [kept.roster, kept.pc]
      exact ⟨vacant, by simp⟩
  | retired index child status reaps after =>
      rw [after]
      refine ⟨?_, by simp [State.goto, Pc.recovering]⟩
      change servers (state.loop.roster.children.set index child.dismissed) _ = []
      rw [servers_dismiss reaps.found reaps.serves (staffing.single _),
        if_neg (away reaps).symm]
      exact vacant
  | crashed index child crash =>
      obtain ⟨status, reaps, -⟩ := reaps_of_crash crash
      have none' : servers (state.crashRoster index child).children kStandbyPhysical = [] := by
        rw [crashRoster_children staffing reaps,
          servers_dismiss reaps.found reaps.serves (staffing.single _), if_neg (away reaps).symm]
        exact vacant
      have different : some child.physicalWorker ≠ some kStandbyPhysical := by
        simpa using away reaps
      rw [supervise_crash crash]
      cases state.crashPlan index child with
      | fail => exact ⟨none', by simp [State.proceed, State.failsafe, State.goto, Pc.recovering]⟩
      | transfer args => exact ⟨none', different⟩
      | degrade logical => exact ⟨none', different⟩
      | restart => exact ⟨none', different⟩
  | promoted index physicalWorker at' =>
      rw [at'] at other
      simp only [State.supervise, at', State.promote]
      split
      · exact ⟨vacant, by simp [State.failsafe, State.goto, Pc.recovering]⟩
      · exact ⟨vacant, other⟩
      · exact ⟨vacant, by rw [at']; exact other⟩
  | restarted index physicalWorker at' =>
      rw [at'] at other
      have different : physicalWorker ≠ kStandbyPhysical := by
        simpa [Pc.recovering] using other
      obtain ⟨fork, kept⟩ := restart_roster state input.forked index physicalWorker
      simp only [State.supervise, at']
      refine ⟨?_, ?_⟩
      · rw [kept, servers_restart different.symm]
        exact vacant
      · simp only [State.restart]
        split <;> simp [State.failsafe, State.goto, Pc.recovering]

/-! ### Which ring recovery looks at -/

section Owned

variable {region : SharedRegion} {tokens : Nat → OwnershipToken}

theorem owner_of_owned
    (reads : ∀ ring, ring < kMaxWorkers → readOwnership region ring = some (tokens ring))
    {physicalWorker logical : Nat} (owned : ownedLogicalRing region physicalWorker = some logical) :
    (tokens logical).physicalOwner.toNat = physicalWorker := by
  rw [ownedLogicalRing_tokens reads] at owned
  have named := List.find?_some owned
  exact of_decide_eq_true named

/-- Recovery finds the hot ring a worker owns before any other. -/
theorem owned_of_hot
    (reads : ∀ ring, ring < kMaxWorkers → readOwnership region ring = some (tokens ring))
    (assigned : Assigned tokens) {physicalWorker ring : Nat} (hot : ring < kStandbyPhysical)
    (owner : (tokens ring).physicalOwner.toNat = physicalWorker) :
    ownedLogicalRing region physicalWorker = some ring := by
  rw [ownedLogicalRing_tokens reads, List.find?_range_eq_some]
  refine ⟨decide_eq_true owner, List.mem_range.mpr (hot.trans (by decide)), fun other earlier => ?_⟩
  rw [Bool.not_eq_true', decide_eq_false_iff_not]
  intro also
  have below : other < kStandbyPhysical := earlier.trans hot
  rcases assigned.home ring hot with home | moved
  · rcases assigned.home other below with home' | moved'
    · omega
    · omega
  · exact Nat.ne_of_lt earlier
      (assigned.once other ring below hot (also.trans (owner.symm.trans moved)) moved)

end Owned

/-- What recovery's decision to degrade says. -/
theorem degrades_of_plan {region : SharedRegion} {roster : Roster} {physicalWorker logical : Nat}
    (plan : planRecovery region roster physicalWorker = .degrade logical) :
    ownedLogicalRing region physicalWorker = some logical ∧
      standbyReady region roster.children = false ∧
      roster.degradedRings physicalWorker = false := by
  rcases planRecovery_cases region roster physicalWorker with
    ⟨-, other⟩ | other | ⟨found, expected, owned, -, -, decided⟩
  · rw [other] at plan
    cases plan
  · rw [other] at plan
    cases plan
  · rw [decided] at plan
    split at plan
    · cases plan
    · next exhausted =>
      split at plan
      · cases plan
      · next unset =>
        cases plan
        exact ⟨owned, by simpa using exhausted, by simpa using unset⟩

/-- The crash of the owner of a hot ring is reaped, the ring is intact, and
`recover_worker_crash` finds no standby to promote. -/
structure Exhausts (state : State) (index : Nat) (child : Child) (ring : Nat) : Prop where
  crash : state.crash = some (index, child)
  hot : ring < kStandbyPhysical
  owner : (readOwnership state.machine.region ring).map (fun token => token.physicalOwner.toNat) =
    some child.physicalWorker
  intact : verifyWorkerRing state.machine.region ring = true
  exhausted : standbyReady state.machine.region (state.crashRoster index child).children = false

/-! ### The supervisor's books -/

/-- The ledger of a run. A ring at home is degraded only when no promotion is
left. -/
structure Books (state : State) : Prop where
  ledger : Ledger state.owner state.loop.roster.degradedRings state.loop.roster.announced
  spent : ∀ ring, ring < kStandbyPhysical → state.loop.roster.degradedRings ring = true →
    Spent state

section Books

variable {state : State} {index ring : Nat} {child : Child}

theorem Exhausts.owner_eq (exhausts : Exhausts state index child ring)
    (invariant : Invariant state) : state.owner ring = child.physicalWorker := by
  obtain ⟨status, reaps, -⟩ := reaps_of_crash exhausts.crash
  have owner := exhausts.owner
  rw [invariant.posts.reads_reaping reaps ring (exhausts.hot.trans (by decide))] at owner
  exact Option.some.inj owner

/-- What recovery decides when it finds no standby. -/
theorem Exhausts.plan (exhausts : Exhausts state index child ring) (invariant : Invariant state) :
    state.crashPlan index child =
      if state.loop.roster.degradedRings child.physicalWorker = true then .restart
      else .degrade ring := by
  obtain ⟨status, reaps, -⟩ := reaps_of_crash exhausts.crash
  have reads := invariant.posts.reads_reaping reaps
  have below : ring < kMaxWorkers := exhausts.hot.trans (by decide)
  have owner : (currentToken state.machine.log ring).physicalOwner.toNat = child.physicalWorker :=
    exhausts.owner_eq invariant
  have passed : ¬ ((currentToken state.machine.log ring).physicalOwner.toNat ≠
      child.physicalWorker ∨ verifyWorkerRing state.machine.region ring = false) := by
    rw [exhausts.intact]
    simp [owner]
  simp only [State.crashPlan, planRecovery,
    owned_of_hot reads invariant.posts.assigned exhausts.hot owner, reads ring below, if_neg passed,
    exhausts.exhausted, Bool.false_eq_true, if_false]
  rfl

/-- What is emitted then. -/
theorem Exhausts.announced (exhausts : Exhausts state index child ring)
    (invariant : Invariant state) (input : Input) :
    (state.supervise input).loop.roster.announced = state.loop.roster.announced ++
      if state.loop.roster.degradedRings child.physicalWorker = true then [] else [ring] := by
  rw [supervise_crash exhausts.crash, exhausts.plan invariant]
  split
  · exact (List.append_nil _).symm
  · rfl

theorem Books.same {before after : State} (books : Books before) (loop : after.loop = before.loop)
    (tokens : currentToken after.machine.log = currentToken before.machine.log) : Books after where
  ledger := by
    rw [loop, State.owner, tokens]
    exact books.ledger
  spent := by
    rw [loop]
    intro ring hot set
    unfold Spent State.owner
    rw [loop, tokens]
    exact books.spent ring hot set

/-- A worker whose ring cannot be promoted has no standby to hope for. -/
theorem spent_of_exhausted (invariant : Invariant state) (crash : state.crash = some (index, child))
    (other : child.physicalWorker ≠ kStandbyPhysical)
    (exhausted : standbyReady state.machine.region (state.crashRoster index child).children = false) :
    Spent state := by
  obtain ⟨status, reaps, -⟩ := reaps_of_crash crash
  have kept : servers (state.crashRoster index child).children kStandbyPhysical =
      servers state.loop.roster.children kStandbyPhysical := by
    rw [crashRoster_children invariant.staffing reaps, servers_dismiss reaps.found reaps.serves
      (invariant.staffing.single _), if_neg other.symm]
  rw [standbyReady, findWorker_eq_head?, kept] at exhausted
  cases listed : servers state.loop.roster.children kStandbyPhysical with
  | nil =>
      refine Or.inr ⟨listed, ?_⟩
      rw [reaps.pc]
      simp [Pc.recovering]
  | cons standby rest =>
      have positive : 0 < standby.pid :=
        (invariant.staffing.serving _ standby (by rw [listed]; exact List.mem_cons_self)).1
      rw [listed] at exhausted
      simp only [List.head?_cons, positive, decide_true, Bool.true_and, Bool.not_eq_false']
        at exhausted
      exact Or.inl ((standbyBusy_iff (invariant.posts.reads_reaping reaps)).mp exhausted)

/-- Who publishes a token, and for which ring. -/
theorem publishes_of_running (invariant : Invariant state) {thread id : Nat} {args : TransferArgs}
    (running : state.machine.threads thread = some ⟨id, .transfer args .publishEpoch⟩) :
    thread = supervisorThread ∧ ∃ place physicalWorker, state.loop.pc = .promote place physicalWorker ∧
      Promotes (currentToken state.machine.log) physicalWorker args ∧
      state.owner physicalWorker = physicalWorker := by
  obtain ⟨rfl, place, physicalWorker, at'⟩ := invariant.posts.transfers running
  have promotes := invariant.posts.promoting place physicalWorker id args _ at' running
  have facts := RegionMachine.Cells.facts invariant.posts.cells supervisorThread
  rw [running] at facts
  have replaces : args.expected = currentToken state.machine.log args.logicalRing := facts.2.1
  refine ⟨rfl, place, physicalWorker, at', promotes, ?_⟩
  change (currentToken state.machine.log physicalWorker).physicalOwner.toNat = physicalWorker
  rw [← promotes.ring, ← replaces, promotes.expected, promotes.ring]

/-- An announcement is entered under the ring's owner. -/
theorem Books.degrade (books : Books state) (invariant : Invariant state)
    (crash : state.crash = some (index, child)) (plan : state.crashPlan index child = .degrade ring) :
    Ledger state.owner (Function.update state.loop.roster.degradedRings child.physicalWorker true)
      (state.loop.roster.announced ++ [ring]) := by
  obtain ⟨status, reaps, -⟩ := reaps_of_crash crash
  obtain ⟨owned, exhausted, unset⟩ := degrades_of_plan plan
  have reads := invariant.posts.reads_reaping reaps
  have assigned := invariant.posts.assigned
  have owner : state.owner ring = child.physicalWorker := owner_of_owned reads owned
  have below : ring < kMaxWorkers := ownedLogicalRing_lt owned
  by_cases standby : child.physicalWorker = kStandbyPhysical
  · rw [standby] at owned owner unset ⊢
    refine books.ledger.degrade_standby (Nat.le_of_lt_succ below) owner ?_ unset
    intro other hot moved
    exact Option.some.inj ((owned_of_hot reads assigned hot moved).symm.trans owned)
  · obtain ⟨home, hot⟩ := assigned.owned_home below owner standby
    rw [← home] at unset standby hot ⊢
    exact books.ledger.degrade_home hot (by rw [owner, ← home]; exact standby) unset

theorem Books.supervise (books : Books state) (invariant : Invariant state) (input : Input) :
    Books (state.supervise input) := by
  have owner := owner_supervise state input
  cases latches_supervise state input with
  | same degradedRings announced =>
      refine ⟨?_, fun ring hot set => ?_⟩
      · rw [owner, degradedRings, announced]
        exact books.ledger
      · rw [degradedRings] at set
        exact (books.spent ring hot set).supervise invariant.staffing input
  | degraded index child logical crash plan degradedRings announced =>
      refine ⟨?_, fun ring hot set => ?_⟩
      · rw [owner, degradedRings, announced]
        exact books.degrade invariant crash plan
      · rw [degradedRings] at set
        by_cases same : ring = child.physicalWorker
        · obtain ⟨-, exhausted, -⟩ := degrades_of_plan plan
          have other : child.physicalWorker ≠ kStandbyPhysical := by
            rw [← same]
            exact Nat.ne_of_lt hot
          exact (spent_of_exhausted invariant crash other exhausted).supervise invariant.staffing
            input
        · rw [Function.update_of_ne same] at set
          exact (books.spent ring hot set).supervise invariant.staffing input

/-- A promotion publishes a ring whose worker was never degraded. -/
theorem Books.publish (books : Books state) (invariant : Invariant state)
    (promoting : Promoting state) {thread id : Nat} {args : TransferArgs} {weak : Bool}
    (running : state.machine.threads thread = some ⟨id, .transfer args .publishEpoch⟩)
    (changed : currentToken (state.withMachine (.advance thread weak)).machine.log =
      Function.update (currentToken state.machine.log) args.logicalRing args.replacement) :
    Books (state.withMachine (.advance thread weak)) := by
  obtain ⟨rfl, place, physicalWorker, at', promotes, home⟩ := publishes_of_running invariant running
  have owner : (state.withMachine (.advance supervisorThread weak)).owner =
      Function.update state.owner physicalWorker kStandbyPhysical := by
    have moved : args.replacement.physicalOwner.toNat = kStandbyPhysical := by
      rw [TransferArgs.replacement, promotes.owner]
      rfl
    unfold State.owner
    rw [changed, Function.comp_update, moved, promotes.ring]
  have free : ∀ other, other < kStandbyPhysical → state.owner other ≠ kStandbyPhysical := by
    intro other hot
    by_cases same : other = physicalWorker
    · rw [same, home]
      exact Nat.ne_of_lt promotes.hot
    · exact promotes.free other hot same
  have unset : state.loop.roster.degradedRings physicalWorker = false := by
    by_contra set
    rcases books.spent physicalWorker promotes.hot (by simpa using set) with
      ⟨other, hot, taken⟩ | ⟨vacant, -⟩
    · exact free other hot taken
    · exact (promoting place physicalWorker id args _ at' running).1 vacant
  refine ⟨?_, fun ring hot set => Or.inl ⟨physicalWorker, promotes.hot, ?_⟩⟩
  · rw [owner]
    exact books.ledger.promote promotes.hot free unset
  · rw [owner]
    exact Function.update_self ..

end Books

theorem books_apply {state : State} (books : Books state) (invariant : Invariant state)
    (promoting : Promoting state) (label : Label) : Books (apply state label) := by
  cases label with
  | call pid args =>
      simp only [apply, State.call]
      split
      · exact books
      · split
        · exact books.same rfl (tokens_start ..)
        · exact books
  | advance thread weak =>
      simp only [apply, State.advance]
      split
      · rcases tokens_apply state.machine (.advance thread weak) with
          same | ⟨actor, _, id, args, label, running, changed⟩
        · exact books.same rfl same
        · cases label
          exact books.publish invariant promoting running changed
      · exact books
  | resume pid =>
      simp only [apply, State.resume]
      split
      · split
        · exact books.same rfl (tokens_finish ..)
        · exact books
      · exact books
  | store pid word =>
      simp only [apply, State.store]
      split
      · exact books
      · split
        · exact books.same rfl rfl
        · exact books
  | finish pid status =>
      simp only [apply, State.finish]
      split
      · exact books
      · split
        · exact books.same rfl rfl
        · exact books
  | supervise input => exact books.supervise invariant input
  | relaunch settings =>
      simp only [apply, State.relaunch]
      split
      · exact ⟨ledger_empty _, fun _ _ set => absurd set Bool.false_ne_true⟩
      · exact books

theorem reachable_books {settings : Settings} {storage : SharedRegion} {state : State}
    (reach : Reachable (ByLabel apply) (start settings storage) state) : Books state := by
  refine reach.invariant ⟨ledger_empty _, fun _ _ set => absurd set Bool.false_ne_true⟩ ?_
  rintro before after earlier books ⟨label, rfl⟩
  exact books_apply books (reachable_invariant earlier) (reachable_promoting earlier) label

/-! ### The re-asserted flag -/

theorem setDegraded_workerStatus (region : SharedRegion) (physicalWorker : Nat) :
    (setDegraded region physicalWorker).workerStatus = Function.update region.workerStatus
      physicalWorker (region.workerStatus physicalWorker ||| kDegraded) := rfl

theorem hasFlag_setDegraded (region : SharedRegion) {physicalWorker other : Nat}
    (flagged : physicalWorker = other ∨ hasFlag (region.workerStatus other) kDegraded = true) :
    hasFlag ((setDegraded region physicalWorker).workerStatus other) kDegraded = true := by
  rw [setDegraded_workerStatus]
  by_cases same : other = physicalWorker
  · subst same
    have kept : (region.workerStatus other ||| kDegraded) &&& kDegraded = kDegraded := by
      refine Nat.eq_of_testBit_eq fun bit => ?_
      rw [Nat.testBit_and, Nat.testBit_or]
      cases region.workerStatus other |>.testBit bit <;> simp
    rw [Function.update_self, hasFlag, kept]
    decide
  · rw [Function.update_of_ne same]
    exact flagged.resolve_left fun equal => same equal.symm

/-- The loop over the rings sets the flag of every degraded one. -/
theorem hasFlag_foldl (degraded : Nat → Bool) (other : Nat) (rings : List Nat)
    (region : SharedRegion) (flagged : (other ∈ rings ∧ degraded other = true) ∨
      hasFlag (region.workerStatus other) kDegraded = true) :
    hasFlag ((rings.foldl (fun region ring => if degraded ring then setDegraded region ring
      else region) region).workerStatus other) kDegraded = true := by
  induction rings generalizing region with
  | nil =>
      rcases flagged with ⟨impossible, -⟩ | already
      · cases impossible
      · exact already
  | cons ring rest inductionHypothesis =>
      rw [List.foldl_cons]
      refine inductionHypothesis _ ?_
      rcases flagged with ⟨listed, set⟩ | already
      · rcases List.mem_cons.mp listed with rfl | later
        · rw [if_pos set]
          exact Or.inr (hasFlag_setDegraded region (Or.inl rfl))
        · exact Or.inl ⟨later, set⟩
      · right
        split
        · exact hasFlag_setDegraded region (Or.inr already)
        · exact already

theorem hasFlag_reassert {state : State} (at' : state.loop.pc = .reassert) {physicalWorker : Nat}
    (below : physicalWorker < kMaxWorkers)
    (set : state.loop.roster.degradedRings physicalWorker = true) (input : Input) :
    hasFlag ((state.supervise input).machine.region.workerStatus physicalWorker) kDegraded =
      true := by
  simp only [State.supervise, at']
  exact hasFlag_foldl _ _ _ _ (Or.inl ⟨List.mem_range.mpr below, set⟩)

/-! ### Exhausted rings -/

/-- What was announced in this run stays announced. -/
theorem announced_apply {state : State} {ring : Nat}
    (listed : ring ∈ state.loop.roster.announced) {label : Label} (same : SameRun state label) :
    ring ∈ (apply state label).loop.roster.announced := by
  cases label with
  | supervise input =>
      cases latches_supervise state input with
      | same degradedRings announced =>
          change ring ∈ (state.supervise input).loop.roster.announced
          rw [announced]
          exact listed
      | degraded index child logical crash plan degradedRings announced =>
          change ring ∈ (state.supervise input).loop.roster.announced
          rw [announced]
          exact List.mem_append_left _ listed
  | _ =>
      rw [(loop_apply state same (by simp)).1]
      exact listed

/-- The reaped crash of an exhausted ring's owner is announced unless it was
before, no ring is announced twice, and the ring's flag is re-asserted. -/
structure Announced (before after later : State) (ring : Nat) : Prop where
  emitted : after.loop.roster.announced = before.loop.roster.announced ++
    if ring ∈ before.loop.roster.announced then [] else [ring]
  exactly : later.loop.roster.announced.count ring = 1
  once : ∀ other, later.loop.roster.announced.count other ≤ 1
  reasserted : later.loop.pc = .reassert → ∀ input, ∃ token,
    readOwnership later.machine.region ring = some token ∧
      hasFlag ((later.supervise input).machine.region.workerStatus token.physicalOwner.toNat)
        kDegraded = true

/-- From an announced ring on. -/
theorem Books.announced {before after later : State} {ring : Nat} (books : Books later)
    (posts : Posts later) (hot : ring < kStandbyPhysical)
    (emitted : after.loop.roster.announced = before.loop.roster.announced ++
      if ring ∈ before.loop.roster.announced then [] else [ring])
    (listed : ring ∈ later.loop.roster.announced) : Announced before after later ring where
  emitted := emitted
  exactly := Nat.le_antisymm (books.ledger.once ring) (List.count_pos_iff.mpr listed)
  once := books.ledger.once
  reasserted := by
    intro at' input
    have home := posts.assigned.home ring hot
    have below : later.owner ring < kMaxWorkers := by
      change (currentToken later.machine.log ring).physicalOwner.toNat < kMaxWorkers
      unfold kStandbyPhysical at hot home
      unfold kMaxWorkers
      omega
    refine ⟨currentToken later.machine.log ring, posts.reads ?_ (hot.trans (by decide)), ?_⟩
    · rw [at']
      rintro index physicalWorker ⟨⟩
    · exact hasFlag_reassert at' below ((books.ledger.listed_iff hot home).mp listed).1 input

/-- When the crash of an exhausted ring's owner is reaped, the ring is announced
at most once per run, exactly once from then on, and its flag re-asserted on
every iteration, unless the owner is the standby and had been degraded for its
own ring before the ring was promoted to it. -/
theorem exhausted_ring_announced_iff (settings : Settings) (storage : SharedRegion)
    (earlier : State) (reach : Reachable (ByLabel apply) (start settings storage) earlier)
    (index ring : Nat) (child : Child) (exhausts : Exhausts earlier index child ring)
    (input : Input) :
    (∀ later, Reachable (Permitted SameRun apply) (apply earlier (.supervise input)) later →
        Announced earlier (apply earlier (.supervise input)) later ring) ↔
      (child.physicalWorker = kStandbyPhysical →
        kStandbyPhysical ∉ earlier.loop.roster.announced) := by
  have invariant := reachable_invariant reach
  have owner := exhausts.owner_eq invariant
  have emitted := exhausts.announced invariant input
  have listed := (reachable_books reach).ledger.listed_iff exhausts.hot
    (invariant.posts.assigned.home ring exhausts.hot)
  rw [owner] at listed
  constructor
  · intro holds standby degraded
    have latched := (reachable_books reach).ledger.latched degraded
    have silent : ring ∉ earlier.loop.roster.announced := fun member =>
      (listed.mp member).2 standby degraded
    have exactly := (holds _ Reachable.refl).exactly
    change (earlier.supervise input).loop.roster.announced.count ring = 1 at exactly
    rw [emitted, standby, if_pos latched, List.append_nil, List.count_eq_zero.mpr silent]
      at exactly
    cases exactly
  · intro unmasked later onward
    rw [and_iff_left unmasked] at listed
    have announces : (apply earlier (.supervise input)).loop.roster.announced =
        earlier.loop.roster.announced ++
          if ring ∈ earlier.loop.roster.announced then [] else [ring] := by
      simp only [listed]
      exact emitted
    have member : ring ∈ (apply earlier (.supervise input)).loop.roster.announced := by
      rw [announces]
      split
      · next already => exact List.mem_append_left _ already
      · exact List.mem_append_right _ (List.mem_singleton.mpr rfl)
    have still : ring ∈ later.loop.roster.announced := by
      refine onward.invariant (motive := fun state => ring ∈ state.loop.roster.announced) member ?_
      rintro before after - listed ⟨label, same, rfl⟩
      exact announced_apply listed same
    have here : Reachable (ByLabel apply) (start settings storage) later := by
      refine (reach.tail ⟨.supervise input, rfl⟩).trans (onward.mono ?_)
      rintro before after ⟨label, -, rfl⟩
      exact ⟨label, rfl⟩
    exact (reachable_books here).announced (reachable_invariant here).posts exhausts.hot announces
      still

/-- The conditions of `Exhausts` that a run decides. -/
theorem exhausts_of_decided {state : State} {index ring : Nat} {child : Child}
    (hot : ring < kStandbyPhysical)
    (decided : state.crash = some (index, child) ∧
      (readOwnership state.machine.region ring).map (fun token => token.physicalOwner.toNat) =
        some child.physicalWorker ∧
      verifyWorkerRing state.machine.region ring = true ∧
      standbyReady state.machine.region (state.crashRoster index child).children = false) :
    Exhausts state index child ring :=
  ⟨decided.1, hot, decided.2.1, decided.2.2.1, decided.2.2.2⟩

/-- Worker 0's ring has gone to the standby when worker 1 is killed. -/
def bothHotKilled : List Label := ownerKilled ++ supervises 2 ++ [.finish 3 .signaled]

theorem exhausted_ring_announced_bothHotKilled :
    let earlier := bothHotKilled.foldl apply (start ⟨200, 750, none⟩ zeroed)
    Exhausts earlier 2 ⟨3, 1, true, false⟩ 1 ∧
      ∀ later, Reachable (Permitted SameRun apply)
          (apply earlier (.supervise ⟨false, 0, true, none⟩)) later →
        Announced earlier (apply earlier (.supervise ⟨false, 0, true, none⟩)) later 1 := by
  intro earlier
  have exhausts : Exhausts earlier 2 ⟨3, 1, true, false⟩ 1 := by
    refine exhausts_of_decided (by decide) ?_
    simp only [earlier, start_zeroed]
    decide +kernel
  exact ⟨exhausts, (exhausted_ring_announced_iff _ _ earlier (reachable_foldl bothHotKilled _) 2 1 _
    exhausts _).mpr fun standby => absurd standby (by decide)⟩

/-- The standby is killed and replaced, worker 0's ring promoted to the
replacement, and the replacement killed. -/
def standbyKilledTwice : List Label :=
  standbyReplaced ++ supervises 2 ++ [.finish 5 .signaled] ++ supervises 2

/-- Ring 2 was announced, ring 0 is not. -/
theorem exhausted_ring_unannounced :
    let earlier := standbyKilledTwice.foldl apply (start ⟨200, 750, none⟩ zeroed)
    let after := apply earlier (.supervise ⟨false, 0, true, none⟩)
    Reachable (ByLabel apply) (start ⟨200, 750, none⟩ zeroed) earlier ∧
      Exhausts earlier 4 ⟨5, 2, true, false⟩ 0 ∧ earlier.loop.roster.announced = [2] ∧
      after.loop.roster.announced = [2] ∧ ¬ Announced earlier after after 0 := by
  intro earlier after
  have facts : (earlier.crash = some (4, ⟨5, 2, true, false⟩) ∧
        (readOwnership earlier.machine.region 0).map (fun token => token.physicalOwner.toNat) =
          some 2 ∧
        verifyWorkerRing earlier.machine.region 0 = true ∧
        standbyReady earlier.machine.region
          (earlier.crashRoster 4 ⟨5, 2, true, false⟩).children = false) ∧
      earlier.loop.roster.announced = [2] ∧ after.loop.roster.announced = [2] := by
    simp only [after, earlier, start_zeroed]
    decide +kernel
  obtain ⟨decided, before, behind⟩ := facts
  refine ⟨reachable_foldl _ _, exhausts_of_decided (by decide) decided, before, behind,
    fun announced => ?_⟩
  have exactly := announced.exactly
  rw [behind] at exactly
  cases exactly

end SafetyCrit.Supervisor.MainLoop
