import SafetyCrit.SharedMemory.RegionMachine

/-!
Owns the convergence of the integrity word: what the word hashes only grows,
and once no call is in flight it hashes the final `global_seq`, which by then
counts the successful pushes.

The refresh loop has no version tag. What replaces it is that, below `2 ^ 32`
commits, equal words hash equal sequence numbers
(`regionIntegrityAt_injective`).
-/

namespace SafetyCrit.SharedMemory.RegionMachine

open SafetyCrit.Library
open SafetyCrit.Library.Run
open SafetyCrit.Library.Claims

/-! ### What an action can do to the counter and the word -/

/-- The refresh loop a call is in. -/
def Operation.refreshPc : Operation → Option RefreshPc
  | .push _ _ (.refresh pc) => some pc
  | .transfer _ (.refresh pc) => some pc
  | _ => none

/-- The refresh loop a process is in. -/
def refreshOf : Option Call → Option RefreshPc
  | some call => call.operation.refreshPc
  | none => none

theorem refreshStep_ringBuffers (weak : Bool) (region : SharedRegion) (pc : RefreshPc) :
    (refreshStep weak region pc).1.ringBuffers = region.ringBuffers := by
  cases pc <;> simp only [refreshStep] <;> (try split) <;> rfl

theorem refreshStep_globalSeq (weak : Bool) (region : SharedRegion) (pc : RefreshPc) :
    (refreshStep weak region pc).1.globalSeq = region.globalSeq := by
  cases pc <;> simp only [refreshStep] <;> (try split) <;> rfl

theorem transferStep_quiet (args : TransferArgs) (weak : Bool) (region : SharedRegion)
    {pc : TransferPc} (outside : ∀ refresh, pc ≠ .refresh refresh) :
    (transferStep args weak region pc).1.ringBuffers = region.ringBuffers ∧
      (transferStep args weak region pc).1.globalSeq = region.globalSeq ∧
      (transferStep args weak region pc).1.integrityWord = region.integrityWord ∧
      ∀ refresh, (transferStep args weak region pc).2 = .refresh refresh →
        refresh = .loadWord := by
  cases pc with
  | refresh pc => exact absurd rfl (outside pc)
  | loadEpoch => simp only [transferStep]; split <;> simp
  | casEpoch => simp only [transferStep]; split <;> simp
  | casOwner => simp only [transferStep]; split <;> simp
  | restoreEpoch => simp [transferStep]
  | publishEpoch => simp [transferStep]
  | loadTail => simp [transferStep]
  | loadHead tail => simp only [transferStep]; split <;> simp
  | loadSequence tail => simp only [transferStep]; split <;> simp
  | casTail tail => simp only [transferStep]; split <;> simp
  | returned result => simp [transferStep]

/-- The three ways an action can treat the counter and the word. -/
inductive Effect (weak : Bool) (region : SharedRegion) (operation : Operation) : Prop where
  /-- A `fetch_add` on `global_seq`. -/
  | count (outside : operation.refreshPc = none)
      (counter : (operation.step weak region).1 =
        { region with globalSeq := wrap64 (region.globalSeq + 1) })
      (enters : (operation.step weak region).2.refreshPc = some .loadWord)
  /-- An action of the refresh loop. -/
  | refresh (pc : RefreshPc) (inside : operation.refreshPc = some pc)
      (region' : (operation.step weak region).1 = (refreshStep weak region pc).1)
      (next : (operation.step weak region).2.refreshPc =
        if (refreshStep weak region pc).2 = .returned then none
        else some (refreshStep weak region pc).2)
  /-- Anything else. -/
  | quiet (outside : operation.refreshPc = none)
      (headers : (operation.step weak region).1.ringBuffers = region.ringBuffers)
      (counter : (operation.step weak region).1.globalSeq = region.globalSeq)
      (word : (operation.step weak region).1.integrityWord = region.integrityWord)
      (next : ∀ pc, (operation.step weak region).2.refreshPc = some pc → pc = .loadWord)

theorem refreshPc_push_ofRing (workerIdx : Nat) (args : PushArgs kRing) (pc : PushPc) :
    (Operation.push workerIdx args (RegionPushPc.ofRing pc)).refreshPc = none := by
  unfold RegionPushPc.ofRing
  split <;> rfl

theorem effect (weak : Bool) (region : SharedRegion) (operation : Operation) :
    Effect weak region operation := by
  cases operation with
  | push workerIdx args pc =>
      cases pc with
      | ring pc =>
          refine .quiet rfl rfl rfl rfl fun refresh inside => ?_
          simp [Operation.step, pushStep, refreshPc_push_ofRing] at inside
      | fetchAdd => exact .count rfl rfl rfl
      | refresh pc =>
          refine .refresh pc rfl rfl ?_
          simp only [Operation.step, pushStep]
          cases (refreshStep weak region pc).2 <;> rfl
      | returned result =>
          exact .quiet rfl rfl rfl rfl fun refresh inside => by cases inside
  | pop workerIdx size pc =>
      exact .quiet rfl rfl rfl rfl fun refresh inside => by cases inside
  | transfer args pc =>
      by_cases inside : ∃ refresh, pc = .refresh refresh
      · obtain ⟨refresh, rfl⟩ := inside
        refine .refresh refresh rfl rfl ?_
        simp only [Operation.step, transferStep]
        cases (refreshStep weak region refresh).2 <;> rfl
      · have outside : ∀ refresh, pc ≠ .refresh refresh := fun refresh same =>
          inside ⟨refresh, same⟩
        obtain ⟨headers, counter, word, next⟩ :=
          transferStep_quiet args weak region outside
        refine .quiet ?_ headers counter word fun refresh entered => ?_
        · cases pc with
          | refresh refresh => exact absurd rfl (outside refresh)
          | _ => rfl
        · simp only [Operation.step] at entered
          generalize (transferStep args weak region pc).2 = after at entered next
          cases after with
          | refresh within =>
              cases entered
              exact next refresh rfl
          | _ => cases entered
  | read logicalRing pc =>
      exact .quiet rfl rfl rfl rfl fun refresh inside => by cases inside
  | valid token pc =>
      exact .quiet rfl rfl rfl rfl fun refresh inside => by cases inside

theorem step_ringBuffers (weak : Bool) (region : SharedRegion) (operation : Operation) :
    (operation.step weak region).1.ringBuffers = region.ringBuffers := by
  cases effect weak region operation with
  | count outside counter enters => rw [counter]
  | refresh pc inside region' next => rw [region', refreshStep_ringBuffers]
  | quiet outside headers counter word next => exact headers

theorem regionIntegrityAt_congr {left right : SharedRegion}
    (same : left.ringBuffers = right.ringBuffers) :
    regionIntegrityAt left = regionIntegrityAt right := by
  funext seq
  rw [regionIntegrityAt, regionIntegrityAt, same]

/-! ### The word only advances -/

/-- What a refresh loop's local variables record: the word it loaded hashed a
number no greater than the one stored now, and the word it wants hashes a
number no smaller. -/
def RefreshFacts (hash : Nat → BitVec 32) (stored seq : Nat) : RefreshPc → Prop
  | .loadSeq expected => ∃ seen, seen ≤ stored ∧ expected = hash seen
  | .casWord expected want =>
      ∃ seen wanted, seen ≤ stored ∧ seen ≤ wanted ∧ wanted ≤ seq ∧ expected = hash seen ∧
        want = hash wanted
  | _ => True

/-- The loop will still compare the word with the current counter. -/
def Pending (hash : Nat → BitVec 32) (seq : Nat) : RefreshPc → Prop
  | .loadWord => True
  | .loadSeq _ => True
  | .casWord _ want => want = hash seq
  | .returned => False

/-- The word hashes `stored`, and someone is about to fix it if that is not the
current counter. -/
structure Converging (state : State) (stored : Nat) : Prop where
  small : state.region.globalSeq < 2 ^ 32
  bounded : stored ≤ state.region.globalSeq
  word : state.region.integrityWord = regionIntegrityAt state.region stored
  facts : ∀ thread pc, refreshOf (state.threads thread) = some pc →
    RefreshFacts (regionIntegrityAt state.region) stored state.region.globalSeq pc
  covered : stored = state.region.globalSeq ∨
    ∃ thread pc, refreshOf (state.threads thread) = some pc ∧
      Pending (regionIntegrityAt state.region) state.region.globalSeq pc

theorem RefreshFacts.grow {hash : Nat → BitVec 32} {stored stored' seq seq' : Nat}
    {pc : RefreshPc} (facts : RefreshFacts hash stored seq pc) (more : stored ≤ stored')
    (later : seq ≤ seq') : RefreshFacts hash stored' seq' pc := by
  cases pc with
  | loadWord => trivial
  | loadSeq expected =>
      obtain ⟨seen, low, equal⟩ := facts
      exact ⟨seen, by omega, equal⟩
  | casWord expected want =>
      obtain ⟨seen, wanted, low, order, high, equal, wants⟩ := facts
      exact ⟨seen, wanted, by omega, order, by omega, equal, wants⟩
  | returned => trivial

theorem converging_start (storage : SharedRegion) : Converging (start storage) 0 where
  small := by simp [start, freshRegion_globalSeq]
  bounded := by simp
  word := freshRegion_integrityWord storage
  facts := by simp [start, refreshOf]
  covered := Or.inl (freshRegion_globalSeq storage).symm

theorem refreshOf_update {threads : Nat → Option Call} {thread : Nat} {next : Option Call}
    {motive : RefreshPc → Prop}
    (others : ∀ other pc, refreshOf (threads other) = some pc → motive pc)
    (mine : ∀ pc, refreshOf next = some pc → motive pc) (other : Nat) (pc : RefreshPc)
    (inside : refreshOf (Function.update threads thread next other) = some pc) : motive pc := by
  by_cases same : other = thread
  · subst same
    exact mine pc (by simpa using inside)
  · exact others other pc (by simpa [same] using inside)

/-- A process outside the loop moves; it may enter the loop at its start. -/
theorem Converging.move {state : State} {stored : Nat} (converging : Converging state stored)
    {region : SharedRegion} {thread : Nat} {next : Option Call} (log : List Event) (calls : Nat)
    (outside : refreshOf (state.threads thread) = none)
    (headers : region.ringBuffers = state.region.ringBuffers)
    (counter : region.globalSeq = state.region.globalSeq)
    (word : region.integrityWord = state.region.integrityWord)
    (enters : ∀ pc, refreshOf next = some pc → pc = .loadWord) :
    Converging ⟨region, Function.update state.threads thread next, log, calls⟩ stored := by
  have hash := regionIntegrityAt_congr headers
  refine ⟨?_, ?_, ?_, ?_, ?_⟩
  · rw [counter]
    exact converging.small
  · rw [counter]
    exact converging.bounded
  · rw [word, hash]
    exact converging.word
  · simp only [hash, counter]
    refine refreshOf_update converging.facts fun pc entered => ?_
    rw [enters pc entered]
    trivial
  · simp only [hash, counter]
    rcases converging.covered with done | ⟨other, pc, inside, pending⟩
    · exact Or.inl done
    · refine Or.inr ⟨other, pc, ?_, pending⟩
      have different : other ≠ thread := by
        rintro rfl
        simp [outside] at inside
      simpa [different] using inside

/-- A `fetch_add` leaves its process in charge of the word. -/
theorem Converging.count {state : State} {stored : Nat} (converging : Converging state stored)
    {thread : Nat} {next : Option Call} (log : List Event) (calls : Nat)
    (enters : refreshOf next = some .loadWord)
    (small : state.region.globalSeq + 1 < 2 ^ 32) :
    Converging ⟨{ state.region with globalSeq := state.region.globalSeq + 1 },
      Function.update state.threads thread next, log, calls⟩ stored := by
  have bounded := converging.bounded
  refine ⟨small, ?_, converging.word, ?_, ?_⟩
  · change stored ≤ state.region.globalSeq + 1
    omega
  · refine refreshOf_update (fun other pc inside => ?_) fun pc entered => ?_
    · exact (converging.facts other pc inside).grow le_rfl (Nat.le_succ _)
    · rw [enters] at entered
      cases entered
      trivial
  · exact Or.inr ⟨thread, .loadWord, by simpa using enters, trivial⟩

/-- A process inside the loop moves without touching the region. It may only
drop its obligation once the word is right. -/
theorem Converging.retarget {state : State} {stored : Nat} (converging : Converging state stored)
    {thread : Nat} {next : Option Call} {pc : RefreshPc} (log : List Event) (calls : Nat)
    (inside : refreshOf (state.threads thread) = some pc)
    (facts : ∀ pc', refreshOf next = some pc' →
      RefreshFacts (regionIntegrityAt state.region) stored state.region.globalSeq pc')
    (passes : Pending (regionIntegrityAt state.region) state.region.globalSeq pc →
      stored = state.region.globalSeq ∨ ∃ pc', refreshOf next = some pc' ∧
        Pending (regionIntegrityAt state.region) state.region.globalSeq pc') :
    Converging ⟨state.region, Function.update state.threads thread next, log, calls⟩ stored where
  small := converging.small
  bounded := converging.bounded
  word := converging.word
  facts := refreshOf_update converging.facts facts
  covered := by
    rcases converging.covered with done | ⟨other, pc', inside', pending⟩
    · exact Or.inl done
    · by_cases same : other = thread
      · subst same
        obtain rfl : pc = pc' := Option.some.inj (inside.symm.trans inside')
        rcases passes pending with done | ⟨after, entered, still⟩
        · exact Or.inl done
        · exact Or.inr ⟨other, after, by simpa using entered, still⟩
      · exact Or.inr ⟨other, pc', by simpa [same] using inside', pending⟩

/-- The compare-exchange of the loop succeeds. -/
theorem Converging.store {state : State} {stored : Nat} (converging : Converging state stored)
    {thread : Nat} {next : Option Call} {expected want : BitVec 32} (log : List Event)
    (calls : Nat) (inside : refreshOf (state.threads thread) = some (.casWord expected want))
    (matched : state.region.integrityWord = expected) (leaves : refreshOf next = none) :
    ∃ stored', stored ≤ stored' ∧ Converging ⟨{ state.region with integrityWord := want },
      Function.update state.threads thread next, log, calls⟩ stored' := by
  have small := converging.small
  have bounded := converging.bounded
  obtain ⟨seen, wanted, low, order, high, loaded, wants⟩ := converging.facts thread _ inside
  -- the word still hashes what the loop loaded, so nothing was stored since
  have current : seen = stored := by
    refine regionIntegrityAt_injective state.region (by omega) (by omega) ?_
    rw [← loaded, ← matched, converging.word]
  subst current
  refine ⟨wanted, order, small, high, wants, ?_, ?_⟩
  · refine refreshOf_update (fun other pc within => ?_) fun pc entered => ?_
    · exact (converging.facts other pc within).grow order le_rfl
    · simp [leaves] at entered
  · rcases converging.covered with done | ⟨other, pc, within, pending⟩
    · left
      change wanted = state.region.globalSeq
      omega
    · by_cases same : other = thread
      · subst same
        obtain rfl := Option.some.inj (inside.symm.trans within)
        left
        refine regionIntegrityAt_injective state.region (by omega) (by omega) ?_
        rw [← wants]
        exact pending
      · exact Or.inr ⟨other, pc, by simpa [same] using within, pending⟩

/-- One action of the refresh loop. -/
theorem Converging.refresh {state : State} {stored : Nat} (converging : Converging state stored)
    {thread : Nat} {next : Option Call} {pc : RefreshPc} (weak : Bool) (log : List Event)
    (calls : Nat) (inside : refreshOf (state.threads thread) = some pc)
    (moves : refreshOf next = if (refreshStep weak state.region pc).2 = .returned then none
      else some (refreshStep weak state.region pc).2) :
    ∃ stored', stored ≤ stored' ∧ Converging ⟨(refreshStep weak state.region pc).1,
      Function.update state.threads thread next, log, calls⟩ stored' := by
  have small := converging.small
  have bounded := converging.bounded
  cases pc with
  | loadWord =>
      refine ⟨stored, le_rfl, converging.retarget log calls inside (fun pc entered => ?_)
        fun _ => Or.inr ⟨_, moves, trivial⟩⟩
      obtain rfl := Option.some.inj (moves.symm.trans entered)
      exact ⟨stored, le_rfl, converging.word⟩
  | loadSeq expected =>
      obtain ⟨seen, low, loaded⟩ := converging.facts thread _ inside
      simp only [refreshStep] at moves ⊢
      split at moves
      · next equal =>
        -- the loaded word already hashes the current counter
        have final : seen = state.region.globalSeq := by
          refine regionIntegrityAt_injective state.region (by omega) (by omega) ?_
          rw [← loaded, equal]
        rw [if_pos equal]
        refine ⟨stored, le_rfl, converging.retarget log calls inside (fun pc entered => ?_)
          fun _ => Or.inl (by omega)⟩
        simp [moves] at entered
      · next differs =>
        rw [if_neg differs]
        refine ⟨stored, le_rfl, converging.retarget log calls inside (fun pc entered => ?_)
          fun _ => Or.inr ⟨_, moves, rfl⟩⟩
        obtain rfl := Option.some.inj (moves.symm.trans entered)
        exact ⟨seen, state.region.globalSeq, low, by omega, le_rfl, loaded, rfl⟩
  | casWord expected want =>
      simp only [refreshStep] at moves ⊢
      split at moves
      · next claims =>
        rw [if_pos claims]
        exact converging.store log calls inside claims.1 (by simpa using moves)
      · next fails =>
        rw [if_neg fails]
        refine ⟨stored, le_rfl, converging.retarget log calls inside (fun pc entered => ?_)
          fun _ => Or.inr ⟨.loadWord, moves, trivial⟩⟩
        obtain rfl := Option.some.inj (moves.symm.trans entered)
        trivial
  | returned =>
      refine ⟨stored, le_rfl, converging.retarget log calls inside (fun pc entered => ?_)
        fun impossible => impossible.elim⟩
      simp [moves, refreshStep] at entered

/-- The steps of a run with fewer than `2 ^ 32` commits. -/
def FewCommits (before after : State) : Prop :=
  Permitted (fun state label => (apply state label).region.globalSeq < 2 ^ 32) apply before after

theorem converging_step {before after : State} {stored : Nat}
    (converging : Converging before stored) (step : FewCommits before after) :
    ∃ stored', stored ≤ stored' ∧ Converging after stored' := by
  obtain ⟨label, small, rfl⟩ := step
  revert small
  have outside : ∀ request : Request, request.enter.refreshPc = none := by
    intro request
    cases request with
    | push workerIdx args => simp only [Request.enter, RegionPushPc.enter]; split <;> rfl
    | pop workerIdx size => rfl
    | transfer args => simp only [Request.enter, TransferPc.enter]; split <;> rfl
    | read logicalRing => rfl
    | valid token => rfl
  have returned : ∀ operation : Operation, operation.done = true → operation.refreshPc = none := by
    intro operation done
    cases operation with
    | push workerIdx args pc => cases pc <;> first | rfl | cases done
    | pop workerIdx size pc => rfl
    | transfer args pc => cases pc <;> first | rfl | cases done
    | read logicalRing pc => rfl
    | valid token pc => rfl
  refine apply_induction (motive := fun after => after.region.globalSeq < 2 ^ 32 →
    ∃ stored', stored ≤ stored' ∧ Converging after stored') label
    (fun _ => ⟨stored, le_rfl, converging⟩) ?_ ?_ ?_
  · intro thread request idle _
    refine ⟨stored, le_rfl, converging.move _ _ (by rw [idle]; rfl) rfl rfl rfl fun pc entered => ?_⟩
    rw [refreshOf, outside] at entered
    cases entered
  · intro thread weak call running _ small
    cases effect weak before.region call.operation with
    | count away counter enters =>
        have word := converging.small
        have bumped : wrap64 (before.region.globalSeq + 1) = before.region.globalSeq + 1 :=
          wrap64_of_lt (by omega)
        simp only [State.advance, counter, bumped] at small ⊢
        exact ⟨stored, le_rfl, converging.count _ _ enters small⟩
    | refresh pc inside region' next =>
        simp only [State.advance, region']
        exact converging.refresh weak _ _ (by rw [running]; exact inside) next
    | quiet away headers counter word next =>
        refine ⟨stored, le_rfl, converging.move _ _ (by rw [running]; exact away) headers counter
          word next⟩
  · intro thread call running done _
    refine ⟨stored, le_rfl, converging.move _ _ ?_ rfl rfl rfl fun pc entered => by cases entered⟩
    rw [running]
    exact returned call.operation done

theorem reachable_converging {first second : State} {stored : Nat}
    (converging : Converging first stored) (reach : Reachable FewCommits first second) :
    ∃ stored', stored ≤ stored' ∧ Converging second stored' := by
  refine reach.invariant (motive := fun state => ∃ stored', stored ≤ stored' ∧
    Converging state stored') ⟨stored, le_rfl, converging⟩ fun before after _ earlier step => ?_
  obtain ⟨between, more, holds⟩ := earlier
  obtain ⟨last, further, holds'⟩ := converging_step holds step
  exact ⟨last, more.trans further, holds'⟩

/-! ### The counter counts successful pushes -/

/-- The calls that advanced `global_seq`. -/
def countedCalls (log : List Event) : List Nat :=
  log.filterMap fun
    | .counted call => some call
    | _ => none

/-- The push calls that returned true. -/
def successfulPushes (log : List Event) : List Nat :=
  log.filterMap fun
    | .pushReturned call true => some call
    | _ => none

/-- The push calls that advanced `global_seq` and have not returned. -/
def accounting : Option Call → Option Nat
  | some ⟨id, .push _ _ (.refresh _)⟩ => some id
  | _ => none

/-- Neither a `counted` entry nor a successful push. -/
def Event.Neutral : Event → Prop
  | .counted _ => False
  | .pushReturned _ true => False
  | _ => True

theorem Neutral.lists {recorded : Option Event} (neutral : ∀ event ∈ recorded, event.Neutral) :
    countedCalls recorded.toList = [] ∧ successfulPushes recorded.toList = [] := by
  cases recorded with
  | none => exact ⟨rfl, rfl⟩
  | some event =>
      have kind := neutral event rfl
      cases event with
      | counted call => exact kind.elim
      | pushReturned call result =>
          cases result with
          | false => exact ⟨rfl, rfl⟩
          | true => exact kind.elim
      | _ => exact ⟨rfl, rfl⟩

/-- Every entry is neutral but those of a `fetch_add` and of a successful
return. -/
theorem event_neutral {id : Nat} {region : SharedRegion} {before after : Operation}
    (adds : ∀ workerIdx args, before ≠ .push workerIdx args .fetchAdd)
    (returns : ∀ workerIdx args, after ≠ .push workerIdx args (.returned true)) :
    ∀ event ∈ before.event id region after, event.Neutral := by
  intro event recorded
  rcases event_cases recorded with
    ⟨_, _, _, -, rfl⟩ | ⟨workerIdx, args, equal, -⟩ | ⟨_, -, rfl⟩ | ⟨_, -, rfl⟩ | outcome
  · trivial
  · exact absurd equal (adds workerIdx args)
  · trivial
  · trivial
  · unfold Operation.outcome at outcome
    split at outcome
    · next workerIdx args result =>
      cases outcome
      cases result with
      | false => trivial
      | true => exact absurd rfl (returns workerIdx args)
    all_goals cases outcome
    all_goals trivial

/-- What an action can do to the account of its call. -/
inductive Account (weak : Bool) (region : SharedRegion) (id : Nat) (operation : Operation) :
    Prop where
  | opens (before : accounting (some ⟨id, operation⟩) = none)
      (after : accounting (some ⟨id, (operation.step weak region).2⟩) = some id)
      (counter : (operation.step weak region).1.globalSeq = wrap64 (region.globalSeq + 1))
      (event : operation.event id region (operation.step weak region).2 = some (.counted id))
  | closes (before : accounting (some ⟨id, operation⟩) = some id)
      (after : accounting (some ⟨id, (operation.step weak region).2⟩) = none)
      (counter : (operation.step weak region).1.globalSeq = region.globalSeq)
      (event : operation.event id region (operation.step weak region).2 =
        some (.pushReturned id true))
  | keeps (same : accounting (some ⟨id, (operation.step weak region).2⟩) =
        accounting (some ⟨id, operation⟩))
      (counter : (operation.step weak region).1.globalSeq = region.globalSeq)
      (neutral : ∀ event ∈ operation.event id region (operation.step weak region).2,
        event.Neutral)

theorem transferStep_globalSeq (args : TransferArgs) (weak : Bool) (region : SharedRegion)
    (pc : TransferPc) : (transferStep args weak region pc).1.globalSeq = region.globalSeq := by
  by_cases inside : ∃ refresh, pc = .refresh refresh
  · obtain ⟨refresh, rfl⟩ := inside
    exact refreshStep_globalSeq weak region refresh
  · exact (transferStep_quiet args weak region fun refresh same => inside ⟨refresh, same⟩).2.1

theorem account (weak : Bool) (region : SharedRegion) (id : Nat) {operation : Operation}
    (running : operation.done = false) : Account weak region id operation := by
  cases operation with
  | push workerIdx args pc =>
      cases pc with
      | ring pc =>
          have leaves : ∀ pc', accounting (some ⟨id, .push workerIdx args (.ofRing pc')⟩) = none ∧
              RegionPushPc.ofRing pc' ≠ .returned true := by
            intro pc'
            unfold RegionPushPc.ofRing
            split <;> exact ⟨rfl, by simp⟩
          refine .keeps (leaves _).1 rfl (event_neutral (fun _ _ same => by cases same) ?_)
          intro idx pushed same
          simp only [Operation.step, pushStep, Operation.push.injEq] at same
          exact (leaves _).2 same.2.2
      | fetchAdd => exact .opens rfl rfl rfl rfl
      | refresh pc =>
          have counter := refreshStep_globalSeq weak region pc
          cases next : (refreshStep weak region pc).2 with
          | returned =>
              refine .closes rfl ?_ counter ?_
              · simp only [Operation.step, pushStep, next]
                rfl
              · simp only [Operation.step, pushStep, next]
                rfl
          | _ =>
              refine .keeps ?_ counter (event_neutral (fun _ _ same => by cases same) ?_)
              · simp only [Operation.step, pushStep, next]
                rfl
              · simp [Operation.step, pushStep, next, RegionPushPc.ofRefresh]
      | returned result => cases running
  | pop workerIdx size pc =>
      exact .keeps rfl rfl (event_neutral (fun _ _ same => by cases same) fun _ _ same => by
        cases same)
  | transfer args pc =>
      exact .keeps rfl (transferStep_globalSeq args weak region pc)
        (event_neutral (fun _ _ same => by cases same) fun _ _ same => by cases same)
  | read logicalRing pc =>
      exact .keeps rfl rfl (event_neutral (fun _ _ same => by cases same) fun _ _ same => by
        cases same)
  | valid token pc =>
      exact .keeps rfl rfl (event_neutral (fun _ _ same => by cases same) fun _ _ same => by
        cases same)

/-- The counter and the calls it counts. -/
structure Accounted (state : State) : Prop where
  counter : state.region.globalSeq = (countedCalls state.log).length
  inFlight : ∀ id, Claimed accounting state.threads id →
    (countedCalls state.log).count id = (successfulPushes state.log).count id + 1
  settled : ∀ id, ¬ Claimed accounting state.threads id →
    (countedCalls state.log).count id = (successfulPushes state.log).count id

theorem accounted_start (storage : SharedRegion) : Accounted (start storage) where
  counter := by
    rw [start]
    exact freshRegion_globalSeq storage
  inFlight := by
    rintro id ⟨thread, impossible⟩
    cases impossible
  settled := fun _ _ => rfl

@[simp] theorem countedCalls_append (log events : List Event) :
    countedCalls (log ++ events) = countedCalls log ++ countedCalls events := by
  simp [countedCalls]

@[simp] theorem successfulPushes_append (log events : List Event) :
    successfulPushes (log ++ events) = successfulPushes log ++ successfulPushes events := by
  simp [successfulPushes]

/-- A process that is in no account moves to another such place. -/
theorem Accounted.keep {state : State} (accounted : Accounted state) {region : SharedRegion}
    {thread : Nat} {next : Option Call} {recorded : Option Event} (calls : Nat)
    (same : accounting next = accounting (state.threads thread))
    (counter : region.globalSeq = state.region.globalSeq)
    (neutral : ∀ event ∈ recorded, event.Neutral) :
    Accounted ⟨region, Function.update state.threads thread next, state.log ++ recorded.toList,
      calls⟩ := by
  obtain ⟨noCount, noSuccess⟩ := Neutral.lists neutral
  refine ⟨?_, ?_, ?_⟩
  · simp only [countedCalls_append, noCount, List.append_nil, counter]
    exact accounted.counter
  · intro id claimed
    simp only [countedCalls_append, successfulPushes_append, noCount, noSuccess, List.append_nil]
    exact accounted.inFlight id ((claimed_update_same same id).mp claimed)
  · intro id free
    simp only [countedCalls_append, successfulPushes_append, noCount, noSuccess, List.append_nil]
    exact accounted.settled id fun claimed => free ((claimed_update_same same id).mpr claimed)

theorem accounting_id {call : Call} {id : Nat} (held : accounting (some call) = some id) :
    call.id = id := by
  unfold accounting at held
  split at held
  · next same =>
    cases held
    cases same
    rfl
  · cases held

theorem accounting_callId {call : Option Call} {id : Nat} (held : accounting call = some id) :
    callId call = some id := by
  cases call with
  | none => cases held
  | some call => exact congrArg some (accounting_id held)

theorem accounting_exclusive {state : State} (numbered : Numbered state) :
    Exclusive accounting state.threads := by
  intro left right id leftHolds rightHolds
  exact numbered.distinct left right id (accounting_callId leftHolds)
    (accounting_callId rightHolds)

theorem Accounted.open {state : State} (accounted : Accounted state) {region : SharedRegion}
    {thread id : Nat} {next : Option Call} (calls : Nat)
    (before : accounting (state.threads thread) = none) (after : accounting next = some id)
    (free : ¬ Claimed accounting state.threads id)
    (counter : region.globalSeq = state.region.globalSeq + 1) :
    Accounted ⟨region, Function.update state.threads thread next,
      state.log ++ [.counted id], calls⟩ := by
  have counted : countedCalls [.counted id] = [id] := rfl
  have unreturned : successfulPushes [.counted id] = [] := rfl
  refine ⟨?_, ?_, ?_⟩
  · simp only [countedCalls_append, counted, List.length_append, List.length_singleton, counter,
      accounted.counter]
  · intro other claimed
    simp only [countedCalls_append, successfulPushes_append, counted, unreturned, List.append_nil,
      List.count_append]
    rcases (claimed_update_take before after other).mp claimed with old | rfl
    · have different : id ≠ other := by
        rintro rfl
        exact free old
      rw [accounted.inFlight other old, List.count_singleton]
      simp [different]
    · rw [accounted.settled other free]
      simp
  · intro other unclaimed
    rw [claimed_update_take before after other, not_or] at unclaimed
    simp only [countedCalls_append, successfulPushes_append, counted, unreturned, List.append_nil,
      List.count_append]
    rw [accounted.settled other unclaimed.1, List.count_singleton]
    simp [Ne.symm unclaimed.2]

theorem Accounted.close {state : State} (accounted : Accounted state)
    (exclusive : Exclusive accounting state.threads) {region : SharedRegion}
    {thread id : Nat} {next : Option Call} (calls : Nat)
    (before : accounting (state.threads thread) = some id) (after : accounting next = none)
    (counter : region.globalSeq = state.region.globalSeq) :
    Accounted ⟨region, Function.update state.threads thread next,
      state.log ++ [.pushReturned id true], calls⟩ := by
  have uncounted : countedCalls [.pushReturned id true] = [] := rfl
  have returned : successfulPushes [.pushReturned id true] = [id] := rfl
  refine ⟨?_, ?_, ?_⟩
  · simp only [countedCalls_append, uncounted, List.append_nil, counter]
    exact accounted.counter
  · intro other claimed
    obtain ⟨old, different⟩ := (claimed_update_drop exclusive before after other).mp claimed
    simp only [countedCalls_append, successfulPushes_append, uncounted, returned, List.append_nil,
      List.count_append]
    rw [accounted.inFlight other old, List.count_singleton]
    simp [Ne.symm different]
  · intro other unclaimed
    rw [claimed_update_drop exclusive before after other] at unclaimed
    simp only [countedCalls_append, successfulPushes_append, uncounted, returned, List.append_nil,
      List.count_append]
    by_cases same : other = id
    · subst same
      rw [accounted.inFlight other ⟨thread, before⟩]
      simp
    · rw [accounted.settled other fun old => unclaimed ⟨old, same⟩, List.count_singleton]
      simp [Ne.symm same]

theorem Accounted.advance {state : State} (accounted : Accounted state)
    (numbered : Numbered state) {thread : Nat} {call : Call} (weak : Bool)
    (running : state.threads thread = some call) (unfinished : call.operation.done = false)
    (small : state.region.globalSeq < 2 ^ 32) :
    Accounted (state.advance thread weak call) := by
  obtain ⟨id, operation⟩ := call
  cases account weak state.region id unfinished with
  | opens before after counter event =>
      have free : ¬ Claimed accounting state.threads id := by
        rintro ⟨other, holds⟩
        have mine : callId (state.threads thread) = some id := by rw [running]; rfl
        obtain rfl := numbered.distinct other thread id (accounting_callId holds) mine
        rw [running, before] at holds
        cases holds
      rw [wrap64_of_lt (by omega)] at counter
      simp only [State.advance, event]
      exact accounted.open _ (by rw [running]; exact before) after free counter
  | closes before after counter event =>
      simp only [State.advance, event]
      exact accounted.close (accounting_exclusive numbered) _ (by rw [running]; exact before)
        after counter
  | keeps same counter neutral =>
      exact accounted.keep state.calls (by rw [running]; exact same) counter neutral

theorem accounted_step {before after : State} (accounted : Accounted before)
    (numbered : Numbered before) (small : before.region.globalSeq < 2 ^ 32)
    (step : FewCommits before after) : Accounted after := by
  obtain ⟨label, -, rfl⟩ := step
  refine apply_induction (motive := Accounted) label accounted ?_ ?_ ?_
  · intro thread request idle
    refine accounted.keep _ ?_ rfl ?_
    · rw [idle]
      cases request with
      | push workerIdx args => simp only [Request.enter, RegionPushPc.enter]; split <;> rfl
      | _ => rfl
    · intro event recorded
      rcases Request.enter_outcome recorded with rfl | ⟨ring, rfl⟩ | ⟨ring, rfl⟩ | ⟨token, rfl⟩
      · trivial
      · trivial
      · trivial
      · trivial
  · intro thread weak call running unfinished
    exact accounted.advance numbered weak running unfinished small
  · intro thread call running done
    have away : accounting none = accounting (before.threads thread) := by
      rw [running]
      obtain ⟨id, operation⟩ := call
      cases operation with
      | push workerIdx args pc => cases pc <;> first | rfl | cases done
      | _ => rfl
    have silent : ∀ event ∈ (none : Option Event), event.Neutral := by simp
    have kept := accounted.keep before.calls away rfl silent
    simpa only [Option.toList_none, List.append_nil, State.finish] using kept

/-! ### Runs -/

/-- No call is in flight. -/
def Quiescent (state : State) : Prop :=
  ∀ thread call, state.threads thread = some call → call.operation.done = true

/-- The sequence number whose hash is stored in the integrity word. -/
def Hashed (state : State) (seq : Nat) : Prop :=
  seq < 2 ^ 32 ∧ state.region.integrityWord = regionIntegrityAt state.region seq

theorem Converging.hashed {state : State} {stored : Nat} (converging : Converging state stored) :
    Hashed state stored :=
  ⟨lt_of_le_of_lt converging.bounded converging.small, converging.word⟩

theorem Hashed.unique {state : State} {left right : Nat} (first : Hashed state left)
    (second : Hashed state right) : left = right :=
  regionIntegrityAt_injective state.region first.1 second.1 (first.2.symm.trans second.2)

/-- Every reachable state converges, and its calls are accounted for. -/
theorem reachable_accounted {storage : SharedRegion} {state : State}
    (reach : Reachable FewCommits (start storage) state) :
    (∃ stored, Converging state stored) ∧ Numbered state ∧ Accounted state := by
  refine reach.invariant (motive := fun state => (∃ stored, Converging state stored) ∧
    Numbered state ∧ Accounted state)
    ⟨⟨0, converging_start storage⟩, numbered_start storage, accounted_start storage⟩ ?_
  rintro before after - ⟨⟨stored, converging⟩, numbered, accounted⟩ step
  obtain ⟨later, -, converges⟩ := converging_step converging step
  refine ⟨⟨later, converges⟩, ?_, accounted_step accounted numbered converging.small step⟩
  obtain ⟨label, -, rfl⟩ := step
  exact numbered_apply numbered label

theorem Quiescent.refreshOf_none {state : State} (quiescent : Quiescent state) (thread : Nat) :
    refreshOf (state.threads thread) = none := by
  cases running : state.threads thread with
  | none => rfl
  | some call =>
      have done := quiescent thread call running
      obtain ⟨id, operation⟩ := call
      cases operation with
      | push workerIdx args pc => cases pc <;> first | rfl | cases done
      | transfer args pc => cases pc <;> first | rfl | cases done
      | _ => rfl

theorem Quiescent.unclaimed {state : State} (quiescent : Quiescent state) (id : Nat) :
    ¬ Claimed accounting state.threads id := by
  rintro ⟨thread, holds⟩
  have outside := quiescent.refreshOf_none thread
  cases running : state.threads thread with
  | none =>
      rw [running] at holds
      cases holds
  | some call =>
      rw [running] at holds outside
      unfold accounting at holds
      split at holds
      · next same =>
        cases same
        cases outside
      · cases holds

/-- The word only advances, and at quiescence it hashes the counter, which
counts the successful pushes. -/
theorem integrity_word_converges (storage : SharedRegion) (state : State)
    (reach : Reachable FewCommits (start storage) state) :
    (Quiescent state →
      state.region.globalSeq = (successfulPushes state.log).length ∧
        state.region.integrityWord = computeRegionIntegrity state.region) ∧
    (∃ stored, Hashed state stored) ∧
    ∀ later, Reachable FewCommits state later → ∀ stored stored',
      Hashed state stored → Hashed later stored' → stored ≤ stored' := by
  obtain ⟨⟨stored, converging⟩, numbered, accounted⟩ := reachable_accounted reach
  refine ⟨fun quiescent => ⟨?_, ?_⟩, ⟨stored, converging.hashed⟩, ?_⟩
  · have balanced : (countedCalls state.log).Perm (successfulPushes state.log) :=
      List.perm_iff_count.mpr fun id => accounted.settled id (quiescent.unclaimed id)
    rw [accounted.counter, balanced.length_eq]
  · rcases converging.covered with done | ⟨thread, pc, inside, -⟩
    · rw [converging.word, done, computeRegionIntegrity]
    · rw [quiescent.refreshOf_none thread] at inside
      cases inside
  · intro later further first second hashedFirst hashedSecond
    obtain ⟨final, more, converges⟩ := reachable_converging converging further
    rw [hashedFirst.unique converging.hashed, hashedSecond.unique converges.hashed]
    exact more

/-- A push that runs to its end. -/
def onePush : List Label :=
  .start 0 (.push 1 (.badCrc [1, 2] (by decide))) :: List.replicate 10 (.advance 0 false) ++
    [.finish 0]

theorem integrity_word_converges_onePush :
    let state := onePush.foldl apply (start zeroed)
    state.region.globalSeq = 1 ∧
      state.region.globalSeq = (successfulPushes state.log).length ∧
      state.region.integrityWord = computeRegionIntegrity state.region := by
  intro state
  have reach : Reachable FewCommits (start zeroed) state :=
    reachable_of_allows _ _ (by rw [start_zeroed]; decide +kernel)
  have ended : (state.threads 0).isNone = true ∧ state.region.globalSeq = 1 := by
    simp only [state, start_zeroed]
    decide +kernel
  have idle : Quiescent state := by
    intro thread call running
    by_cases same : thread = 0
    · subst same
      have left := ended.1
      simp [running] at left
    · have untouched : ∀ label ∈ onePush, label.thread ≠ thread := by
        simp [onePush, Label.thread, Ne.symm same]
      rw [foldl_apply_threads onePush (start zeroed) untouched] at running
      cases running
  exact ⟨ended.2, (integrity_word_converges zeroed state reach).1 idle⟩

end SafetyCrit.SharedMemory.RegionMachine
