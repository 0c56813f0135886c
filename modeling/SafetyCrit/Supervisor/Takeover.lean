import SafetyCrit.Library.Run
import SafetyCrit.SharedMemory.RingView
import SafetyCrit.Workers.WorkerEntry

/-!
Owns the handover of a ring while the new owner is already running.

The old owner pushes until it dies, possibly holding a claim. Then one
`transfer_ownership` call, the new owner's program and a consumer interleave
action by action. The transfer publishes the new epoch before it looks at the
tail, so its rollback loop can meet a claim of the new owner; as long as it does
not inspect one, the ring stays coherent.
-/

namespace SafetyCrit.Supervisor.Takeover

open SafetyCrit.Library
open SafetyCrit.Library.Run
open SafetyCrit.Library.Claims
open SafetyCrit.SharedMemory
open SafetyCrit.SharedMemory.RegionMachine (Request Operation Call threadOn committedOn RingCoherent
  rollsBack ringCoherent_apply tail_apply_le tail_le_apply finish_apply)
open SafetyCrit.Workers

/-! ### The machine -/

/-- The process that owned the ring. -/
def oldOwner : Nat := 0

/-- The process that pops the ring. -/
def consumer : Nat := 1

/-- The process that transfers the ring. -/
def supervisor : Nat := 2

/-- The process that takes the ring over. -/
def newOwner : Nat := 3

/-- The region and its processes, whether the old owner is dead, and where the
new owner's program stands. -/
structure State where
  machine : RegionMachine.State
  dead : Bool
  worker : WorkerPc

/-- One scheduling choice: a step of the region machine, the old owner's death,
and the two ends of a call of the new owner's program. -/
inductive Label where
  | act (label : RegionMachine.Label)
  | die
  | call (args : PushArgs kRing)
  | resume

/-- One step. -/
def apply (config : WorkerConfig) (state : State) : Label → State
  | .act label => { state with machine := RegionMachine.apply state.machine label }
  | .die => { state with dead := true }
  | .call args =>
      match state.worker.request args with
      | none => state
      | some request =>
          { state with machine := RegionMachine.apply state.machine (.start newOwner request) }
  | .resume =>
      match state.machine.threads newOwner with
      | none => state
      | some call =>
          if call.operation.done then
            { state with
              machine := RegionMachine.apply state.machine (.finish newOwner)
              worker := state.worker.resume config call.operation }
          else state

/-- A freshly initialized region with the new owner about to start. -/
def start (config : WorkerConfig) (storage : SharedRegion) : State :=
  ⟨RegionMachine.start storage, false, config.entry⟩

/-- A push to the ring. -/
def pushesTo (ring : Nat) : Request → Bool
  | .push workerIdx _ => decide (workerIdx = ring)
  | _ => false

/-- A pop of the ring. -/
def popsFrom (ring : Nat) : Request → Bool
  | .pop workerIdx _ => decide (workerIdx = ring)
  | _ => false

/-- The transfer `args`. -/
def transfers (args : TransferArgs) : Request → Bool
  | .transfer other => decide (other = args)
  | _ => false

/-- Who may do what: the old owner pushes while it lives, the consumer pops, the
supervisor makes one transfer after the death. Positions stay in the range of
the ring's signed differences. -/
def Scheduled (args : TransferArgs) (state : State) (label : Label) : Prop :=
  (state.machine.region.rings args.logicalRing).tail + 1 < 2 ^ 63 ∧
    match label with
    | .act (.start thread request) =>
        thread = oldOwner ∧ state.dead = false ∧ pushesTo args.logicalRing request = true ∨
          thread = consumer ∧ popsFrom args.logicalRing request = true ∨
            thread = supervisor ∧ state.dead = true ∧ transfers args request = true
    | .act (.advance thread _) => thread = oldOwner → state.dead = false
    | .act (.finish thread) => thread = oldOwner ∧ state.dead = false ∨ thread = consumer
    | _ => True

/-- The rollback loop is about to load the sequence of a slot on which the new
owner holds an uncommitted claim. -/
def claimInspected (args : TransferArgs) (state : State) : Bool :=
  match state.machine.threads supervisor with
  | some ⟨_, .transfer _ (.loadSequence tail)⟩ =>
      decide ((threadOn args.logicalRing (state.machine.threads newOwner)).writes = some (tail - 1))
  | _ => false

/-- The rollback loop never does that. -/
def ClaimUninspected (args : TransferArgs) (state : State) : Label → Prop
  | .act (.advance thread _) => thread = supervisor → claimInspected args state = false
  | _ => True

instance (args : TransferArgs) (state : State) (label : Label) :
    Decidable (Scheduled args state label) :=
  match label with
  | .act (.start _ _) => inferInstanceAs (Decidable (_ ∧ (_ ∨ _)))
  | .act (.advance _ _) => inferInstanceAs (Decidable (_ ∧ (_ → _)))
  | .act (.finish _) => inferInstanceAs (Decidable (_ ∧ (_ ∨ _)))
  | .die => inferInstanceAs (Decidable (_ ∧ True))
  | .call _ => inferInstanceAs (Decidable (_ ∧ True))
  | .resume => inferInstanceAs (Decidable (_ ∧ True))

instance (args : TransferArgs) (state : State) (label : Label) :
    Decidable (ClaimUninspected args state label) :=
  match label with
  | .act (.start _ _) => inferInstanceAs (Decidable True)
  | .act (.advance _ _) => inferInstanceAs (Decidable (_ → _))
  | .act (.finish _) => inferInstanceAs (Decidable True)
  | .die => inferInstanceAs (Decidable True)
  | .call _ => inferInstanceAs (Decidable True)
  | .resume => inferInstanceAs (Decidable True)

/-! ### The invariant -/

/-- What the rollback loop's local variables say. -/
def RollbackFacts (tail : Nat) (abandoned : Option Nat) : TransferPc → Prop
  | .loadHead seen => seen ≤ tail
  | .loadSequence seen => 0 < seen ∧ seen ≤ tail
  | .casTail seen => 0 < seen ∧ abandoned = some (seen - 1)
  | _ => True

/-- The rollback loop is over. -/
def RollbackDone : TransferPc → Prop
  | .refresh _ => True
  | .returned _ => True
  | _ => False

/-- What is said of the supervisor's transfer. -/
def OfTransfer (facts : TransferPc → Prop) : Option Call → Prop
  | some ⟨_, .transfer _ pc⟩ => facts pc
  | _ => True

/-- The calls each process may be in. -/
def Permits (args : TransferArgs) (dead : Bool) (thread : Nat) : Request → Prop
  | .transfer other => thread = supervisor ∧ other = args ∧ dead = true
  | .push workerIdx _ => workerIdx = args.logicalRing → thread = oldOwner ∨ thread = newOwner
  | _ => True

/-- The ring is coherent; once the dead owner's claim was rolled back, it is so
without that process. -/
def Handed (args : TransferArgs) (state : State) : Prop :=
  RingCoherent args.logicalRing state.machine ∧
      OfTransfer (RollbackFacts (state.machine.region.rings args.logicalRing).tail
        (threadOn args.logicalRing (state.machine.threads oldOwner)).writes)
        (state.machine.threads supervisor) ∨
    RingCoherent args.logicalRing (state.machine.finish oldOwner) ∧
      ∃ id pc, state.machine.threads supervisor = some ⟨id, .transfer args pc⟩ ∧ RollbackDone pc

/-- What every permitted run keeps. -/
structure Sound (args : TransferArgs) (state : State) : Prop where
  roles : ∀ thread call, state.machine.threads thread = some call →
    Permits args state.dead thread call.operation.request
  handed : Handed args state
  small : (state.machine.region.rings args.logicalRing).tail < 2 ^ 63

variable {args : TransferArgs} {state : State}

theorem sound_start (config : WorkerConfig) (storage : SharedRegion)
    (below : args.logicalRing < kMaxWorkers) : Sound args (start config storage) where
  roles := by
    intro thread call running
    cases running
  handed := Or.inl ⟨RegionMachine.ringCoherent_start storage below, trivial⟩
  small := by
    simp only [start, RegionMachine.start, freshRegion_rings storage below,
      RingBuffer.initializeRing_eq]
    decide

/-- A running transfer is the supervisor's. -/
theorem Sound.rollsBack_supervisor (sound : Sound args state) {thread : Nat} {call : Call}
    (running : state.machine.threads thread = some call) (other : thread ≠ supervisor) :
    rollsBack args.logicalRing call.operation = false := by
  have role := sound.roles thread call running
  obtain ⟨id, operation⟩ := call
  cases operation with
  | transfer transferred pc => exact absurd role.1 other
  | _ => rfl

/-- What a step of the region machine must respect here. -/
structure Fits (args : TransferArgs) (state : State) (label : RegionMachine.Label) : Prop where
  room : (state.machine.region.rings args.logicalRing).tail + 1 < 2 ^ 63
  alive : label.thread = oldOwner → state.dead = false
  enters : ∀ thread request, label = .start thread request → Permits args state.dead thread request
  keeps : ∀ thread, label = .finish thread → thread ≠ supervisor
  uninspected : ClaimUninspected args state (.act label)

/-- While the transfer runs, the old owner is dead and does not move. -/
theorem Sound.frozen (sound : Sound args state) {label : RegionMachine.Label}
    (fits : Fits args state label) {thread id : Nat} {other : TransferArgs} {pc : TransferPc}
    (running : state.machine.threads thread = some ⟨id, .transfer other pc⟩) :
    label.thread ≠ oldOwner := by
  intro mine
  have dead : state.dead = true := (sound.roles thread _ running).2.2
  rw [fits.alive mine] at dead
  cases dead

theorem Sound.roles_apply (sound : Sound args state) {label : RegionMachine.Label}
    (fits : Fits args state label) (thread : Nat) (call : Call)
    (running : (RegionMachine.apply state.machine label).threads thread = some call) :
    Permits args state.dead thread call.operation.request := by
  rcases RegionMachine.apply_request running with ⟨before, already, same⟩ | entered
  · rw [← same]
    exact sound.roles thread before already
  · exact fits.enters thread _ entered

theorem RollbackFacts.mono {tail tail' : Nat} {abandoned : Option Nat} {pc : TransferPc}
    (facts : RollbackFacts tail abandoned pc) (grows : tail ≤ tail') :
    RollbackFacts tail' abandoned pc := by
  cases pc with
  | loadHead seen => exact le_trans facts grows
  | loadSequence seen => exact ⟨facts.1, le_trans facts.2 grows⟩
  | _ => exact facts

/-- A step of any process but the supervisor. -/
theorem Sound.others (sound : Sound args state) {label : RegionMachine.Label}
    (fits : Fits args state label) (other : label.thread ≠ supervisor) (worker : WorkerPc) :
    Sound args ⟨RegionMachine.apply state.machine label, state.dead, worker⟩ := by
  have calm : ∀ call, state.machine.threads label.thread = some call →
      rollsBack args.logicalRing call.operation = false :=
    fun call running => sound.rollsBack_supervisor running other
  have room := fits.room
  have small : (state.machine.region.rings args.logicalRing).tail + 1 < 2 ^ 64 := by omega
  have grows := tail_le_apply small label calm
  have supervising := RegionMachine.apply_threads state.machine label other
  refine ⟨sound.roles_apply fits, ?_, ?_⟩
  · rcases sound.handed with ⟨coherent, facts⟩ | ⟨coherent, id, pc, running, done⟩
    · refine Or.inl ⟨ringCoherent_apply coherent sound.small label calm, ?_⟩
      simp only [supervising]
      cases transfer : state.machine.threads supervisor with
      | none => trivial
      | some call =>
          obtain ⟨id, operation⟩ := call
          cases operation with
          | transfer transferred pc =>
              have frozen := sound.frozen fits transfer
              rw [transfer] at facts
              rw [RegionMachine.apply_threads state.machine label frozen]
              exact RollbackFacts.mono facts grows
          | _ => trivial
    · have frozen := sound.frozen fits running
      refine Or.inr ⟨?_, id, pc, ?_, done⟩
      · simp only [finish_apply label frozen]
        refine ringCoherent_apply coherent sound.small label fun call acting => calm call ?_
        rw [← acting]
        exact (Function.update_of_ne frozen _ _).symm
      · simp only [supervising]
        exact running
  · have bounded := tail_apply_le small label
    simp only
    omega

/-! ### The transfer -/

/-- A slot the rollback loop finds uncommitted belongs to the dead owner. -/
theorem Sound.abandoned (sound : Sound args state)
    (coherent : RingCoherent args.logicalRing state.machine) {seen : Nat} (positive : 0 < seen)
    (below : seen ≤ (state.machine.region.rings args.logicalRing).tail)
    (offered : ((state.machine.region.rings args.logicalRing).cellAt kRing (seen - 1)).sequence =
      seen - 1)
    (uninspected : (threadOn args.logicalRing (state.machine.threads newOwner)).writes ≠
      some (seen - 1)) :
    (threadOn args.logicalRing (state.machine.threads oldOwner)).writes = some (seen - 1) := by
  have stamp : (state.machine.region.rings args.logicalRing).counters.stamp
      ((seen - 1) % kRing.slotCount) = seen - 1 := by
    rw [RingBuffer.counters_stamp]
    exact offered
  have high : seen - 1 < (state.machine.region.rings args.logicalRing).counters.tail := by
    change seen - 1 < (state.machine.region.rings args.logicalRing).tail
    omega
  obtain ⟨thread, writes⟩ := coherent.window.claimed_of_offered kRing.atLeastTwo high stamp
  obtain ⟨id, pushed, pc, running, -⟩ := RegionMachine.threadOn_writes writes
  have role := sound.roles thread _ running
  rcases role rfl with rfl | rfl
  · exact writes
  · exact absurd writes uninspected

/-- The tail compare-exchange takes the dead owner's claim back. -/
theorem rollback_handed (coherent : RingCoherent args.logicalRing state.machine) {seen id : Nat}
    (abandoned : (threadOn args.logicalRing (state.machine.threads oldOwner)).writes =
      some (seen - 1)) (positive : 0 < seen)
    (running : state.machine.threads supervisor = some ⟨id, .transfer args (.casTail seen)⟩)
    (newest : (state.machine.region.rings args.logicalRing).tail = seen) :
    RingCoherent args.logicalRing
      ((state.machine.advance supervisor false ⟨id, .transfer args (.casTail seen)⟩).finish
        oldOwner) := by
  have rolled := Coherent.rollback coherent abandoned (by omega)
  have step : transferStep args false state.machine.region (.casTail seen) =
      (state.machine.region.setRing args.logicalRing
        { state.machine.region.rings args.logicalRing with tail := seen - 1 },
        .refresh .loadWord) := by
    simp only [transferStep, newest]
    exact if_pos ⟨trivial, trivial⟩
  rw [RingCoherent]
  simp only [RegionMachine.State.finish, RegionMachine.State.advance, Operation.step, step,
    SharedRegion.setRing_rings, Function.update_self, RegionMachine.threadOn_update]
  have unmoved : Function.update
      (fun thread => threadOn args.logicalRing (state.machine.threads thread)) supervisor
        (threadOn args.logicalRing (some ⟨id, .transfer args (.refresh .loadWord)⟩)) =
      fun thread => threadOn args.logicalRing (state.machine.threads thread) := by
    rw [show threadOn args.logicalRing (some ⟨id, .transfer args (.refresh .loadWord)⟩) =
      threadOn args.logicalRing (state.machine.threads supervisor) by rw [running]; rfl]
    exact Function.update_eq_self _ _
  rw [unmoved]
  refine rolled.congr fun position record => ?_
  rw [RegionMachine.committedOn_append]
  simp [Operation.event, Operation.outcome]

/-- Where the rollback loop goes next. -/
theorem Sound.rollbackFacts_step (sound : Sound args state)
    (coherent : RingCoherent args.logicalRing state.machine) {id : Nat} {pc : TransferPc}
    (weak : Bool)
    (running : state.machine.threads supervisor = some ⟨id, .transfer args pc⟩)
    (facts : RollbackFacts (state.machine.region.rings args.logicalRing).tail
      (threadOn args.logicalRing (state.machine.threads oldOwner)).writes pc)
    (uninspected : ClaimUninspected args state (.act (.advance supervisor weak))) :
    RollbackFacts (state.machine.region.rings args.logicalRing).tail
        (threadOn args.logicalRing (state.machine.threads oldOwner)).writes
        (transferStep args weak state.machine.region pc).2 ∨
      RollbackDone (transferStep args weak state.machine.region pc).2 := by
  cases pc with
  | loadTail => exact Or.inl le_rfl
  | loadHead seen =>
      simp only [transferStep]
      split
      · exact Or.inr trivial
      · next nonempty => exact Or.inl ⟨by omega, facts⟩
  | loadSequence seen =>
      simp only [transferStep]
      split
      · exact Or.inr trivial
      · next offered =>
        have apart : (threadOn args.logicalRing (state.machine.threads newOwner)).writes ≠
            some (seen - 1) := by
          have clear := uninspected rfl
          simpa [claimInspected, running] using clear
        exact Or.inl ⟨facts.1, sound.abandoned coherent facts.1 facts.2 (not_not.mp offered) apart⟩
  | casTail seen =>
      simp only [transferStep]
      split
      · exact Or.inr trivial
      · exact Or.inl trivial
  | refresh pc =>
      refine Or.inr ?_
      simp only [transferStep]
      cases (refreshStep weak state.machine.region pc).2 <;> trivial
  | returned result => exact Or.inr trivial
  | loadEpoch => simp only [transferStep]; split <;> exact Or.inl trivial
  | casEpoch => simp only [transferStep]; split <;> exact Or.inl trivial
  | casOwner => simp only [transferStep]; split <;> exact Or.inl trivial
  | restoreEpoch => exact Or.inl trivial
  | publishEpoch => exact Or.inl trivial

theorem rollbackFacts_of_done {tail : Nat} {abandoned : Option Nat} {pc : TransferPc}
    (done : RollbackDone pc) : RollbackFacts tail abandoned pc := by
  cases pc with
  | loadHead seen => exact done.elim
  | loadSequence seen => exact done.elim
  | casTail seen => exact done.elim
  | _ => trivial

theorem rollbackDone_step {weak : Bool} {region : SharedRegion} {pc : TransferPc}
    (done : RollbackDone pc) : RollbackDone (transferStep args weak region pc).2 := by
  cases pc with
  | refresh pc =>
      simp only [transferStep]
      cases (refreshStep weak region pc).2 <;> trivial
  | returned result => trivial
  | _ => exact done.elim

/-- An action of the transfer. -/
theorem Sound.transferring (sound : Sound args state) {id : Nat} {pc : TransferPc} (weak : Bool)
    (running : state.machine.threads supervisor = some ⟨id, .transfer args pc⟩)
    (uninspected : ClaimUninspected args state (.act (.advance supervisor weak))) :
    Handed args ⟨state.machine.advance supervisor weak ⟨id, .transfer args pc⟩, state.dead,
      state.worker⟩ := by
  have moved : (state.machine.advance supervisor weak ⟨id, .transfer args pc⟩).threads supervisor =
      some ⟨id, .transfer args (transferStep args weak state.machine.region pc).2⟩ :=
    state.machine.advance_self supervisor weak _
  have resting : (state.machine.advance supervisor weak ⟨id, .transfer args pc⟩).threads oldOwner =
      state.machine.threads oldOwner := state.machine.advance_other weak _ (by decide)
  rcases sound.handed with ⟨coherent, facts⟩ | ⟨coherent, id', pc', running', done⟩
  · rw [running] at facts
    have next := sound.rollbackFacts_step coherent weak running facts uninspected
    by_cases takesBack : ∃ seen, pc = .casTail seen ∧
        (state.machine.region.rings args.logicalRing).tail = seen ∧ weak = false
    · obtain ⟨seen, rfl, newest, rfl⟩ := takesBack
      refine Or.inr ⟨rollback_handed coherent facts.2 facts.1 running newest, id, _, moved, ?_⟩
      simp only [transferStep]
      rw [if_pos ⟨newest, trivial⟩]
      trivial
    · have kept : (transferStep args weak state.machine.region pc).1.rings args.logicalRing =
          state.machine.region.rings args.logicalRing := by
        cases pc with
        | casTail seen =>
            simp only [transferStep]
            rw [if_neg fun claims => takesBack ⟨seen, rfl, claims⟩]
        | _ => exact RegionMachine.transferStep_rings args weak state.machine.region _ rfl
      refine Or.inl ⟨coherent.elsewhere weak running kept rfl rfl, ?_⟩
      change OfTransfer (RollbackFacts
        ((transferStep args weak state.machine.region pc).1.rings args.logicalRing).tail
        (threadOn args.logicalRing ((state.machine.advance supervisor weak _).threads
          oldOwner)).writes) ((state.machine.advance supervisor weak _).threads supervisor)
      rw [kept, resting, moved]
      exact next.elim (fun facts => facts) rollbackFacts_of_done
  · rw [running] at running'
    cases running'
    refine Or.inr ⟨?_, id, _, moved, rollbackDone_step done⟩
    have apart : supervisor ≠ oldOwner := by decide
    have swap : (state.machine.advance supervisor weak ⟨id, .transfer args pc⟩).finish oldOwner =
        (state.machine.finish oldOwner).advance supervisor weak ⟨id, .transfer args pc⟩ := by
      simp only [RegionMachine.State.advance, RegionMachine.State.finish,
        Function.update_comm apart]
    simp only [swap]
    have calm : rollsBack args.logicalRing (.transfer args pc) = false := by
      cases pc with
      | casTail seen => exact done.elim
      | _ => rfl
    refine coherent.advance sound.small weak ?_ calm
    rw [← running]
    exact Function.update_of_ne apart none state.machine.threads

/-- A step of the supervisor. -/
theorem Sound.supervising (sound : Sound args state) {label : RegionMachine.Label}
    (fits : Fits args state label) (mine : label.thread = supervisor) :
    Sound args ⟨RegionMachine.apply state.machine label, state.dead, state.worker⟩ := by
  have room := fits.room
  refine ⟨sound.roles_apply fits, ?_, ?_⟩
  · cases label with
    | finish thread => exact absurd mine (fits.keeps thread rfl)
    | start thread request =>
        obtain rfl : thread = supervisor := mine
        simp only [RegionMachine.apply]
        split
        · next idle =>
          rcases sound.handed with ⟨coherent, -⟩ | ⟨-, id, pc, running, -⟩
          · refine Or.inl ⟨coherent.enter idle request, ?_⟩
            simp only [RegionMachine.State.enter, Function.update_self]
            cases request with
            | transfer other =>
                simp only [Request.enter, TransferPc.enter]
                split <;> trivial
            | _ => trivial
          · rw [idle] at running
            cases running
        · exact sound.handed
    | advance thread weak =>
        obtain rfl : thread = supervisor := mine
        simp only [RegionMachine.apply]
        split
        · exact sound.handed
        · next call running =>
          split
          · exact sound.handed
          · have role := sound.roles supervisor call running
            obtain ⟨id, operation⟩ := call
            cases operation with
            | transfer other pc =>
                obtain ⟨-, rfl, -⟩ := role
                exact sound.transferring weak running fits.uninspected
            | _ =>
                -- the supervisor has not started its transfer yet
                rcases sound.handed with ⟨coherent, -⟩ | ⟨-, id', pc', running', -⟩
                · refine Or.inl ⟨coherent.advance sound.small weak running rfl, ?_⟩
                  rw [RegionMachine.State.advance_self]
                  trivial
                · rw [running] at running'
                  cases running'
  · have small : (state.machine.region.rings args.logicalRing).tail + 1 < 2 ^ 64 := by omega
    have bounded := tail_apply_le small label
    simp only
    omega

/-- A permitted step of the region machine. -/
theorem Sound.act (sound : Sound args state) {label : RegionMachine.Label}
    (fits : Fits args state label) (worker : WorkerPc) :
    Sound args ⟨RegionMachine.apply state.machine label, state.dead, worker⟩ := by
  by_cases mine : label.thread = supervisor
  · obtain ⟨roles, handed, small⟩ := sound.supervising fits mine
    exact ⟨roles, handed, small⟩
  · exact sound.others fits mine worker

/-- The new owner's program never transfers. -/
theorem request_permits {worker : WorkerPc} {pushed : PushArgs kRing} {request : Request}
    (asks : worker.request pushed = some request) (dead : Bool) :
    Permits args dead newOwner request := by
  cases worker with
  | publishing token =>
      cases asks
      exact fun _ => Or.inr rfl
  | exited status => cases asks
  | _ =>
      cases asks
      trivial

theorem sound_apply (config : WorkerConfig) (sound : Sound args state) (label : Label)
    (scheduled : Scheduled args state label) (uninspected : ClaimUninspected args state label) :
    Sound args (apply config state label) := by
  obtain ⟨room, turn⟩ := scheduled
  cases label with
  | act label =>
      refine sound.act ⟨room, ?_, ?_, ?_, uninspected⟩ state.worker
      · intro mine
        cases label with
        | start thread request =>
            obtain rfl : thread = oldOwner := mine
            rcases turn with ⟨-, alive, -⟩ | ⟨wrong, -⟩ | ⟨wrong, -⟩
            · exact alive
            · cases wrong
            · cases wrong
        | advance thread weak => exact turn mine
        | finish thread =>
            obtain rfl : thread = oldOwner := mine
            rcases turn with ⟨-, alive⟩ | wrong
            · exact alive
            · cases wrong
      · rintro thread request rfl
        rcases turn with ⟨rfl, -, pushes⟩ | ⟨rfl, pops⟩ | ⟨rfl, dead, moves⟩
        · cases request with
          | push workerIdx pushed => exact fun _ => Or.inl rfl
          | _ => cases pushes
        · cases request with
          | pop workerIdx size => trivial
          | _ => cases pops
        · cases request with
          | transfer other => exact ⟨rfl, by simpa [transfers] using moves, dead⟩
          | _ => cases moves
      · rintro thread rfl
        rcases turn with ⟨rfl, -⟩ | rfl <;> decide
  | die =>
      obtain ⟨roles, handed, small⟩ := sound
      refine ⟨fun thread call running => ?_, handed, small⟩
      have role := roles thread call running
      cases asked : call.operation.request with
      | transfer other =>
          rw [asked] at role
          exact ⟨role.1, role.2.1, rfl⟩
      | push workerIdx pushed =>
          rw [asked] at role
          exact role
      | _ => trivial
  | call pushed =>
      simp only [apply]
      split
      · exact sound
      · next request asks =>
        refine sound.act (show Fits args state (.start newOwner request) from
          ⟨room, ?_, ?_, ?_, trivial⟩) state.worker
        · intro wrong
          cases wrong
        · rintro thread entered equal
          cases equal
          exact request_permits asks state.dead
        · rintro thread equal
          cases equal
  | resume =>
      simp only [apply]
      split
      · exact sound
      · next call running =>
        split
        · refine sound.act (show Fits args state (.finish newOwner) from
            ⟨room, ?_, ?_, ?_, trivial⟩) _
          · intro wrong
            cases wrong
          · rintro thread entered equal
            cases equal
          · rintro thread equal
            cases equal
            decide
        · exact sound

/-! ### What the new owner can rely on -/

/-- Nothing of the new owner's work is undone. -/
structure Preserved (ring : Nat) (state : State) : Prop where
  /-- Its claim in flight is not rolled back. -/
  inFlight : ∀ position,
    (threadOn ring (state.machine.threads newOwner)).writes = some position →
      position < (state.machine.region.rings ring).tail
  /-- The tail exceeds every committed position. -/
  tailPast : ∀ position record, committedOn ring state.machine.log position record →
    position < (state.machine.region.rings ring).tail
  /-- A committed record stays in its slot until it was popped. -/
  intact : ∀ position record, committedOn ring state.machine.log position record →
    (state.machine.region.rings ring).head ≤ position ∨
        (threadOn ring (state.machine.threads consumer)).reads = some position →
      ((state.machine.region.rings ring).cellAt kRing position).sequence = position + 1 ∧
        ((state.machine.region.rings ring).cellAt kRing position).payload = record.payload ∧
        ((state.machine.region.rings ring).cellAt kRing position).crc = record.crc
  /-- No push is left re-reading the same tail for ever. -/
  returns : ∀ pushed, tryPush kRing pushed (state.machine.region.rings ring) ≠ none

theorem Preserved.of_coherent {ring : Nat} {view : Nat → RingThread kRing}
    (coherent : Coherent kRing (state.machine.region.rings ring) view
      (committedOn ring state.machine.log))
    (mine : view newOwner = threadOn ring (state.machine.threads newOwner))
    (popping : view consumer = threadOn ring (state.machine.threads consumer))
    (small : (state.machine.region.rings ring).tail < 2 ^ 63) : Preserved ring state where
  inFlight := by
    intro position writes
    rw [← mine] at writes
    exact (coherent.writing_sequence writes).2.1
  tailPast := fun position record done => (coherent.committedPast position record done).1
  intact := by
    intro position record done where'
    obtain ⟨high, unclaimed⟩ := coherent.committedPast position record done
    have stamped : ((state.machine.region.rings ring).cellAt kRing position).sequence =
        position + 1 := by
      rcases where' with unread | reads
      · exact coherent.outstanding_sequence unread high unclaimed
      · rw [← popping] at reads
        exact (coherent.reading_sequence reads).2.2
    obtain ⟨held, same, payload, crc⟩ := coherent.held position stamped
    obtain rfl := coherent.committedUnique position record held done same
    exact ⟨stamped, payload, crc⟩
  returns := by
    intro pushed
    have low : ((state.machine.region.rings ring).cellAt kRing
        (state.machine.region.rings ring).tail).sequence ≤
          (state.machine.region.rings ring).tail := by
      have bound := coherent.window.stamp_tail_le kRing.atLeastTwo
      rwa [show (state.machine.region.rings ring).counters.tail =
        (state.machine.region.rings ring).tail from rfl, RingBuffer.counters_stamp] at bound
    have diff := signedDiff_of_lt (lt_of_le_of_lt low small) small
    simp only [tryPush, diff]
    split
    · simp
    · split
      · simp
      · omega

/-- In every run in which the rollback loop never inspects an uncommitted claim
of the new owner, nothing of the new owner's work is undone. -/
theorem takeover_preserves_new_owner (config : WorkerConfig) (storage : SharedRegion)
    (args : TransferArgs) (below : args.logicalRing < kMaxWorkers) (state : State)
    (reach : Reachable (Permitted
      (fun state label => Scheduled args state label ∧ ClaimUninspected args state label)
      (apply config)) (start config storage) state) :
    Preserved args.logicalRing state := by
  have sound : Sound args state := by
    refine reach.invariant (motive := Sound args) (sound_start config storage below) ?_
    rintro before after - sound ⟨label, ⟨scheduled, uninspected⟩, rfl⟩
    exact sound_apply config sound label scheduled uninspected
  rcases sound.handed with ⟨coherent, -⟩ | ⟨coherent, -⟩
  · exact Preserved.of_coherent coherent rfl rfl sound.small
  · refine Preserved.of_coherent coherent ?_ ?_ sound.small
    · exact congrArg (threadOn args.logicalRing)
        (Function.update_of_ne (by decide : newOwner ≠ oldOwner) none state.machine.threads)
    · exact congrArg (threadOn args.logicalRing)
        (Function.update_of_ne (by decide : consumer ≠ oldOwner) none state.machine.threads)

/-! ### Two schedules -/

/-- The standby `run_supervisor` launches. -/
def standby : WorkerConfig := ⟨2, none, 1#32, .standby⟩

/-- The transfer of ring 0 to it. -/
def promotion : TransferArgs := ⟨0, homeToken 0, 2#32, 1#32⟩

/-- A record. -/
def payload : PushArgs kRing := .oneByte 7

/-- Some actions of one process. -/
def advances (thread steps : Nat) : List Label :=
  List.replicate steps (.act (.advance thread false))

/-- The new owner polls ring 0, acknowledges it, and checks its token. -/
def acknowledges : List Label :=
  (List.replicate 3 (.call payload :: advances newOwner 3 ++ [.resume])).flatten

/-- The old owner dies holding a claim; the transfer rolls it back before the
new owner pushes. -/
def orderlyTakeover : List Label :=
  .act (.start oldOwner (.push 0 payload)) :: advances oldOwner 3 ++ [.die] ++
    .act (.start supervisor (.transfer promotion)) :: advances supervisor 8 ++ acknowledges ++
    .call payload :: advances newOwner 6

theorem takeover_preserves_new_owner_orderly :
    let state := orderlyTakeover.foldl (apply standby) (start standby zeroed)
    (state.machine.region.rings 0).tail = 1 ∧
      ((state.machine.region.rings 0).cellAt kRing 0).sequence = 1 ∧ Preserved 0 state := by
  intro state
  have facts : (state.machine.region.rings 0).tail = 1 ∧
      ((state.machine.region.rings 0).cellAt kRing 0).sequence = 1 ∧
      Allows (fun state label => Scheduled promotion state label ∧
        ClaimUninspected promotion state label) (apply standby) (start standby zeroed)
        orderlyTakeover := by
    simp only [state, start, RegionMachine.start_zeroed]
    decide +kernel
  exact ⟨facts.1, facts.2.1, takeover_preserves_new_owner standby zeroed promotion (by decide) state
    (reachable_of_allows _ _ facts.2.2)⟩

/-- The transfer has published the new epoch and not yet looked at the tail when
the new owner claims a position; the rollback takes the live claim back. -/
def racingTakeover : List Label :=
  .die :: .act (.start supervisor (.transfer promotion)) :: advances supervisor 4 ++ acknowledges ++
    .call payload :: advances newOwner 3 ++ advances supervisor 4 ++ advances newOwner 3

/-- The record is committed at the tail, where no push can get past it. -/
theorem takeover_undoes_live_claim :
    let state := racingTakeover.foldl (apply standby) (start standby zeroed)
    Reachable (Permitted (Scheduled promotion) (apply standby)) (start standby zeroed) state ∧
      (∃ record, committedOn 0 state.machine.log 0 record) ∧
      (state.machine.region.rings 0).tail = 0 ∧
      tryPush kRing payload (state.machine.region.rings 0) = none ∧ ¬ Preserved 0 state := by
  intro state
  have facts : Allows (Scheduled promotion) (apply standby) (start standby zeroed)
        racingTakeover ∧
      (state.machine.log.any fun event => match event with
        | .committed _ ring position _ => decide (ring = 0 ∧ position = 0)
        | _ => false) = true ∧
      (state.machine.region.rings 0).tail = 0 ∧
      (tryPush kRing payload (state.machine.region.rings 0)).isNone = true := by
    simp only [state, start, RegionMachine.start_zeroed]
    decide +kernel
  obtain ⟨allows, logged, tail, stuck⟩ := facts
  have committed : ∃ record, committedOn 0 state.machine.log 0 record := by
    obtain ⟨event, member, isCommit⟩ := List.any_eq_true.mp logged
    cases event with
    | committed call ring position record =>
        simp only [decide_eq_true_eq] at isCommit
        obtain ⟨rfl, rfl⟩ := isCommit
        exact ⟨record, call, member⟩
    | _ => cases isCommit
  refine ⟨reachable_of_allows _ _ allows, committed, tail, Option.isNone_iff_eq_none.mp stuck,
    fun preserved => ?_⟩
  obtain ⟨record, done⟩ := committed
  have past := preserved.tailPast 0 record done
  omega

end SafetyCrit.Supervisor.Takeover
