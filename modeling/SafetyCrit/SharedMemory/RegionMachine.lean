import SafetyCrit.Library.Claims
import SafetyCrit.Library.Run
import SafetyCrit.SharedMemory.RingProtocol
import SafetyCrit.SharedMemory.SharedRegion

/-!
Owns the machine in which any number of processes run the region's calls on one
shared region, one atomic action at a time.

A call that stops for ever is a process that died inside it, so the reachable
states include every death point. Calls are numbered; the log is a ghost that
records what the calls did and returned, each entry at the atomic action that
decided it.
-/

namespace SafetyCrit.SharedMemory.RegionMachine

open SafetyCrit.Library.Run
open SafetyCrit.Library.Claims

/-! ### Calls -/

/-- The calls a process may make. -/
inductive Request where
  | push (workerIdx : Nat) (args : PushArgs kRing)
  | pop (workerIdx size : Nat)
  | transfer (args : TransferArgs)
  | read (logicalRing : Nat)
  | valid (token : OwnershipToken)

/-- A call in progress. -/
inductive Operation where
  | push (workerIdx : Nat) (args : PushArgs kRing) (pc : RegionPushPc)
  | pop (workerIdx size : Nat) (pc : PopPc)
  | transfer (args : TransferArgs) (pc : TransferPc)
  | read (logicalRing : Nat) (pc : ReadPc)
  | valid (token : OwnershipToken) (pc : ReadPc)

/-- Entering a call. -/
def Request.enter : Request → Operation
  | .push workerIdx args => .push workerIdx args (RegionPushPc.enter workerIdx)
  | .pop workerIdx size => .pop workerIdx size .loadHead
  | .transfer args => .transfer args (TransferPc.enter args)
  | .read logicalRing => .read logicalRing (ReadPc.enter logicalRing)
  | .valid token => .valid token (ReadPc.enter token.logicalRing)

/-- The call has returned. -/
def Operation.done : Operation → Bool
  | .push _ _ (.returned _) => true
  | .pop _ _ (.returned _) => true
  | .transfer _ (.returned _) => true
  | .read _ (.returned _) => true
  | .valid _ (.returned _) => true
  | _ => false

/-- One atomic action of a call. -/
def Operation.step (weak : Bool) (region : SharedRegion) : Operation → SharedRegion × Operation
  | .push workerIdx args pc =>
      let next := pushStep workerIdx args weak region pc
      (next.1, .push workerIdx args next.2)
  | .pop workerIdx size pc =>
      let next := tryPopStep kRing size weak (region.rings workerIdx) pc
      (region.setRing workerIdx next.1, .pop workerIdx size next.2)
  | .transfer args pc =>
      let next := transferStep args weak region pc
      (next.1, .transfer args next.2)
  | .read logicalRing pc => (region, .read logicalRing (readStep logicalRing region pc))
  | .valid token pc => (region, .valid token (readStep token.logicalRing region pc))

/-! ### The machine -/

/-- What the history records. -/
inductive Event where
  | committed (call ring position : Nat) (record : Record)
  | counted (call : Nat)
  | pushReturned (call : Nat) (result : Bool)
  | ownerStored (call : Nat) (args : TransferArgs)
  | published (call : Nat) (args : TransferArgs)
  | transferReturned (call ring : Nat) (result : Option OwnershipToken)
  | readReturned (call ring : Nat) (result : Option OwnershipToken)
  | validReturned (call : Nat) (token : OwnershipToken) (result : Bool)
deriving DecidableEq

/-- The call an entry belongs to. -/
def Event.call : Event → Nat
  | .committed call _ _ _ => call
  | .counted call => call
  | .pushReturned call _ => call
  | .ownerStored call _ => call
  | .published call _ => call
  | .transferReturned call _ _ => call
  | .readReturned call _ _ => call
  | .validReturned call _ _ => call

/-- What a call that has just returned records. -/
def Operation.outcome (call : Nat) : Operation → Option Event
  | .push _ _ (.returned result) => some (.pushReturned call result)
  | .transfer args (.returned result) => some (.transferReturned call args.logicalRing result)
  | .read logicalRing (.returned result) => some (.readReturned call logicalRing result)
  | .valid token (.returned result) => some (.validReturned call token (tokenMatches token result))
  | _ => none

/-- A call that returns where it is entered was refused. -/
theorem Request.enter_outcome {request : Request} {call : Nat} {event : Event}
    (recorded : request.enter.outcome call = some event) :
    event = .pushReturned call false ∨ (∃ ring, event = .transferReturned call ring none) ∨
      (∃ ring, event = .readReturned call ring none) ∨
      ∃ token, event = .validReturned call token (tokenMatches token none) := by
  cases request with
  | push workerIdx args =>
      simp only [Request.enter, RegionPushPc.enter] at recorded
      split at recorded <;> cases recorded
      exact Or.inl rfl
  | pop workerIdx size => cases recorded
  | transfer args =>
      simp only [Request.enter, TransferPc.enter] at recorded
      split at recorded <;> cases recorded
      exact Or.inr (Or.inl ⟨_, rfl⟩)
  | read logicalRing =>
      simp only [Request.enter, ReadPc.enter] at recorded
      split at recorded <;> cases recorded
      exact Or.inr (Or.inr (Or.inl ⟨_, rfl⟩))
  | valid token =>
      simp only [Request.enter, ReadPc.enter] at recorded
      split at recorded <;> cases recorded
      exact Or.inr (Or.inr (Or.inr ⟨_, rfl⟩))

/-- What one atomic action records. -/
def Operation.event (call : Nat) (region : SharedRegion) (before after : Operation) :
    Option Event :=
  match before with
  | .push workerIdx args (.ring (.commit position)) =>
      some (.committed call workerIdx position
        (args.record ((region.rings workerIdx).cellAt kRing position)))
  | .push _ _ .fetchAdd => some (.counted call)
  | .transfer args .casOwner =>
      match after with
      | .transfer _ .publishEpoch => some (.ownerStored call args)
      | _ => none
  | .transfer args .publishEpoch => some (.published call args)
  | _ => after.outcome call

/-- A numbered call. -/
structure Call where
  id : Nat
  operation : Operation

/-- The region, what every process is doing, the history, and how many calls
were made. -/
structure State where
  region : SharedRegion
  threads : Nat → Option Call
  log : List Event
  calls : Nat

/-- One scheduling choice. -/
inductive Label where
  | start (thread : Nat) (request : Request)
  | advance (thread : Nat) (weak : Bool)
  | finish (thread : Nat)

/-- A process without a call makes one. -/
def State.enter (state : State) (thread : Nat) (request : Request) : State :=
  { state with
    threads := Function.update state.threads thread (some ⟨state.calls, request.enter⟩)
    log := state.log ++ (request.enter.outcome state.calls).toList
    calls := state.calls + 1 }

/-- A process performs the next action of its call. -/
def State.advance (state : State) (thread : Nat) (weak : Bool) (call : Call) : State :=
  let next := call.operation.step weak state.region
  { state with
    region := next.1
    threads := Function.update state.threads thread (some ⟨call.id, next.2⟩)
    log := state.log ++ (call.operation.event call.id state.region next.2).toList }

theorem State.advance_self (state : State) (thread : Nat) (weak : Bool) (call : Call) :
    (state.advance thread weak call).threads thread =
      some ⟨call.id, (call.operation.step weak state.region).2⟩ :=
  Function.update_self ..

theorem State.advance_other (state : State) {thread other : Nat} (weak : Bool) (call : Call)
    (different : other ≠ thread) :
    (state.advance thread weak call).threads other = state.threads other :=
  Function.update_of_ne different ..

/-- A process leaves a call that has returned. -/
def State.finish (state : State) (thread : Nat) : State :=
  { state with threads := Function.update state.threads thread none }

/-- One step of the machine. -/
def apply (state : State) : Label → State
  | .start thread request =>
      match state.threads thread with
      | none => state.enter thread request
      | some _ => state
  | .advance thread weak =>
      match state.threads thread with
      | none => state
      | some call => if call.operation.done then state else state.advance thread weak call
  | .finish thread =>
      match state.threads thread with
      | none => state
      | some call => if call.operation.done then state.finish thread else state

/-- The state after `initialize()` on the given storage. -/
def start (storage : SharedRegion) : State := ⟨freshRegion storage, fun _ => none, [], 0⟩

theorem start_zeroed : start zeroed = ⟨pristine, fun _ => none, [], 0⟩ := by
  rw [start, freshRegion_zeroed]

/-- The rule every invariant of the machine is proved by. -/
theorem apply_induction {motive : State → Prop} {state : State} (label : Label)
    (same : motive state)
    (enter : ∀ thread request, state.threads thread = none → motive (state.enter thread request))
    (advance : ∀ thread weak call, state.threads thread = some call → call.operation.done = false →
      motive (state.advance thread weak call))
    (finish : ∀ thread call, state.threads thread = some call → call.operation.done = true →
      motive (state.finish thread)) :
    motive (apply state label) := by
  cases label with
  | start thread request =>
      simp only [apply]
      split
      · next idle => exact enter thread request idle
      · exact same
  | advance thread weak =>
      simp only [apply]
      split
      · exact same
      · next call running =>
        split
        · exact same
        · next unfinished => exact advance thread weak call running (by simpa using unfinished)
  | finish thread =>
      simp only [apply]
      split
      · exact same
      · next call running =>
        split
        · next done => exact finish thread call running done
        · exact same

/-! ### What a step does to the processes -/

/-- The call an operation belongs to. -/
def Operation.request : Operation → Request
  | .push workerIdx args _ => .push workerIdx args
  | .pop workerIdx size _ => .pop workerIdx size
  | .transfer args _ => .transfer args
  | .read logicalRing _ => .read logicalRing
  | .valid token _ => .valid token

@[simp] theorem enter_request (request : Request) : request.enter.request = request := by
  cases request <;> rfl

@[simp] theorem step_request (weak : Bool) (region : SharedRegion) (operation : Operation) :
    (operation.step weak region).2.request = operation.request := by
  cases operation <;> rfl

/-- The process a label schedules. -/
def Label.thread : Label → Nat
  | .start thread _ => thread
  | .advance thread _ => thread
  | .finish thread => thread

/-- A schedule leaves the processes it does not mention alone. -/
theorem foldl_apply_threads {thread : Nat} (schedule : List Label) (state : State)
    (away : ∀ label ∈ schedule, label.thread ≠ thread) :
    (schedule.foldl apply state).threads thread = state.threads thread := by
  have step : ∀ (state : State) (label : Label), label.thread ≠ thread →
      (apply state label).threads thread = state.threads thread := by
    intro state label different
    have kept : ∀ next : Option Call,
        Function.update state.threads label.thread next thread = state.threads thread := by
      intro next
      exact Function.update_of_ne (Ne.symm different) next state.threads
    cases label with
    | start actor request => simp only [apply]; split <;> first | rfl | exact kept _
    | advance actor weak => simp only [apply]; split <;> (try split) <;> first | rfl | exact kept _
    | finish actor => simp only [apply]; split <;> (try split) <;> first | rfl | exact kept _
  induction schedule generalizing state with
  | nil => rfl
  | cons label rest inductionHypothesis =>
      rw [List.foldl_cons, inductionHypothesis _ fun other member =>
        away other (List.mem_cons_of_mem _ member), step state label (away label (by simp))]

/-- A step leaves the other processes alone. -/
theorem apply_threads (state : State) (label : Label) {thread : Nat}
    (away : label.thread ≠ thread) : (apply state label).threads thread = state.threads thread :=
  foldl_apply_threads [label] state (by simpa using away)

/-- Where the call of a process comes from. -/
theorem apply_call {state : State} {label : Label} {thread : Nat} {call : Call}
    (running : (apply state label).threads thread = some call) :
    state.threads thread = some call ∨
      (∃ request, label = .start thread request ∧ state.threads thread = none ∧
        call = ⟨state.calls, request.enter⟩) ∨
      ∃ weak before, label = .advance thread weak ∧ state.threads thread = some before ∧
        before.operation.done = false ∧
        call = ⟨before.id, (before.operation.step weak state.region).2⟩ := by
  by_cases same : label.thread = thread
  · subst same
    cases label with
    | start thread request =>
        simp only [apply, Label.thread] at running ⊢
        split at running
        · next idle =>
          simp only [State.enter, Function.update_self, Option.some.injEq] at running
          exact Or.inr (Or.inl ⟨request, rfl, idle, running.symm⟩)
        · exact Or.inl running
    | advance thread weak =>
        simp only [apply, Label.thread] at running ⊢
        split at running
        · exact Or.inl running
        · next before already =>
          split at running
          · exact Or.inl running
          · next unfinished =>
            simp only [State.advance, Function.update_self, Option.some.injEq] at running
            exact Or.inr (Or.inr ⟨weak, before, rfl, already, by simpa using unfinished,
              running.symm⟩)
    | finish thread =>
        simp only [apply, Label.thread] at running ⊢
        split at running
        · exact Or.inl running
        · split at running
          · simp only [State.finish, Function.update_self] at running
            cases running
          · exact Or.inl running
  · rw [apply_threads state label same] at running
    exact Or.inl running

/-- A process keeps to its call until it makes another. -/
theorem apply_request {state : State} {label : Label} {thread : Nat} {call : Call}
    (running : (apply state label).threads thread = some call) :
    (∃ before, state.threads thread = some before ∧
        before.operation.request = call.operation.request) ∨
      label = .start thread call.operation.request := by
  rcases apply_call running with
    kept | ⟨request, rfl, -, rfl⟩ | ⟨weak, before, -, already, -, rfl⟩
  · exact Or.inl ⟨call, kept, rfl⟩
  · exact Or.inr (by rw [enter_request])
  · exact Or.inl ⟨before, already, by rw [step_request]⟩

/-! ### Call numbers -/

/-- The number of the call a process is in. -/
def callId : Option Call → Option Nat
  | some call => some call.id
  | none => none

/-- Numbers identify calls: running calls have different numbers, and neither
they nor the history use a number that was not yet given out. -/
structure Numbered (state : State) : Prop where
  distinct : Exclusive callId state.threads
  used : ∀ thread id, callId (state.threads thread) = some id → id < state.calls
  past : ∀ event, event ∈ state.log → event.call < state.calls

theorem outcome_call {call : Nat} {operation : Operation} {event : Event}
    (recorded : operation.outcome call = some event) : event.call = call := by
  unfold Operation.outcome at recorded
  split at recorded <;> cases recorded <;> rfl

/-- Where an entry comes from. -/
theorem event_cases {call : Nat} {region : SharedRegion} {before after : Operation} {event : Event}
    (recorded : before.event call region after = some event) :
    (∃ workerIdx args position, before = .push workerIdx args (.ring (.commit position)) ∧
        event = .committed call workerIdx position
          (args.record ((region.rings workerIdx).cellAt kRing position))) ∨
      (∃ workerIdx args, before = .push workerIdx args .fetchAdd ∧ event = .counted call) ∨
      (∃ args, before = .transfer args .casOwner ∧ event = .ownerStored call args) ∨
      (∃ args, before = .transfer args .publishEpoch ∧ event = .published call args) ∨
      after.outcome call = some event := by
  unfold Operation.event at recorded
  split at recorded
  · next workerIdx args position =>
    cases recorded
    exact Or.inl ⟨workerIdx, args, position, rfl, rfl⟩
  · next workerIdx args =>
    cases recorded
    exact Or.inr (Or.inl ⟨workerIdx, args, rfl, rfl⟩)
  · next args =>
    split at recorded
    · cases recorded
      exact Or.inr (Or.inr (Or.inl ⟨args, rfl, rfl⟩))
    · cases recorded
  · next args =>
    cases recorded
    exact Or.inr (Or.inr (Or.inr (Or.inl ⟨args, rfl, rfl⟩)))
  · exact Or.inr (Or.inr (Or.inr (Or.inr recorded)))

theorem event_call {call : Nat} {region : SharedRegion} {before after : Operation} {event : Event}
    (recorded : before.event call region after = some event) : event.call = call := by
  rcases event_cases recorded with
    ⟨_, _, _, -, rfl⟩ | ⟨_, _, -, rfl⟩ | ⟨_, -, rfl⟩ | ⟨_, -, rfl⟩ | returned
  · rfl
  · rfl
  · rfl
  · rfl
  · exact outcome_call returned

theorem numbered_start (storage : SharedRegion) : Numbered (start storage) where
  distinct := by
    intro left right id running
    cases running
  used := by
    intro thread id running
    cases running
  past := by simp [start]

theorem Numbered.enter {state : State} (numbered : Numbered state) (thread : Nat)
    (request : Request) : Numbered (state.enter thread request) where
  distinct := by
    refine exclusive_update_take numbered.distinct rfl ?_
    rintro ⟨other, running⟩
    exact absurd (numbered.used other _ running) (Nat.lt_irrefl _)
  used := by
    intro other id running
    change id < state.calls + 1
    by_cases same : other = thread
    · subst same
      simp only [State.enter, Function.update_self] at running
      cases running
      exact Nat.lt_succ_self _
    · simp only [State.enter, Function.update_of_ne same] at running
      exact Nat.lt_succ_of_lt (numbered.used other id running)
  past := by
    intro event member
    rcases List.mem_append.mp member with old | new
    · exact Nat.lt_succ_of_lt (numbered.past event old)
    · rw [outcome_call (Option.mem_toList.mp new)]
      exact Nat.lt_succ_self _

theorem Numbered.advance {state : State} (numbered : Numbered state) {thread : Nat} {call : Call}
    (weak : Bool) (running : state.threads thread = some call) :
    Numbered (state.advance thread weak call) where
  distinct := exclusive_update_same numbered.distinct (by rw [running]; rfl)
  used := by
    intro other id held
    by_cases same : other = thread
    · subst same
      simp only [State.advance, Function.update_self] at held
      exact numbered.used other id (by rw [running]; exact held)
    · simp only [State.advance, Function.update_of_ne same] at held
      exact numbered.used other id held
  past := by
    intro event member
    rcases List.mem_append.mp member with old | new
    · exact numbered.past event old
    · rw [event_call (Option.mem_toList.mp new)]
      exact numbered.used thread call.id (by rw [running]; rfl)

theorem Numbered.finish {state : State} (numbered : Numbered state) (thread : Nat) :
    Numbered (state.finish thread) where
  distinct := exclusive_update_drop numbered.distinct rfl
  used := by
    intro other id held
    by_cases same : other = thread
    · subst same
      simp only [State.finish, Function.update_self] at held
      cases held
    · simp only [State.finish, Function.update_of_ne same] at held
      exact numbered.used other id held
  past := numbered.past

theorem numbered_apply {state : State} (numbered : Numbered state) (label : Label) :
    Numbered (apply state label) :=
  apply_induction (motive := Numbered) label numbered
    (fun thread request _ => numbered.enter thread request)
    (fun _ weak _ running _ => numbered.advance weak running)
    (fun thread _ _ _ => numbered.finish thread)

end SafetyCrit.SharedMemory.RegionMachine
