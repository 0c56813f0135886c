import SafetyCrit.SharedMemory.RegionCalls

/-!
Owns what one ring looks like inside the region machine.

`threadOn` projects what a process does to what it does on one ring, and
`committedOn` reads the records of that ring out of the log. Every step but the
rollback of a transfer keeps the projection coherent.
-/

namespace SafetyCrit.SharedMemory.RegionMachine

open SafetyCrit.Library
open SafetyCrit.Library.Run
open SafetyCrit.Library.Claims

/-! ### The projection -/

/-- What a process is doing on one ring. -/
def threadOn (ring : Nat) : Option Call → RingThread kRing
  | some ⟨_, .push workerIdx args pc⟩ => if workerIdx = ring then pc.onRing args else .idle
  | some ⟨_, .pop workerIdx size pc⟩ => if workerIdx = ring then .popping size pc else .idle
  | _ => .idle

/-- The records committed to one ring. -/
def committedOn (ring : Nat) (log : List Event) (position : Nat) (record : Record) : Prop :=
  ∃ call, Event.committed call ring position record ∈ log

/-- The protocol invariant of one ring of the region. -/
def RingCoherent (ring : Nat) (state : State) : Prop :=
  Coherent kRing (state.region.rings ring) (fun thread => threadOn ring (state.threads thread))
    (committedOn ring state.log)

variable {ring : Nat} {state : State}

theorem threadOn_update (threads : Nat → Option Call) (thread : Nat) (next : Option Call) :
    (fun other => threadOn ring (Function.update threads thread next other)) =
      Function.update (fun other => threadOn ring (threads other)) thread (threadOn ring next) := by
  funext other
  by_cases same : other = thread
  · subst same
    simp
  · simp [same]

theorem committedOn_append (log : List Event) (event : Option Event) (position : Nat)
    (record : Record) :
    committedOn ring (log ++ event.toList) position record ↔
      committedOn ring log position record ∨
        ∃ call, event = some (.committed call ring position record) := by
  simp only [committedOn, List.mem_append, Option.mem_toList, exists_or]

/-- A process that claims a position of the ring is inside a push to it. -/
theorem threadOn_writes {call : Option Call} {position : Nat}
    (writes : (threadOn ring call).writes = some position) :
    ∃ id args pc, call = some ⟨id, .push ring args (.ring pc)⟩ ∧ pc.holds = some position := by
  unfold threadOn at writes
  split at writes
  · next id workerIdx args pc =>
    split at writes
    · next same =>
      subst same
      cases pc with
      | ring pc => exact ⟨id, args, pc, rfl, writes⟩
      | _ => cases writes
    · cases writes
  · next id workerIdx size pc =>
    split at writes
    · cases writes
    · cases writes
  · cases writes

/-- A process that reads a position of the ring is inside a pop of it. -/
theorem threadOn_reads {call : Option Call} {position : Nat}
    (reads : (threadOn ring call).reads = some position) :
    ∃ id size pc, call = some ⟨id, .pop ring size pc⟩ ∧ pc.holds = some position := by
  unfold threadOn at reads
  split at reads
  · next id workerIdx args pc =>
    split at reads
    · cases pc <;> cases reads
    · cases reads
  · next id workerIdx size pc =>
    split at reads
    · next same =>
      subst same
      exact ⟨id, size, pc, rfl, reads⟩
    · cases reads
  · cases reads

/-! ### Steps -/

theorem ringCoherent_start (storage : SharedRegion) (below : ring < kMaxWorkers) :
    RingCoherent ring (start storage) := by
  have fresh : Coherent kRing (RingBuffer.initializeRing kRing (storage.rings ring))
      (fun thread => threadOn ring ((start storage).threads thread)) fun _ _ => False :=
    coherent_initializeRing (storage.rings ring) fun _ => rfl
  rw [RingCoherent]
  simp only [start, freshRegion_rings storage below] at fresh ⊢
  refine fresh.congr fun position record => ?_
  simp [committedOn]

/-- A process that neither acts on the ring nor leaves it in a call. -/
theorem RingCoherent.relocate (coherent : RingCoherent ring state) {thread : Nat}
    (next : Option Call) (writes : (threadOn ring next).writes =
      (threadOn ring (state.threads thread)).writes)
    (reads : (threadOn ring next).reads = (threadOn ring (state.threads thread)).reads)
    (facts : LocalFacts kRing (state.region.rings ring) (threadOn ring next)) :
    Coherent kRing (state.region.rings ring)
      (fun other => threadOn ring (Function.update state.threads thread next other))
      (committedOn ring state.log) := by
  rw [threadOn_update]
  exact Coherent.relocate coherent _ writes reads facts

/-- No entry of a call commits. -/
theorem outcome_not_committed {call other position workerIdx : Nat} {record : Record}
    {operation : Operation} :
    operation.outcome call ≠ some (.committed other workerIdx position record) := by
  unfold Operation.outcome
  split <;> simp

theorem threadOn_enter (ring id : Nat) (request : Request) :
    (threadOn ring (some ⟨id, request.enter⟩)).writes = none ∧
      (threadOn ring (some ⟨id, request.enter⟩)).reads = none ∧
      ∀ content, LocalFacts kRing content (threadOn ring (some ⟨id, request.enter⟩)) := by
  cases request with
  | push workerIdx args =>
      simp only [Request.enter, threadOn, RegionPushPc.enter]
      split
      · split <;> exact ⟨rfl, rfl, fun _ => trivial⟩
      · exact ⟨rfl, rfl, fun _ => trivial⟩
  | pop workerIdx size =>
      simp only [Request.enter, threadOn]
      split <;> exact ⟨rfl, rfl, fun _ => trivial⟩
  | transfer args => exact ⟨rfl, rfl, fun _ => trivial⟩
  | read logicalRing => exact ⟨rfl, rfl, fun _ => trivial⟩
  | valid token => exact ⟨rfl, rfl, fun _ => trivial⟩

theorem RingCoherent.enter (coherent : RingCoherent ring state) {thread : Nat}
    (idle : state.threads thread = none) (request : Request) :
    RingCoherent ring (state.enter thread request) := by
  obtain ⟨writes, reads, facts⟩ := threadOn_enter ring state.calls request
  have moved := coherent.relocate (some ⟨state.calls, request.enter⟩)
    (writes.trans (by rw [idle]; rfl)) (reads.trans (by rw [idle]; rfl)) (facts _)
  refine Coherent.congr moved fun position record => ?_
  simp only [State.enter, committedOn_append]
  refine ⟨Or.inl, ?_⟩
  rintro (old | ⟨other, impossible⟩)
  · exact old
  · exact absurd impossible outcome_not_committed

theorem threadOn_done (ring id : Nat) {operation : Operation} (done : operation.done = true) :
    (threadOn ring (some ⟨id, operation⟩)).writes = none ∧
      (threadOn ring (some ⟨id, operation⟩)).reads = none := by
  unfold Operation.done at done
  split at done
  · simp only [threadOn]
    split <;> exact ⟨rfl, rfl⟩
  · simp only [threadOn]
    split <;> exact ⟨rfl, rfl⟩
  · exact ⟨rfl, rfl⟩
  · exact ⟨rfl, rfl⟩
  · exact ⟨rfl, rfl⟩
  · cases done

theorem RingCoherent.finish (coherent : RingCoherent ring state) {thread : Nat} {call : Call}
    (running : state.threads thread = some call) (done : call.operation.done = true) :
    RingCoherent ring (state.finish thread) := by
  obtain ⟨writes, reads⟩ := threadOn_done ring call.id done
  exact coherent.relocate none (by rw [running, writes]; rfl) (by rw [running, reads]; rfl) trivial

/-- Which records an action publishes on the ring. -/
theorem event_committed {call other position : Nat} {region : SharedRegion} {record : Record}
    {before after : Operation} :
    before.event call region after = some (.committed other ring position record) ↔
      other = call ∧ ∃ args, before = .push ring args (.ring (.commit position)) ∧
        record = args.record ((region.rings ring).cellAt kRing position) := by
  constructor
  · intro recorded
    rcases event_cases recorded with
      ⟨workerIdx, args, place, rfl, equal⟩ | ⟨_, _, -, impossible⟩ | ⟨_, -, impossible⟩ |
        ⟨_, -, impossible⟩ | impossible
    · cases equal
      exact ⟨rfl, args, rfl, rfl⟩
    · cases impossible
    · cases impossible
    · cases impossible
    · exact absurd impossible outcome_not_committed
  · rintro ⟨rfl, args, rfl, rfl⟩
    rfl

/-- An action of another ring, or on no ring. -/
theorem RingCoherent.elsewhere (coherent : RingCoherent ring state) {thread : Nat} (weak : Bool)
    {call : Call} (running : state.threads thread = some call)
    (kept : (call.operation.step weak state.region).1.rings ring = state.region.rings ring)
    (before : threadOn ring (some call) = .idle)
    (after : threadOn ring (some ⟨call.id, (call.operation.step weak state.region).2⟩) = .idle) :
    RingCoherent ring (state.advance thread weak call) := by
  have moved := coherent.relocate (some ⟨call.id, (call.operation.step weak state.region).2⟩)
    (by rw [running, before, after]) (by rw [running, before, after]) (by rw [after]; trivial)
  rw [RingCoherent]
  simp only [State.advance, kept]
  refine Coherent.congr moved fun position record => ?_
  rw [committedOn_append]
  refine ⟨Or.inl, ?_⟩
  rintro (old | ⟨other, recorded⟩)
  · exact old
  · obtain ⟨-, args, pushing, -⟩ := event_committed.mp recorded
    obtain ⟨id, operation⟩ := call
    subst pushing
    simp [threadOn, RegionPushPc.onRing] at before

/-- The call is about to roll the tail of the ring back. -/
def rollsBack (ring : Nat) : Operation → Bool
  | .transfer args (.casTail _) => decide (args.logicalRing = ring)
  | _ => false

theorem transferStep_rings (args : TransferArgs) (weak : Bool) (region : SharedRegion)
    (pc : TransferPc) (other : rollsBack ring (.transfer args pc) = false) :
    (transferStep args weak region pc).1.rings ring = region.rings ring := by
  cases pc with
  | casTail tail =>
      have different : args.logicalRing ≠ ring := by simpa [rollsBack] using other
      simp only [transferStep]
      split
      · exact Function.update_of_ne (Ne.symm different) _ _
      · rfl
  | refresh pc => exact congrFun (refreshStep_rings weak region pc) ring
  | _ => simp only [transferStep] <;> (try split) <;> rfl

theorem tryPopStep_tail (config : RingConfig) (size : Nat) (weak : Bool) (content : RingBuffer)
    (pc : PopPc) : (tryPopStep config size weak content pc).1.tail = content.tail := by
  cases pc <;> simp only [tryPopStep] <;> (try split) <;> (try split) <;> rfl

/-- Only pushes and rollbacks move the tail of a ring. -/
theorem step_tail (weak : Bool) (region : SharedRegion) (operation : Operation)
    (pushes : ∀ args pc, operation ≠ .push ring args pc)
    (other : rollsBack ring operation = false) :
    ((operation.step weak region).1.rings ring).tail = (region.rings ring).tail := by
  cases operation with
  | push workerIdx args pc =>
      have different : workerIdx ≠ ring := by
        rintro rfl
        exact pushes args pc rfl
      cases pc with
      | ring pc => exact congrArg RingBuffer.tail (Function.update_of_ne (Ne.symm different) _ _)
      | refresh pc => exact congrArg RingBuffer.tail (congrFun (refreshStep_rings weak region pc) ring)
      | _ => rfl
  | pop workerIdx size pc =>
      by_cases same : workerIdx = ring
      · subst same
        simp only [Operation.step, SharedRegion.setRing_rings, Function.update_self]
        exact tryPopStep_tail ..
      · exact congrArg RingBuffer.tail (Function.update_of_ne (Ne.symm same) _ _)
  | transfer args pc =>
      exact congrArg RingBuffer.tail (transferStep_rings args weak region pc other)
  | read logicalRing pc => rfl
  | valid token pc => rfl

/-- Every action but a rollback of the ring keeps it coherent. -/
theorem RingCoherent.advance (coherent : RingCoherent ring state)
    (small : (state.region.rings ring).tail < 2 ^ 63) {thread : Nat} (weak : Bool) {call : Call}
    (running : state.threads thread = some call) (other : rollsBack ring call.operation = false) :
    RingCoherent ring (state.advance thread weak call) := by
  obtain ⟨id, operation⟩ := call
  cases operation with
  | push workerIdx args pc =>
      by_cases same : workerIdx = ring
      · subst same
        have located : threadOn workerIdx (state.threads thread) = pc.onRing args := by
          rw [running]
          exact if_pos rfl
        have moved := Coherent.regionPush coherent small weak located
        rw [RingCoherent]
        simp only [State.advance, threadOn_update, Operation.step]
        simp only [threadOn, if_true]
        refine Coherent.congr moved fun position record => ?_
        rw [committedOn_append]
        simp only [event_committed]
        simp
      · have kept : ((Operation.push workerIdx args pc).step weak state.region).1.rings ring =
            state.region.rings ring := by
          cases pc with
          | ring pc => exact Function.update_of_ne (Ne.symm same) _ _
          | refresh pc => exact congrFun (refreshStep_rings weak state.region pc) ring
          | _ => rfl
        exact coherent.elsewhere weak running kept (if_neg same) (if_neg same)
  | pop workerIdx size pc =>
      by_cases same : workerIdx = ring
      · subst same
        have located : threadOn workerIdx (state.threads thread) = .popping size pc := by
          rw [running]
          exact if_pos rfl
        have moved := Coherent.pop coherent small weak located
        rw [RingCoherent]
        simp only [State.advance, threadOn_update, Operation.step, SharedRegion.setRing_rings,
          Function.update_self]
        simp only [threadOn, if_true]
        refine Coherent.congr moved fun position record => ?_
        rw [committedOn_append]
        simp only [event_committed]
        simp
      · have kept : ((Operation.pop workerIdx size pc).step weak state.region).1.rings ring =
            state.region.rings ring := Function.update_of_ne (Ne.symm same) _ _
        exact coherent.elsewhere weak running kept (if_neg same) (if_neg same)
  | transfer args pc =>
      exact coherent.elsewhere weak running (transferStep_rings args weak state.region pc other) rfl
        rfl
  | read logicalRing pc => exact coherent.elsewhere weak running rfl rfl rfl
  | valid token pc => exact coherent.elsewhere weak running rfl rfl rfl

/-- A step that rolls nothing back keeps the ring coherent. -/
theorem ringCoherent_apply (coherent : RingCoherent ring state)
    (small : (state.region.rings ring).tail < 2 ^ 63) (label : Label)
    (other : ∀ call, state.threads label.thread = some call →
      rollsBack ring call.operation = false) :
    RingCoherent ring (apply state label) := by
  cases label with
  | start thread request =>
      simp only [apply]
      split
      · next idle => exact coherent.enter idle request
      · exact coherent
  | advance thread weak =>
      simp only [apply]
      split
      · exact coherent
      · next call running =>
        split
        · exact coherent
        · exact coherent.advance small weak running (other call running)
  | finish thread =>
      simp only [apply]
      split
      · exact coherent
      · next call running =>
        split
        · next done => exact coherent.finish running done
        · exact coherent

/-- An action that rolls nothing back leaves the tail, or counts a claim. -/
theorem step_tail_forward (weak : Bool) (region : SharedRegion) (operation : Operation)
    (other : rollsBack ring operation = false) :
    ((operation.step weak region).1.rings ring).tail = (region.rings ring).tail ∨
      ((operation.step weak region).1.rings ring).tail = wrap64 ((region.rings ring).tail + 1) := by
  by_cases pushes : ∃ args pc, operation = .push ring args pc
  · obtain ⟨args, pc, rfl⟩ := pushes
    rcases (pushStep_counters ring args weak region pc).2 with ⟨kept, -⟩ | ⟨-, -, raised⟩
    · exact Or.inl kept
    · exact Or.inr raised
  · exact Or.inl
      (step_tail weak region operation (fun args pc equal => pushes ⟨args, pc, equal⟩) other)

/-- An action moves the tail on by at most one, and back only by a rollback. -/
theorem step_tail_bounds (weak : Bool) (region : SharedRegion) (operation : Operation)
    (small : (region.rings ring).tail + 1 < 2 ^ 64) :
    ((operation.step weak region).1.rings ring).tail ≤ (region.rings ring).tail + 1 ∧
      (rollsBack ring operation = false →
        (region.rings ring).tail ≤ ((operation.step weak region).1.rings ring).tail) := by
  by_cases pushes : ∃ args pc, operation = .push ring args pc
  · obtain ⟨args, pc, rfl⟩ := pushes
    change ((pushStep ring args weak region pc).1.rings ring).tail ≤ _ ∧
      (_ → _ ≤ ((pushStep ring args weak region pc).1.rings ring).tail)
    rcases (pushStep_counters ring args weak region pc).2 with ⟨kept, -⟩ | ⟨-, -, raised⟩
    · rw [kept]
      exact ⟨by omega, fun _ => le_rfl⟩
    · rw [raised, wrap64_of_lt small]
      exact ⟨le_rfl, fun _ => by omega⟩
  · cases rolls : rollsBack ring operation with
    | false =>
        rw [step_tail weak region operation (fun args pc equal => pushes ⟨args, pc, equal⟩) rolls]
        exact ⟨by omega, fun _ => le_rfl⟩
    | true =>
        refine ⟨?_, fun impossible => by cases impossible⟩
        unfold rollsBack at rolls
        split at rolls
        · next args seen =>
          have same : args.logicalRing = ring := by simpa using rolls
          subst same
          simp only [Operation.step, transferStep]
          split
          · simp only [SharedRegion.setRing_rings, Function.update_self]
            omega
          · simp only
            omega
        · cases rolls

/-- No step moves the tail on by more than one. -/
theorem tail_apply_le (small : (state.region.rings ring).tail + 1 < 2 ^ 64) (label : Label) :
    ((apply state label).region.rings ring).tail ≤ (state.region.rings ring).tail + 1 :=
  apply_induction
    (motive := fun next => (next.region.rings ring).tail ≤ (state.region.rings ring).tail + 1)
    label (Nat.le_succ _) (fun _ _ _ => Nat.le_succ _)
    (fun _ weak call _ _ => (step_tail_bounds weak state.region call.operation small).1)
    (fun _ _ _ _ => Nat.le_succ _)

/-- A step that rolls nothing back leaves the tail or moves it on. -/
theorem tail_le_apply (small : (state.region.rings ring).tail + 1 < 2 ^ 64) (label : Label)
    (other : ∀ call, state.threads label.thread = some call →
      rollsBack ring call.operation = false) :
    (state.region.rings ring).tail ≤ ((apply state label).region.rings ring).tail := by
  cases label with
  | start thread request =>
      simp only [apply]
      split <;> exact le_rfl
  | finish thread =>
      simp only [apply]
      split
      · exact le_rfl
      · split <;> exact le_rfl
  | advance thread weak =>
      simp only [apply]
      split
      · exact le_rfl
      · next call running =>
        split
        · exact le_rfl
        · exact (step_tail_bounds weak state.region call.operation small).2 (other call running)

/-- Forgetting a process commutes with the steps of the others. -/
theorem finish_apply {forgotten : Nat} (label : Label) (different : label.thread ≠ forgotten) :
    (apply state label).finish forgotten = apply (state.finish forgotten) label := by
  have kept : (state.finish forgotten).threads label.thread = state.threads label.thread :=
    Function.update_of_ne different _ _
  have swap : ∀ next : Option Call,
      Function.update (Function.update state.threads label.thread next) forgotten none =
        Function.update (Function.update state.threads forgotten none) label.thread next :=
    fun next => Function.update_comm different _ _ _
  cases label with
  | start thread request =>
      simp only [Label.thread] at kept swap
      simp only [apply, kept]
      split
      · simp only [State.enter, State.finish, swap]
      · rfl
  | advance thread weak =>
      simp only [Label.thread] at kept swap
      simp only [apply, kept]
      split
      · rfl
      · split
        · rfl
        · simp only [State.advance, State.finish, swap]
  | finish thread =>
      simp only [Label.thread] at kept swap
      simp only [apply, kept]
      split
      · rfl
      · split
        · simp only [State.finish, swap]
        · rfl

end SafetyCrit.SharedMemory.RegionMachine
