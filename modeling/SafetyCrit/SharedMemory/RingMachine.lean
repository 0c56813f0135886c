import SafetyCrit.Library.Run
import SafetyCrit.SharedMemory.RingProtocol

/-!
Owns the machine in which any number of threads run `try_push` and `try_pop`
on one ring, one atomic action at a time, and the history it leaves.

A run starts from `initialize()` on arbitrary storage. Threads are numbered;
each may start any call whenever it is idle. The log is a ghost: it records
claims, commits, reads and releases, and no step reads it.
-/

namespace SafetyCrit.SharedMemory.RingMachine

open SafetyCrit.Library
open SafetyCrit.Library.Run
open SafetyCrit.Library.Claims

/-! ### The machine -/

/-- What the history records. -/
inductive Event where
  | claimPush (thread position : Nat)
  | commit (thread position : Nat) (record : Record)
  | claimPop (thread position : Nat)
  | readCell (thread position : Nat) (payload : List Byte) (crc : BitVec 32)
  | copyOut (thread position : Nat) (bytes : List Byte)
  | release (thread position : Nat)
deriving DecidableEq

/-- The ring, what every thread is doing, and the history. -/
structure State (config : RingConfig) where
  ring : RingBuffer
  threads : Nat → RingThread config
  log : List Event

/-- One scheduling choice. -/
inductive Label (config : RingConfig) where
  | startPush (thread : Nat) (args : PushArgs config)
  | startPop (thread size : Nat)
  | advance (thread : Nat) (weak : Bool)
  | finish (thread : Nat)

variable {config : RingConfig}

/-- The events of one action of `try_push_impl`. -/
def pushEvents (thread : Nat) (args : PushArgs config) (ring : RingBuffer) :
    PushPc → PushPc → List Event
  | .casTail position, .writePayload _ => [.claimPush thread position]
  | .commit position, _ => [.commit thread position (args.record (ring.cellAt config position))]
  | _, _ => []

/-- The events of one action of `try_pop`. -/
def popEvents (config : RingConfig) (thread : Nat) (ring : RingBuffer) :
    PopPc → PopPc → List Event
  | .casHead position, .loadCrc _ => [.claimPop thread position]
  | .checkPayload position crc, _ =>
      [.readCell thread position (ring.cellAt config position).payload crc]
  | .copyOut position, .release _ out => [.copyOut thread position out]
  | .release position _, _ => [.release thread position]
  | .releaseCorrupt position, _ => [.release thread position]
  | _, _ => []

/-- Replace what one thread is doing. -/
def State.setThread (state : State config) (thread : Nat) (next : RingThread config) :
    State config :=
  { state with threads := Function.update state.threads thread next }

/-- One step of the machine. -/
def apply (state : State config) : Label config → State config
  | .startPush thread args =>
      match state.threads thread with
      | .idle => state.setThread thread (.pushing args .loadTail)
      | _ => state
  | .startPop thread size =>
      match state.threads thread with
      | .idle => state.setThread thread (.popping size .loadHead)
      | _ => state
  | .advance thread weak =>
      match state.threads thread with
      | .idle => state
      | .pushing args pc =>
          let next := tryPushStep config args weak state.ring pc
          { ring := next.1
            threads := Function.update state.threads thread (.pushing args next.2)
            log := state.log ++ pushEvents thread args state.ring pc next.2 }
      | .popping size pc =>
          let next := tryPopStep config size weak state.ring pc
          { ring := next.1
            threads := Function.update state.threads thread (.popping size next.2)
            log := state.log ++ popEvents config thread state.ring pc next.2 }
  | .finish thread =>
      match state.threads thread with
      | .pushing _ (.returned _) => state.setThread thread .idle
      | .popping _ (.returned _) => state.setThread thread .idle
      | _ => state

/-- The state after `initialize()` on the given storage. -/
def start (config : RingConfig) (storage : RingBuffer) : State config :=
  ⟨RingBuffer.initializeRing config storage, fun _ => .idle, []⟩

/-- The steps that keep every position below `2 ^ 63`. -/
def Step (before after : State config) : Prop :=
  Permitted (fun state label => (apply state label).ring.tail < 2 ^ 63) apply before after

/-! ### The history -/

/-- The producer claims in order, with the claiming thread. -/
def producerClaims (log : List Event) : List (Nat × Nat) :=
  log.filterMap fun
    | .claimPush thread position => some (thread, position)
    | _ => none

/-- The consumer claims in order, with the claiming thread. -/
def consumerClaims (log : List Event) : List (Nat × Nat) :=
  log.filterMap fun
    | .claimPop thread position => some (thread, position)
    | _ => none

/-- The record was committed at the position. -/
def Committed (log : List Event) (position : Nat) (record : Record) : Prop :=
  ∃ thread, Event.commit thread position record ∈ log

/-- The position was released by its consumer. -/
def Released (log : List Event) (position : Nat) : Prop :=
  ∃ thread, Event.release thread position ∈ log

/-- What every reachable state satisfies. -/
structure Invariant (config : RingConfig) (state : State config) : Prop where
  coherent : Coherent config state.ring state.threads (Committed state.log)
  small : state.ring.tail < 2 ^ 63
  producers : (producerClaims state.log).map Prod.snd = List.range state.ring.tail
  consumers : (consumerClaims state.log).map Prod.snd = List.range state.ring.head
  writer : ∀ thread position, (state.threads thread).writes = some position →
    (thread, position) ∈ producerClaims state.log
  reader : ∀ thread position, (state.threads thread).reads = some position →
    (thread, position) ∈ consumerClaims state.log
  committer : ∀ thread position record, Event.commit thread position record ∈ state.log →
    (thread, position) ∈ producerClaims state.log ∧
      ∃ before, record.payload = overlay record.value before
  releaser : ∀ thread position, Event.release thread position ∈ state.log →
    (thread, position) ∈ consumerClaims state.log
  reads : ∀ thread position payload crc, Event.readCell thread position payload crc ∈ state.log →
    ∃ record, Committed state.log position record ∧ record.payload = payload ∧ record.crc = crc
  copies : ∀ thread position bytes, Event.copyOut thread position bytes ∈ state.log →
    ∃ record size, Committed state.log position record ∧ bytes = record.payload.take size
  intact : ∀ position record, Committed state.log position record →
    ¬ Released state.log position → (state.ring.cellAt config position).sequence = position + 1

theorem invariant_start (storage : RingBuffer) : Invariant config (start config storage) where
  coherent := by
    refine (coherent_initializeRing storage fun _ => rfl).congr fun position record => ?_
    simp [Committed, start]
  small := by simp [start, RingBuffer.initializeRing_eq]
  producers := by simp [start, producerClaims, RingBuffer.initializeRing_eq]
  consumers := by simp [start, consumerClaims, RingBuffer.initializeRing_eq]
  writer := by simp [start, RingThread.writes]
  reader := by simp [start, RingThread.reads]
  committer := by simp [start]
  releaser := by simp [start]
  reads := by simp [start]
  copies := by simp [start]
  intact := by simp [start, Committed]

/-! ### Histories grow -/

@[simp] theorem producerClaims_append (log events : List Event) :
    producerClaims (log ++ events) = producerClaims log ++ producerClaims events := by
  simp [producerClaims]

@[simp] theorem consumerClaims_append (log events : List Event) :
    consumerClaims (log ++ events) = consumerClaims log ++ consumerClaims events := by
  simp [consumerClaims]

theorem committed_append {log events : List Event} {position : Nat} {record : Record} :
    Committed (log ++ events) position record ↔
      Committed log position record ∨ Committed events position record := by
  simp only [Committed, List.mem_append, exists_or]

theorem Committed.grow {log : List Event} {position : Nat} {record : Record}
    (done : Committed log position record) (events : List Event) :
    Committed (log ++ events) position record :=
  committed_append.mpr (Or.inl done)

theorem Released.grow {log : List Event} {position : Nat} (done : Released log position)
    (events : List Event) : Released (log ++ events) position := by
  obtain ⟨thread, member⟩ := done
  exact ⟨thread, List.mem_append_left _ member⟩

/-! ### What one action can do -/

section PushAction

variable {thread : Nat} {args : PushArgs config} {ring : RingBuffer} {weak : Bool} {pc : PushPc}

theorem tryPushStep_head : (tryPushStep config args weak ring pc).1.head = ring.head := by
  cases pc <;> simp only [tryPushStep] <;> (try split) <;> (try split) <;> rfl

/-- Either the action is a successful claim, or it claims nothing new. -/
theorem tryPushStep_claim (thread : Nat) (args : PushArgs config) (weak : Bool) (pc : PushPc)
    (small : ring.tail < 2 ^ 63) :
    (pc = .casTail ring.tail ∧
        (tryPushStep config args weak ring pc).1.tail = ring.tail + 1 ∧
        (tryPushStep config args weak ring pc).2 = .writePayload ring.tail ∧
        pushEvents thread args ring pc (tryPushStep config args weak ring pc).2 =
          [.claimPush thread ring.tail]) ∨
      ((tryPushStep config args weak ring pc).1.tail = ring.tail ∧
        producerClaims (pushEvents thread args ring pc (tryPushStep config args weak ring pc).2) =
          [] ∧
        ∀ position, (tryPushStep config args weak ring pc).2.holds = some position →
          pc.holds = some position) := by
  cases pc with
  | casTail position =>
      simp only [tryPushStep]
      split
      · next claims =>
        obtain ⟨rfl, -⟩ := claims
        exact Or.inl ⟨rfl, wrap64_of_lt (by omega), rfl, rfl⟩
      · exact Or.inr ⟨rfl, rfl, by simp [PushPc.holds]⟩
  | loadSequence position =>
      right
      simp only [tryPushStep]
      split
      · exact ⟨rfl, rfl, by simp [PushPc.holds]⟩
      · split
        · exact ⟨rfl, rfl, by simp [PushPc.holds]⟩
        · exact ⟨rfl, rfl, by simp [PushPc.holds]⟩
  | loadTail => exact Or.inr ⟨rfl, rfl, by simp [tryPushStep, PushPc.holds]⟩
  | reloadTail position => exact Or.inr ⟨rfl, rfl, by simp [tryPushStep, PushPc.holds]⟩
  | writePayload position => exact Or.inr ⟨rfl, rfl, by simp [tryPushStep, PushPc.holds]⟩
  | writeCrc position => exact Or.inr ⟨rfl, rfl, by simp [tryPushStep, PushPc.holds]⟩
  | commit position => exact Or.inr ⟨rfl, rfl, by simp [tryPushStep, PushPc.holds]⟩
  | returned result => exact Or.inr ⟨rfl, rfl, by simp [tryPushStep]⟩

/-- Only the commit store changes a sequence. -/
theorem tryPushStep_sequence (args : PushArgs config) (weak : Bool) (pc : PushPc) (other : Nat) :
    ((tryPushStep config args weak ring pc).1.cellAt config other).sequence =
        (ring.cellAt config other).sequence ∨
      ∃ position, pc = .commit position ∧
        other % config.slotCount = position % config.slotCount ∧
        ((tryPushStep config args weak ring pc).1.cellAt config other).sequence =
          wrap64 (position + 1) := by
  have storeKeeps : ∀ (position : Nat) (cell : Cell),
      cell.sequence = (ring.cellAt config position).sequence →
      ((ring.setCell config position cell).cellAt config other).sequence =
        (ring.cellAt config other).sequence := by
    intro position cell kept
    rw [← RingBuffer.counters_stamp, counters_setCell_of_sequence position cell kept,
      RingBuffer.counters_stamp]
  cases pc with
  | casTail position =>
      left
      simp only [tryPushStep]
      split
      · rfl
      · rfl
  | loadSequence position =>
      left
      simp only [tryPushStep]
      split
      · rfl
      · split
        · rfl
        · rfl
  | loadTail => exact Or.inl rfl
  | reloadTail position => exact Or.inl rfl
  | writePayload position => exact Or.inl (storeKeeps position _ rfl)
  | writeCrc position => exact Or.inl (storeKeeps position _ rfl)
  | commit position =>
      by_cases same : other % config.slotCount = position % config.slotCount
      · refine Or.inr ⟨position, rfl, same, ?_⟩
        simp only [tryPushStep]
        rw [RingBuffer.setCell_cellAt_same same]
      · left
        simp only [tryPushStep]
        rw [RingBuffer.setCell_cellAt_other same]
  | returned result => exact Or.inl rfl

/-- The only record an action publishes is the one of its commit store. -/
theorem committed_pushEvents {next : PushPc} {position : Nat} {record : Record} :
    Committed (pushEvents thread args ring pc next) position record ↔
      pc = .commit position ∧ record = args.record (ring.cellAt config position) := by
  unfold Committed pushEvents
  split
  · simp
  · next place =>
    constructor
    · rintro ⟨author, member⟩
      simp only [List.mem_singleton, Event.commit.injEq] at member
      obtain ⟨-, rfl, rfl⟩ := member
      exact ⟨rfl, rfl⟩
    · rintro ⟨same, rfl⟩
      cases same
      exact ⟨thread, by simp⟩
  · next notCommit =>
    simp only [List.not_mem_nil, exists_false, false_iff, not_and]
    intro same
    exact absurd same (fun equal => by simp_all)

/-- A producer's events are its claim and its commit. -/
theorem pushEvents_kind {next : PushPc} {event : Event}
    (member : event ∈ pushEvents thread args ring pc next) :
    (∃ position, event = .claimPush thread position) ∨
      ∃ position record, event = .commit thread position record := by
  unfold pushEvents at member
  split at member
  · exact Or.inl ⟨_, by simpa using member⟩
  · exact Or.inr ⟨_, _, by simpa using member⟩
  · simp at member

theorem consumerClaims_pushEvents {next : PushPc} :
    consumerClaims (pushEvents thread args ring pc next) = [] := by
  rw [consumerClaims, List.filterMap_eq_nil_iff]
  intro event member
  rcases pushEvents_kind member with ⟨_, rfl⟩ | ⟨_, _, rfl⟩
  all_goals rfl

end PushAction

section PopAction

variable {thread size : Nat} {ring : RingBuffer} {weak : Bool} {pc : PopPc}

theorem tryPopStep_tail : (tryPopStep config size weak ring pc).1.tail = ring.tail := by
  cases pc <;> simp only [tryPopStep] <;> (try split) <;> (try split) <;> rfl

/-- Either the action is a successful claim, or it claims nothing new. -/
theorem tryPopStep_claim (config : RingConfig) (thread size : Nat) (weak : Bool) (pc : PopPc)
    (small : ring.head < 2 ^ 63) :
    (pc = .casHead ring.head ∧
        (tryPopStep config size weak ring pc).1.head = ring.head + 1 ∧
        (tryPopStep config size weak ring pc).2 = .loadCrc ring.head ∧
        popEvents config thread ring pc (tryPopStep config size weak ring pc).2 =
          [.claimPop thread ring.head]) ∨
      ((tryPopStep config size weak ring pc).1.head = ring.head ∧
        consumerClaims
          (popEvents config thread ring pc (tryPopStep config size weak ring pc).2) = [] ∧
        ∀ position, (tryPopStep config size weak ring pc).2.holds = some position →
          pc.holds = some position) := by
  cases pc with
  | casHead position =>
      simp only [tryPopStep]
      split
      · next claims =>
        obtain ⟨rfl, -⟩ := claims
        exact Or.inl ⟨rfl, wrap64_of_lt (by omega), rfl, rfl⟩
      · exact Or.inr ⟨rfl, rfl, by simp [PopPc.holds]⟩
  | loadSequence position =>
      right
      simp only [tryPopStep]
      split
      · exact ⟨rfl, rfl, by simp [PopPc.holds]⟩
      · split
        · exact ⟨rfl, rfl, by simp [PopPc.holds]⟩
        · exact ⟨rfl, rfl, by simp [PopPc.holds]⟩
  | checkPayload position crc =>
      right
      simp only [tryPopStep]
      split
      · exact ⟨rfl, rfl, by simp [PopPc.holds]⟩
      · exact ⟨rfl, rfl, by simp [PopPc.holds]⟩
  | loadHead => exact Or.inr ⟨rfl, rfl, by simp [tryPopStep, PopPc.holds]⟩
  | reloadHead position => exact Or.inr ⟨rfl, rfl, by simp [tryPopStep, PopPc.holds]⟩
  | loadCrc position => exact Or.inr ⟨rfl, rfl, by simp [tryPopStep, PopPc.holds]⟩
  | copyOut position => exact Or.inr ⟨rfl, rfl, by simp [tryPopStep, PopPc.holds]⟩
  | release position out => exact Or.inr ⟨rfl, rfl, by simp [tryPopStep, PopPc.holds]⟩
  | releaseCorrupt position => exact Or.inr ⟨rfl, rfl, by simp [tryPopStep, PopPc.holds]⟩
  | countCorruption => exact Or.inr ⟨rfl, rfl, by simp [tryPopStep, PopPc.holds]⟩
  | returned result => exact Or.inr ⟨rfl, rfl, by simp [tryPopStep]⟩

/-- Only a release store changes a sequence, and it is recorded. -/
theorem tryPopStep_sequence (config : RingConfig) (thread size : Nat) (weak : Bool) (pc : PopPc)
    (other : Nat) :
    ((tryPopStep config size weak ring pc).1.cellAt config other).sequence =
        (ring.cellAt config other).sequence ∨
      ∃ position, pc.holds = some position ∧
        other % config.slotCount = position % config.slotCount ∧
        ((tryPopStep config size weak ring pc).1.cellAt config other).sequence =
          wrap64 (position + config.slotCount) ∧
        .release thread position ∈
          popEvents config thread ring pc (tryPopStep config size weak ring pc).2 := by
  have store : ∀ position cell, other % config.slotCount ≠ position % config.slotCount →
      ((ring.setCell config position cell).cellAt config other).sequence =
        (ring.cellAt config other).sequence := by
    intro position cell different
    rw [RingBuffer.setCell_cellAt_other different]
  cases pc with
  | release position out =>
      by_cases same : other % config.slotCount = position % config.slotCount
      · refine Or.inr ⟨position, rfl, same, ?_, by simp [popEvents]⟩
        simp only [tryPopStep]
        rw [RingBuffer.setCell_cellAt_same same]
      · exact Or.inl (store position _ same)
  | releaseCorrupt position =>
      by_cases same : other % config.slotCount = position % config.slotCount
      · refine Or.inr ⟨position, rfl, same, ?_, by simp [popEvents]⟩
        simp only [tryPopStep]
        rw [RingBuffer.setCell_cellAt_same same]
      · exact Or.inl (store position _ same)
  | loadSequence position =>
      left
      simp only [tryPopStep]
      split
      · rfl
      · split
        · rfl
        · rfl
  | casHead position =>
      left
      simp only [tryPopStep]
      split
      · rfl
      · rfl
  | checkPayload position crc =>
      left
      simp only [tryPopStep]
      split
      · rfl
      · rfl
  | loadHead => exact Or.inl rfl
  | reloadHead position => exact Or.inl rfl
  | loadCrc position => exact Or.inl rfl
  | copyOut position => exact Or.inl rfl
  | countCorruption => exact Or.inl rfl
  | returned result => exact Or.inl rfl

/-- What a consumer records: its claim, or what it did to the cell it owns. -/
theorem popEvents_kind {event : Event}
    (member : event ∈ popEvents config thread ring pc (tryPopStep config size weak ring pc).2) :
    (∃ position, event = .claimPop thread position) ∨
      ∃ position, pc.holds = some position ∧
        ((∃ crc, pc = .checkPayload position crc ∧
            event = .readCell thread position (ring.cellAt config position).payload crc) ∨
          event = .copyOut thread position ((ring.cellAt config position).payload.take size) ∨
          event = .release thread position) := by
  cases pc with
  | casHead position =>
      simp only [tryPopStep] at member
      split at member
      · exact Or.inl ⟨position, by simpa [popEvents] using member⟩
      · simp [popEvents] at member
  | checkPayload position crc =>
      refine Or.inr ⟨position, rfl, Or.inl ⟨crc, rfl, ?_⟩⟩
      simpa [popEvents] using member
  | copyOut position =>
      refine Or.inr ⟨position, rfl, Or.inr (Or.inl ?_)⟩
      simpa [popEvents, tryPopStep] using member
  | release position out =>
      refine Or.inr ⟨position, rfl, Or.inr (Or.inr ?_)⟩
      simpa [popEvents] using member
  | releaseCorrupt position =>
      refine Or.inr ⟨position, rfl, Or.inr (Or.inr ?_)⟩
      simpa [popEvents] using member
  | loadSequence position => simp [popEvents] at member
  | loadHead => simp [popEvents] at member
  | reloadHead position => simp [popEvents] at member
  | loadCrc position => simp [popEvents] at member
  | countCorruption => simp [popEvents] at member
  | returned result => simp [popEvents] at member

theorem committed_popEvents {position : Nat} {record : Record} :
    ¬ Committed (popEvents config thread ring pc (tryPopStep config size weak ring pc).2)
      position record := by
  rintro ⟨author, member⟩
  rcases popEvents_kind member with ⟨_, equal⟩ | ⟨_, -, ⟨_, -, equal⟩ | equal | equal⟩
  all_goals cases equal

theorem producerClaims_popEvents :
    producerClaims (popEvents config thread ring pc (tryPopStep config size weak ring pc).2) =
      [] := by
  rw [producerClaims, List.filterMap_eq_nil_iff]
  intro event member
  rcases popEvents_kind member with ⟨_, rfl⟩ | ⟨_, -, ⟨_, -, rfl⟩ | rfl | rfl⟩
  all_goals rfl

end PopAction

/-- A thread without a claim moves to another state without one; ring and
history stay. -/
theorem Invariant.move {state : State config} (invariant : Invariant config state) {thread : Nat}
    {next : RingThread config} (writesBefore : (state.threads thread).writes = none)
    (readsBefore : (state.threads thread).reads = none) (writes : next.writes = none)
    (reads : next.reads = none) (facts : LocalFacts config state.ring next) :
    Invariant config (state.setThread thread next) where
  coherent := invariant.coherent.relocate next (writes.trans writesBefore.symm)
    (reads.trans readsBefore.symm) facts
  small := invariant.small
  producers := invariant.producers
  consumers := invariant.consumers
  writer := by
    intro other position claims
    by_cases same : other = thread
    · subst same
      simp [State.setThread, writes] at claims
    · exact invariant.writer other position (by simpa [State.setThread, same] using claims)
  reader := by
    intro other position claims
    by_cases same : other = thread
    · subst same
      simp [State.setThread, reads] at claims
    · exact invariant.reader other position (by simpa [State.setThread, same] using claims)
  committer := invariant.committer
  releaser := invariant.releaser
  reads := invariant.reads
  copies := invariant.copies
  intact := invariant.intact

/-- Claims of the other threads survive a growing history. -/
theorem claim_update {claim : RingThread config → Option Nat} {threads : Nat → RingThread config}
    {thread : Nat} {next : RingThread config} {claims grown : List (Nat × Nat)}
    (before : ∀ other position, claim (threads other) = some position → (other, position) ∈ claims)
    (mine : ∀ position, claim next = some position → (thread, position) ∈ claims ++ grown)
    (other position : Nat)
    (claimed : claim (Function.update threads thread next other) = some position) :
    (other, position) ∈ claims ++ grown := by
  by_cases same : other = thread
  · subst same
    exact mine position (by simpa using claimed)
  · exact List.mem_append_left _ (before other position (by simpa [same] using claimed))

/-- One action of a producer keeps the invariant. -/
theorem Invariant.push {state : State config} (invariant : Invariant config state) {thread : Nat}
    {args : PushArgs config} {pc : PushPc} (weak : Bool)
    (located : state.threads thread = .pushing args pc)
    (small : (tryPushStep config args weak state.ring pc).1.tail < 2 ^ 63) :
    Invariant config
      { ring := (tryPushStep config args weak state.ring pc).1
        threads := Function.update state.threads thread
          (.pushing args (tryPushStep config args weak state.ring pc).2)
        log := state.log ++
          pushEvents thread args state.ring pc (tryPushStep config args weak state.ring pc).2 } where
  coherent := by
    refine (invariant.coherent.push invariant.small weak located).congr fun position record => ?_
    rw [committed_append, committed_pushEvents]
  small := small
  producers := by
    rw [producerClaims_append, List.map_append, invariant.producers]
    rcases tryPushStep_claim thread args weak pc invariant.small with ⟨-, tail, -, events⟩ | ⟨tail, events, -⟩
    · rw [tail, events, List.range_succ]
      rfl
    · rw [tail, events]
      simp
  consumers := by
    rw [consumerClaims_append, consumerClaims_pushEvents, List.append_nil, invariant.consumers,
      tryPushStep_head]
  writer := by
    rw [producerClaims_append]
    refine claim_update invariant.writer fun position claims => ?_
    rcases tryPushStep_claim thread args weak pc invariant.small with ⟨-, -, next, events⟩ | ⟨-, -, kept⟩
    · rw [next] at claims
      cases claims
      rw [events]
      exact List.mem_append_right _ (List.mem_singleton_self _)
    · refine List.mem_append_left _ (invariant.writer thread position ?_)
      rw [located]
      exact kept position claims
  reader := by
    rw [consumerClaims_append]
    exact claim_update invariant.reader fun position claims => by cases claims
  committer := by
    intro author position record member
    rw [producerClaims_append]
    rcases List.mem_append.mp member with old | new
    · obtain ⟨claimed, written⟩ := invariant.committer author position record old
      exact ⟨List.mem_append_left _ claimed, written⟩
    · obtain ⟨rfl, rfl⟩ := committed_pushEvents.mp ⟨author, new⟩
      have facts := invariant.coherent.facts thread
      rw [located] at facts
      obtain rfl : author = thread := by
        rcases pushEvents_kind new with ⟨_, equal⟩ | ⟨_, _, equal⟩ <;> cases equal
        rfl
      refine ⟨List.mem_append_left _ (invariant.writer author position ?_), facts.1⟩
      rw [located]
      rfl
  releaser := by
    intro author position member
    rw [consumerClaims_append]
    rcases List.mem_append.mp member with old | new
    · exact List.mem_append_left _ (invariant.releaser author position old)
    · rcases pushEvents_kind new with ⟨_, equal⟩ | ⟨_, _, equal⟩ <;> cases equal
  reads := by
    intro author position payload crc member
    rcases List.mem_append.mp member with old | new
    · obtain ⟨record, done, content⟩ := invariant.reads author position payload crc old
      exact ⟨record, done.grow _, content⟩
    · rcases pushEvents_kind new with ⟨_, equal⟩ | ⟨_, _, equal⟩ <;> cases equal
  copies := by
    intro author position bytes member
    rcases List.mem_append.mp member with old | new
    · obtain ⟨record, size, done, content⟩ := invariant.copies author position bytes old
      exact ⟨record, size, done.grow _, content⟩
    · rcases pushEvents_kind new with ⟨_, equal⟩ | ⟨_, _, equal⟩ <;> cases equal
  intact := by
    intro position record done kept
    have heldBefore : ¬ Released state.log position := fun released => kept (released.grow _)
    rcases committed_append.mp done with old | new
    · have stamped := invariant.intact position record old heldBefore
      rcases tryPushStep_sequence args weak pc position with
        same | ⟨claimed, rfl, slot, -⟩
      · exact same.trans stamped
      · -- the producer at `claimed` would share its slot with a committed record
        have writes : (state.threads thread).writes = some claimed := by rw [located]; rfl
        have mark := (invariant.coherent.writing_sequence writes).2.2
        rw [RingBuffer.cellAt_eq, slot, ← RingBuffer.cellAt_eq, mark] at stamped
        exact absurd stamped (succ_ne_of_same_slot slot)
    · obtain ⟨rfl, -⟩ := committed_pushEvents.mp new
      have writes : (state.threads thread).writes = some position := by rw [located]; rfl
      have below := (invariant.coherent.writing_sequence writes).2.1
      have bound := invariant.small
      simp only [tryPushStep]
      rw [RingBuffer.setCell_cellAt_same rfl, wrap64_of_lt (by omega)]

/-- A consumer that owns a position finds there what was committed. -/
theorem Invariant.owned {state : State config} (invariant : Invariant config state)
    {thread position : Nat} (reads : (state.threads thread).reads = some position) :
    ∃ record, Committed state.log position record ∧
      (state.ring.cellAt config position).payload = record.payload ∧
      (state.ring.cellAt config position).crc = record.crc :=
  invariant.coherent.held position (invariant.coherent.reading_sequence reads).2.2

/-- One action of a consumer keeps the invariant. -/
theorem Invariant.pop {state : State config} (invariant : Invariant config state)
    {thread size : Nat} {pc : PopPc} (weak : Bool)
    (located : state.threads thread = .popping size pc) :
    Invariant config
      { ring := (tryPopStep config size weak state.ring pc).1
        threads := Function.update state.threads thread
          (.popping size (tryPopStep config size weak state.ring pc).2)
        log := state.log ++
          popEvents config thread state.ring pc (tryPopStep config size weak state.ring pc).2 } := by
  have readsNow : (state.threads thread).reads = pc.holds := by rw [located]; rfl
  have headSmall : state.ring.head < 2 ^ 63 :=
    lt_of_le_of_lt invariant.coherent.window.ordered invariant.small
  exact
  { coherent := by
      refine (invariant.coherent.pop invariant.small weak located).congr fun position record => ?_
      rw [committed_append, or_iff_left committed_popEvents]
    small := by
      rw [tryPopStep_tail]
      exact invariant.small
    producers := by
      rw [producerClaims_append, producerClaims_popEvents, List.append_nil, invariant.producers,
        tryPopStep_tail]
    consumers := by
      rw [consumerClaims_append, List.map_append, invariant.consumers]
      rcases tryPopStep_claim config thread size weak pc headSmall with ⟨-, head, -, events⟩ | ⟨head, events, -⟩
      · rw [head, events, List.range_succ]
        rfl
      · rw [head, events]
        simp
    writer := by
      rw [producerClaims_append]
      exact claim_update invariant.writer fun position claims => by cases claims
    reader := by
      rw [consumerClaims_append]
      refine claim_update invariant.reader fun position claims => ?_
      rcases tryPopStep_claim config thread size weak pc headSmall with ⟨-, -, next, events⟩ | ⟨-, -, kept⟩
      · rw [next] at claims
        cases claims
        rw [events]
        exact List.mem_append_right _ (List.mem_singleton_self _)
      · refine List.mem_append_left _ (invariant.reader thread position ?_)
        rw [readsNow]
        exact kept position claims
    committer := by
      intro author position record member
      rw [producerClaims_append]
      rcases List.mem_append.mp member with old | new
      · obtain ⟨claimed, written⟩ := invariant.committer author position record old
        exact ⟨List.mem_append_left _ claimed, written⟩
      · exact absurd ⟨author, new⟩ committed_popEvents
    releaser := by
      intro author position member
      rw [consumerClaims_append]
      refine List.mem_append_left _ ?_
      rcases List.mem_append.mp member with old | new
      · exact invariant.releaser author position old
      · rcases popEvents_kind new with ⟨_, equal⟩ | ⟨_, holds, ⟨_, -, equal⟩ | equal | equal⟩ <;>
          cases equal
        exact invariant.reader thread position (readsNow.trans holds)
    reads := by
      intro author position payload crc member
      rcases List.mem_append.mp member with old | new
      · obtain ⟨record, done, content⟩ := invariant.reads author position payload crc old
        exact ⟨record, done.grow _, content⟩
      · rcases popEvents_kind new with
          ⟨_, equal⟩ | ⟨_, holds, ⟨_, rfl, equal⟩ | equal | equal⟩ <;> cases equal
        obtain ⟨record, done, samePayload, sameCrc⟩ := invariant.owned (readsNow.trans holds)
        have facts := invariant.coherent.facts thread
        rw [located] at facts
        exact ⟨record, done.grow _, samePayload.symm, sameCrc.symm.trans facts⟩
    copies := by
      intro author position bytes member
      rcases List.mem_append.mp member with old | new
      · obtain ⟨record, length, done, content⟩ := invariant.copies author position bytes old
        exact ⟨record, length, done.grow _, content⟩
      · rcases popEvents_kind new with
          ⟨_, equal⟩ | ⟨_, holds, ⟨_, -, equal⟩ | equal | equal⟩ <;> cases equal
        obtain ⟨record, done, samePayload, -⟩ := invariant.owned (readsNow.trans holds)
        exact ⟨record, size, done.grow _, by rw [samePayload]⟩
    intact := by
      intro position record done kept
      have old := (committed_append.mp done).resolve_right committed_popEvents
      have stamped := invariant.intact position record old fun released => kept (released.grow _)
      rcases tryPopStep_sequence config thread size weak pc position with
        same | ⟨owned, holds, slot, -, event⟩
      · exact same.trans stamped
      · -- the released slot carries the stamp of both, so they are one position
        have mark := (invariant.coherent.reading_sequence (readsNow.trans holds)).2.2
        rw [RingBuffer.cellAt_eq, slot, ← RingBuffer.cellAt_eq, mark] at stamped
        obtain rfl : owned = position := by omega
        exact absurd ⟨thread, List.mem_append_right _ event⟩ kept }

/-! ### Runs -/

theorem invariant_step {before after : State config} (invariant : Invariant config before)
    (step : Step before after) : Invariant config after := by
  obtain ⟨label, small, rfl⟩ := step
  cases label with
  | startPush thread args =>
      simp only [apply]
      split
      · next located =>
        refine invariant.move ?_ ?_ rfl rfl trivial
        all_goals rw [located]; rfl
      · exact invariant
  | startPop thread size =>
      simp only [apply]
      split
      · next located =>
        refine invariant.move ?_ ?_ rfl rfl trivial
        all_goals rw [located]; rfl
      · exact invariant
  | advance thread weak =>
      simp only [apply] at small ⊢
      split at small
      · next located =>
        simpa only [located] using invariant
      · next located =>
        simpa only [located] using invariant.push weak located small
      · next located =>
        simpa only [located] using invariant.pop weak located
  | finish thread =>
      simp only [apply]
      split
      · next located =>
        refine invariant.move ?_ ?_ rfl rfl trivial
        all_goals rw [located]; rfl
      · next located =>
        refine invariant.move ?_ ?_ rfl rfl trivial
        all_goals rw [located]; rfl
      · exact invariant

theorem reachable_invariant {storage : RingBuffer} {state : State config}
    (reach : Reachable Step (start config storage) state) : Invariant config state :=
  reach.invariant (invariant_start storage) fun _ _ _ => invariant_step

/-- The smallest ring: two slots of four bytes. -/
def twoSlots : RingConfig where
  slotCount := 2
  slotBytes := 4
  powerOfTwo := ⟨1, rfl⟩
  atLeastTwo := by decide
  fitsWord := by decide
  bytesPositive := by decide

end SafetyCrit.SharedMemory.RingMachine
