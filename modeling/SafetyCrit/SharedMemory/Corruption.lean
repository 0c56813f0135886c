import SafetyCrit.SharedMemory.Checksum
import SafetyCrit.SharedMemory.RingMachine

/-!
Owns what happens to a committed slot whose bytes are damaged before it is
read: the ring's protocol does not notice, and the consumer that claims the
slot skips it.

The damage is arbitrary as far as the protocol is concerned. The checksum
detects it when it is confined to 32 consecutive bits of the payload field, or
to the tag.
-/

namespace SafetyCrit.SharedMemory

open SafetyCrit.Library
open SafetyCrit.Library.Run
open SafetyCrit.Library.Claims

deriving instance DecidableEq for PushArgs, RingThread

/-! ### Damage to one cell -/

/-- Overwrite the payload field and the tag of a position's cell. -/
def RingBuffer.damage (config : RingConfig) (ring : RingBuffer) (position : Nat)
    (payload : List Byte) (crc : BitVec 32) : RingBuffer :=
  ring.setCell config position { ring.cellAt config position with payload := payload, crc := crc }

/-- The damage the checksum is meant for: a burst in the payload field, or a
change of the tag alone. -/
inductive Damage (cell : Cell) (payload : List Byte) (crc : BitVec 32) : Prop
  | burst (sameLength : cell.payload.length = payload.length)
      (within : WithinBurst cell.payload payload) (changed : cell.payload ≠ payload)
      (tag : crc = cell.crc)
  | tag (same : payload = cell.payload) (changed : crc ≠ cell.crc)

/-- Such damage to an intact cell shows. -/
theorem Damage.detected {cell : Cell} {payload : List Byte} {crc : BitVec 32}
    (damage : Damage cell payload crc) (intact : cell.crc = crc32c cell.payload) :
    crc ≠ crc32c payload := by
  cases damage with
  | burst sameLength within changed tag =>
      rw [tag, intact]
      exact crc32c_ne_of_burst sameLength within changed
  | tag same changed =>
      rw [same, ← intact]
      exact changed

section Coherence

variable {ι : Type*} {config : RingConfig} {ring : RingBuffer} {view : ι → RingThread config}
  {committed : Nat → Record → Prop}

/-- Nobody owns the cell of a committed position that no consumer has claimed. -/
theorem Coherent.apart_of_unread (coherent : Coherent config ring view committed) {position : Nat}
    (unread : ring.head ≤ position) (below : position < ring.tail)
    (stamped : (ring.cellAt config position).sequence = position + 1) {thread : ι} {other : Nat}
    (holds : (view thread).Holds other) : other % config.slotCount ≠ position % config.slotCount := by
  intro same
  have bounded : ring.tail ≤ ring.head + config.slotCount := coherent.window.bounded
  rcases holds with writes | reads
  · obtain ⟨low, high, mark⟩ := coherent.writing_sequence writes
    obtain rfl : other = position := StampedRing.eq_of_mod_eq same (by omega) (by omega)
    omega
  · obtain ⟨low, near, -⟩ := coherent.reading_sequence reads
    have equal : other = position := StampedRing.eq_of_mod_eq same (by omega) (by omega)
    omega

/-- Damage to an unread record leaves the ring coherent, with another record
committed in its place. -/
theorem Coherent.damage (coherent : Coherent config ring view committed) {position : Nat}
    {record : Record} (done : committed position record) (unread : ring.head ≤ position)
    (stamped : (ring.cellAt config position).sequence = position + 1) (payload : List Byte)
    (crc : BitVec 32) :
    Coherent config (ring.damage config position payload crc) view fun other found =>
      if other = position then found = ⟨record.value, payload, crc⟩ else committed other found where
  window := by
    have same : (ring.damage config position payload crc).counters = ring.counters :=
      counters_setCell_of_sequence position _ rfl
    rw [same]
    exact coherent.window
  oneWriter := coherent.oneWriter
  oneReader := coherent.oneReader
  facts := by
    have below := (coherent.committedPast position record done).1
    have stampKept : ∀ other,
        ((ring.damage config position payload crc).cellAt config other).sequence =
          (ring.cellAt config other).sequence := by
      intro other
      by_cases same : other % config.slotCount = position % config.slotCount
      · rw [RingBuffer.damage, RingBuffer.setCell_cellAt_same same, RingBuffer.cellAt_eq,
          RingBuffer.cellAt_eq, same]
      · rw [RingBuffer.damage, RingBuffer.setCell_cellAt_other same]
    intro thread
    refine (coherent.facts thread).frame (fun place low ready => ?_) (fun place low ready => ?_)
      (fun place holds => ?_)
    · rw [stampKept]
      exact ready low
    · rw [stampKept]
      exact ready low
    · exact RingBuffer.setCell_cellAt_other
        (coherent.apart_of_unread unread below stamped holds)
  held := by
    intro other mark
    by_cases same : other % config.slotCount = position % config.slotCount
    · rw [RingBuffer.damage, RingBuffer.setCell_cellAt_same same] at mark ⊢
      obtain rfl : other = position := by simp only at mark; omega
      exact ⟨⟨record.value, payload, crc⟩, by rw [if_pos rfl], rfl, rfl⟩
    · rw [RingBuffer.damage, RingBuffer.setCell_cellAt_other same] at mark ⊢
      obtain ⟨found, old, content⟩ := coherent.held other mark
      have different : other ≠ position := fun equal => same (by rw [equal])
      exact ⟨found, by rwa [if_neg different], content⟩
  committedPast := by
    intro other found here
    by_cases same : other = position
    · subst same
      exact coherent.committedPast other record done
    · rw [if_neg same] at here
      exact coherent.committedPast other found here
  committedUnique := by
    intro other left right first second
    by_cases same : other = position
    · rw [if_pos same] at first second
      rw [first, second]
    · rw [if_neg same] at first second
      exact coherent.committedUnique other left right first second

end Coherence

namespace RingMachine

variable {config : RingConfig}

/-! ### Histories -/

/-- What was committed stays committed. -/
theorem committed_apply {state : State config} {position : Nat} {record : Record}
    (done : Committed state.log position record) (label : Label config) :
    Committed (apply state label).log position record := by
  cases label with
  | startPush thread args => simp only [apply]; split <;> exact done
  | startPop thread size => simp only [apply]; split <;> exact done
  | finish thread => simp only [apply]; split <;> exact done
  | advance thread weak =>
      simp only [apply]
      split
      · exact done
      · exact done.grow _
      · exact done.grow _

theorem committed_reachable {before after : State config} {position : Nat} {record : Record}
    (done : Committed before.log position record) (onward : Reachable Step before after) :
    Committed after.log position record := by
  refine onward.invariant (motive := fun state => Committed state.log position record) done ?_
  rintro earlier later - done ⟨label, -, rfl⟩
  exact committed_apply done label

/-- A `try_push` commits its record with the tag of its payload field. -/
theorem committed_of_clean {storage : RingBuffer} {state : State config}
    (reach : Reachable Step (start config storage) state) {thread position : Nat}
    {value : List Byte} {fits : value.length ≤ config.slotBytes} (weak : Bool)
    (committing : state.threads thread = .pushing (.clean value fits) (.commit position)) :
    ∃ record, Committed (apply state (.advance thread weak)).log position record ∧
      record.crc = crc32c record.payload := by
  have facts := (reachable_invariant reach).coherent.facts thread
  rw [committing] at facts
  refine ⟨(PushArgs.clean value fits).record (state.ring.cellAt config position), ?_, ?_⟩
  · simp only [apply, committing]
    exact committed_append.mpr (Or.inr (committed_pushEvents.mpr ⟨rfl, rfl⟩))
  · exact facts.2.trans (BitVec.xor_zero)

/-! ### Spoiled positions -/

/-- The record at a position no longer carries its tag. -/
structure Spoiled (config : RingConfig) (state : State config) (position : Nat)
    (record : Record) : Prop where
  small : state.ring.tail < 2 ^ 63
  coherent : ∃ committed, Coherent config state.ring state.threads committed ∧
    committed position record
  mismatch : record.crc ≠ crc32c record.payload

theorem Spoiled.step {before after : State config} {position : Nat} {record : Record}
    (spoiled : Spoiled config before position record) (step : Step before after) :
    Spoiled config after position record := by
  obtain ⟨label, small, rfl⟩ := step
  refine ⟨small, ?_, spoiled.mismatch⟩
  obtain ⟨committed, coherent, done⟩ := spoiled.coherent
  have idles : ∀ {thread : Nat} {next : RingThread config},
      (before.threads thread).writes = none → (before.threads thread).reads = none →
      next.writes = none → next.reads = none → LocalFacts config before.ring next →
      ∃ committed, Coherent config (before.setThread thread next).ring
        (before.setThread thread next).threads committed ∧ committed position record := by
    intro thread next writes reads writes' reads' facts
    exact ⟨committed, coherent.relocate next (writes'.trans writes.symm)
      (reads'.trans reads.symm) facts, done⟩
  cases label with
  | startPush thread args =>
      simp only [apply]
      split
      · next located => exact idles (by rw [located]; rfl) (by rw [located]; rfl) rfl rfl trivial
      · exact ⟨committed, coherent, done⟩
  | startPop thread size =>
      simp only [apply]
      split
      · next located => exact idles (by rw [located]; rfl) (by rw [located]; rfl) rfl rfl trivial
      · exact ⟨committed, coherent, done⟩
  | finish thread =>
      simp only [apply]
      split
      · next located => exact idles (by rw [located]; rfl) (by rw [located]; rfl) rfl rfl trivial
      · next located => exact idles (by rw [located]; rfl) (by rw [located]; rfl) rfl rfl trivial
      · exact ⟨committed, coherent, done⟩
  | advance thread weak =>
      simp only [apply]
      split
      · exact ⟨committed, coherent, done⟩
      · next located => exact ⟨_, coherent.push spoiled.small weak located, Or.inl done⟩
      · next located => exact ⟨_, coherent.pop spoiled.small weak located, done⟩

/-- A consumer that owns a spoiled position finds the spoiled record there. -/
theorem Spoiled.owned {state : State config} {position : Nat} {record : Record}
    (spoiled : Spoiled config state position record) {thread : Nat}
    (reads : (state.threads thread).reads = some position) :
    position < 2 ^ 63 ∧ (state.ring.cellAt config position).payload = record.payload ∧
      (state.ring.cellAt config position).crc = record.crc := by
  obtain ⟨committed, coherent, done⟩ := spoiled.coherent
  obtain ⟨below, -, stamped⟩ := coherent.reading_sequence reads
  obtain ⟨found, here, payload, crc⟩ := coherent.held position stamped
  obtain rfl := coherent.committedUnique position _ _ here done
  have ordered : state.ring.head ≤ state.ring.tail := coherent.window.ordered
  have small := spoiled.small
  exact ⟨by omega, payload, crc⟩

/-! ### Skipping -/

/-- Where a `try_pop` stands that skips a position, by the number of actions it
has made since it claimed it. -/
def skipStage (position : Nat) (crc : BitVec 32) : Nat → PopPc
  | 0 => .loadCrc position
  | 1 => .checkPayload position crc
  | 2 => .releaseCorrupt position
  | 3 => .countCorruption
  | _ => .returned .corrupted

/-- What its next action does to the ring. -/
def skipEffect (config : RingConfig) (position : Nat) : Nat → RingBuffer → RingBuffer
  | 2, ring => ring.setCell config position
      { ring.cellAt config position with sequence := position + config.slotCount }
  | 3, ring => { ring with corruptionCount := wrap64 (ring.corruptionCount + 1) }
  | _, ring => ring

/-- The label is an action of the thread. -/
def Label.advances (thread : Nat) : Label config → Bool
  | .advance other _ => decide (other = thread)
  | _ => false

/-- The actions a schedule gives to a thread. -/
def actionsOf (thread : Nat) (schedule : List (Label config)) : Nat :=
  schedule.countP (Label.advances thread)

/-- The next action of a consumer that skips a spoiled position. -/
theorem Spoiled.skip {state : State config} {position : Nat} {record : Record}
    (spoiled : Spoiled config state position record) {thread size actions : Nat}
    (located : state.threads thread = .popping size (skipStage position record.crc actions))
    (weak : Bool) :
    tryPopStep config size weak state.ring (skipStage position record.crc actions) =
      (skipEffect config position actions state.ring,
        skipStage position record.crc (actions + 1)) := by
  have owned : ∀ pc : PopPc, state.threads thread = .popping size pc → pc.holds = some position →
      position < 2 ^ 63 ∧ (state.ring.cellAt config position).payload = record.payload ∧
        (state.ring.cellAt config position).crc = record.crc := by
    intro pc located holds
    have reads : (state.threads thread).reads = some position := by
      rw [located]
      exact holds
    exact spoiled.owned reads
  match actions with
  | 0 =>
      obtain ⟨-, -, crc⟩ := owned _ located rfl
      simp only [skipStage, skipEffect, tryPopStep, crc]
  | 1 =>
      obtain ⟨-, payload, -⟩ := owned _ located rfl
      simp only [skipStage, skipEffect, tryPopStep, payload]
      rw [if_pos spoiled.mismatch]
  | 2 =>
      obtain ⟨small, -, -⟩ := owned _ located rfl
      have lap := config.slotCount_le
      simp only [skipStage, skipEffect, tryPopStep]
      rw [wrap64_of_lt (by omega)]
  | 3 => rfl
  | _ + 4 => rfl

/-- One step of the system while a consumer skips a spoiled position. -/
theorem Spoiled.skipping {state : State config} {position : Nat} {record : Record}
    (spoiled : Spoiled config state position record) {thread size actions : Nat}
    (located : state.threads thread = .popping size (skipStage position record.crc actions))
    {label : Label config} (kept : label ≠ .finish thread) :
    (apply state label).threads thread = .popping size
      (skipStage position record.crc
        (actions + if label.advances thread = true then 1 else 0)) := by
  have elsewhere {other : Nat} (different : other ≠ thread) (next : RingThread config) :
      Function.update state.threads other next thread =
        .popping size (skipStage position record.crc actions) :=
    (Function.update_of_ne (Ne.symm different) ..).trans located
  cases label with
  | startPush other args =>
      by_cases same : other = thread
      · subst same
        simp [apply, located, Label.advances]
      · simp only [apply]
        split
        · exact elsewhere same _
        · exact located
  | startPop other size' =>
      by_cases same : other = thread
      · subst same
        simp [apply, located, Label.advances]
      · simp only [apply]
        split
        · exact elsewhere same _
        · exact located
  | finish other =>
      have different : other ≠ thread := fun same => kept (by rw [same])
      simp only [apply]
      split
      · exact elsewhere different _
      · exact elsewhere different _
      · exact located
  | advance other weak =>
      by_cases same : other = thread
      · subst same
        simp only [apply, located, Function.update_self, spoiled.skip located, Label.advances,
          decide_true, if_true]
      · simp only [apply, Label.advances, same, decide_false, Bool.false_eq_true, if_false,
          Nat.add_zero]
        split
        · exact located
        · exact elsewhere same _
        · exact elsewhere same _

theorem Spoiled.run {state : State config} {position : Nat} {record : Record}
    (spoiled : Spoiled config state position record) {thread size actions : Nat}
    (located : state.threads thread = .popping size (skipStage position record.crc actions))
    (schedule : List (Label config)) (kept : ∀ label ∈ schedule, label ≠ .finish thread)
    (allows : Allows (fun state label => (apply state label).ring.tail < 2 ^ 63) apply state
      schedule) :
    Spoiled config (schedule.foldl apply state) position record ∧
      (schedule.foldl apply state).threads thread = .popping size
        (skipStage position record.crc (actions + actionsOf thread schedule)) := by
  induction schedule generalizing state actions with
  | nil => exact ⟨spoiled, located⟩
  | cons label rest inductionHypothesis =>
      have moved := spoiled.skipping located (kept label List.mem_cons_self)
      have next := inductionHypothesis (spoiled.step ⟨label, allows.1, rfl⟩) moved
        (fun other member => kept other (List.mem_cons_of_mem _ member)) allows.2
      have counted : actionsOf thread (label :: rest) =
          (if label.advances thread = true then 1 else 0) + actionsOf thread rest := by
        rw [actionsOf, List.countP_cons, Nat.add_comm]
        rfl
      rw [counted, ← Nat.add_assoc]
      exact next

/-! ### Burst errors -/

/-- A record a `try_push` committed is damaged, by a burst in its payload field
or in its tag, before a consumer has claimed it. Whoever claims it makes four
actions, whatever the others do meanwhile: it returns without having copied
anything, and of the ring it changes the slot's sequence, to the normal
next-lap marker, and the corruption count, by one. -/
theorem burst_error_skipped (config : RingConfig) (storage : RingBuffer)
    (producing state claimed : State config)
    (reach : Reachable Step (start config storage) producing)
    (producer position : Nat) (value : List Byte) (fits : value.length ≤ config.slotBytes)
    (commits : producing.threads producer = .pushing (.clean value fits) (.commit position))
    (committed : Reachable Step (apply producing (.advance producer false)) state)
    (unread : state.ring.head ≤ position)
    (payload : List Byte) (crc : BitVec 32)
    (damage : Damage (state.ring.cellAt config position) payload crc)
    (onward : Reachable Step
      { state with ring := state.ring.damage config position payload crc } claimed)
    (thread size : Nat) (claims : claimed.threads thread = .popping size (.loadCrc position))
    (schedule : List (Label config)) (kept : ∀ label ∈ schedule, label ≠ .finish thread)
    (allows : Allows (fun state label => (apply state label).ring.tail < 2 ^ 63) apply claimed
      schedule)
    (weak : Bool) :
    (schedule.foldl apply claimed).threads thread =
        .popping size (skipStage position crc (actionsOf thread schedule)) ∧
      (apply (schedule.foldl apply claimed) (.advance thread weak)).ring =
        skipEffect config position (actionsOf thread schedule)
          (schedule.foldl apply claimed).ring := by
  obtain ⟨record, done, tagged⟩ := committed_of_clean reach false commits
  have small : (apply producing (.advance producer false)).ring.tail < 2 ^ 63 := by
    simp only [apply, commits, tryPushStep, RingBuffer.setCell_tail]
    exact (reachable_invariant reach).small
  have invariant : Invariant config state :=
    reachable_invariant ((reach.tail ⟨_, small, rfl⟩).trans committed)
  have still := committed_reachable done committed
  have unreleased : ¬ Released state.log position := by
    rintro ⟨author, released⟩
    have claimant := invariant.releaser author position released
    have numbered : position ∈ (consumerClaims state.log).map Prod.snd :=
      List.mem_map.mpr ⟨_, claimant, rfl⟩
    rw [invariant.consumers, List.mem_range] at numbered
    omega
  have stamped := invariant.intact position record still unreleased
  obtain ⟨found, here, samePayload, sameCrc⟩ := invariant.coherent.held position stamped
  obtain rfl := invariant.coherent.committedUnique position _ _ here still
  have spoiled : Spoiled config
      { state with ring := state.ring.damage config position payload crc } position
      ⟨found.value, payload, crc⟩ :=
    { small := invariant.small
      coherent := ⟨_, invariant.coherent.damage still unread stamped payload crc,
        by rw [if_pos rfl]⟩
      mismatch := damage.detected (by rw [samePayload, sameCrc, tagged]) }
  have later : Spoiled config claimed position ⟨found.value, payload, crc⟩ := by
    refine onward.invariant (motive := fun state => Spoiled config state position _) spoiled ?_
    rintro before after - spoiled step
    exact spoiled.step step
  have enters : claimed.threads thread = .popping size (skipStage position crc 0) := claims
  obtain ⟨ending, located⟩ := later.run enters schedule kept allows
  rw [Nat.zero_add] at located
  refine ⟨located, ?_⟩
  simp only [apply, located, ending.skip located weak]

theorem pushing_fits : [7, 9].length ≤ twoSlots.slotBytes := by decide

/-- A push up to its commit. -/
def pushing : List (Label twoSlots) :=
  .startPush 0 (.clean [7, 9] pushing_fits) :: List.replicate 5 (.advance 0 false)

/-- A pop up to the tag, which it has claimed the slot to read. -/
def popping : List (Label twoSlots) := .startPop 1 2 :: List.replicate 3 (.advance 1 false)

theorem burst_error_skipped_flippedBit :
    let storage : RingBuffer := ⟨3, 5, 1, fun _ => ⟨0, [0, 0, 0, 0], 0#32⟩⟩
    let state := apply (pushing.foldl apply (start twoSlots storage)) (.advance 0 false)
    let damaged := state.ring.damage twoSlots 0 [7, 8, 0, 0] (state.ring.cellAt twoSlots 0).crc
    let claimed := popping.foldl apply { state with ring := damaged }
    let counting := (List.replicate 3 (.advance 1 false)).foldl apply claimed
    counting.threads 1 = .popping 2 .countCorruption ∧
      (apply counting (.advance 1 false)).ring =
        { counting.ring with corruptionCount := wrap64 (counting.ring.corruptionCount + 1) } := by
  intro storage state damaged claimed counting
  have payload : (state.ring.cellAt twoSlots 0).payload = [7, 9, 0, 0] := by decide +kernel
  have short : ∀ bytes : List Byte, bytes.length = 4 → ∀ index, 32 ≤ index →
      (messageBits bytes)[index]? = none := by
    intro bytes four index large
    rw [List.getElem?_eq_none_iff, length_messageBits, four]
    exact large
  have within : WithinBurst [7, 9, 0, 0] [7, 8, 0, 0] := by
    refine ⟨0, fun index different => ⟨Nat.zero_le _, ?_⟩⟩
    by_contra large
    exact different ((short _ rfl index (by omega)).trans (short _ rfl index (by omega)).symm)
  exact burst_error_skipped twoSlots storage (pushing.foldl apply (start twoSlots storage)) state
    claimed (reachable_of_allows _ _ (by decide +kernel)) 0 0 [7, 9] (by decide) (by decide +kernel)
    Reachable.refl (by decide +kernel) [7, 8, 0, 0] (state.ring.cellAt twoSlots 0).crc
    (.burst (by rw [payload]; rfl) (by rw [payload]; exact within) (by rw [payload]; decide) rfl)
    (reachable_of_allows _ _ (by decide +kernel)) 1 2 (by decide +kernel)
    (List.replicate 3 (.advance 1 false)) (by simp) (by decide +kernel) false

end RingMachine

end SafetyCrit.SharedMemory
