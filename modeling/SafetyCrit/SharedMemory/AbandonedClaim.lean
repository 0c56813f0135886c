import SafetyCrit.SharedMemory.BoundedFifo
import SafetyCrit.SharedMemory.RegionCalls

/-!
Owns the abandoned-claim rule of `transfer_ownership`: what the call leaves of a
ring whose producer may have died between its claim and its commit.

The call is followed one atomic action at a time. Everything else in the region
may change in between; only the ring itself is left alone.
-/

namespace SafetyCrit.SharedMemory

open SafetyCrit.Library
open SafetyCrit.Library.Run

/-! ### The ring in front of the call -/

/-- One atomic action of a producer that is alone on the ring. -/
def ProducerMove (config : RingConfig) (args : PushArgs config) :
    RingBuffer × PushPc → RingBuffer × PushPc → Prop :=
  ByLabel fun state weak => tryPushStep config args weak state.1 state.2

/-- The ring that at most one producer has left behind: it claimed a position,
did not commit it, and wrote anything to the payload and tag of its cell. -/
inductive LeftBehind (config : RingConfig) (ring : RingBuffer) : RingBuffer → Prop
  | unclaimed : LeftBehind config ring ring
  | claimed (args : PushArgs config) (now : RingBuffer) (pc : PushPc) (position : Nat)
      (run : Reachable (ProducerMove config args) (ring, .loadTail) (now, pc))
      (holds : pc.holds = some position) (payload : List Byte) (crc : BitVec 32) :
      LeftBehind config ring
        (now.setCell config position
          { now.cellAt config position with payload := payload, crc := crc })

/-- The queue operation a call is. -/
def RingCall.op {config : RingConfig} : RingCall config → QueueOp config
  | .push args => .push args
  | .pop size => .pop size

/-- Other bytes in the cell of the tail, which holds no item. -/
def RingBuffer.scribble (config : RingConfig) (ring : RingBuffer) (payload : List Byte)
    (crc : BitVec 32) : RingBuffer :=
  ring.setCell config ring.tail { ring.cellAt config ring.tail with payload := payload, crc := crc }

/-- The ring with the position of the tail claimed and other bytes in its cell. -/
def RingBuffer.abandon (config : RingConfig) (ring : RingBuffer) (payload : List Byte)
    (crc : BitVec 32) : RingBuffer :=
  { ring.scribble config payload crc with tail := ring.tail + 1 }

theorem RingBuffer.abandon_cellAt {config : RingConfig} (ring : RingBuffer) (payload : List Byte)
    (crc : BitVec 32) :
    (ring.abandon config payload crc).cellAt config ring.tail =
      { ring.cellAt config ring.tail with payload := payload, crc := crc } :=
  Function.update_self ..

/-- The producer overwrites its own bytes. -/
theorem RingBuffer.abandon_setCell {config : RingConfig} (ring : RingBuffer) (payload : List Byte)
    (crc : BitVec 32) {cell : Cell}
    (kept : cell.sequence = ((ring.abandon config payload crc).cellAt config ring.tail).sequence) :
    (ring.abandon config payload crc).setCell config ring.tail cell =
      ring.abandon config cell.payload cell.crc := by
  obtain ⟨sequence, payload', crc'⟩ := cell
  rw [RingBuffer.abandon_cellAt] at kept
  cases kept
  simp only [RingBuffer.abandon, RingBuffer.scribble, RingBuffer.setCell, Function.update_idem]

section Queue

variable {config : RingConfig} {ring before after : RingBuffer} {fifo : Fifo config}

/-- Where a producer that is alone on the ring stands, as long as it has not
committed. -/
def Uncommitted (config : RingConfig) (ring : RingBuffer) : RingBuffer × PushPc → Prop
  | (now, .loadTail) => now = ring
  | (now, .loadSequence position) => now = ring ∧ position = ring.tail
  | (now, .reloadTail _) => now = ring
  | (now, .casTail position) =>
      now = ring ∧ position = ring.tail ∧ (ring.cellAt config ring.tail).sequence = ring.tail
  | (_, .returned _) => True
  | (now, pc) => pc.holds = some ring.tail ∧
      (ring.cellAt config ring.tail).sequence = ring.tail ∧
      ∃ payload crc, now = ring.abandon config payload crc

theorem Uncommitted.step (tailSmall : ring.tail + 1 < 2 ^ 64)
    (word : (ring.cellAt config ring.tail).sequence < 2 ^ 64) {args : PushArgs config} (weak : Bool)
    {now : RingBuffer} {pc : PushPc} (uncommitted : Uncommitted config ring (now, pc)) :
    Uncommitted config ring (tryPushStep config args weak now pc) := by
  cases pc with
  | loadTail =>
      cases uncommitted
      exact ⟨rfl, rfl⟩
  | loadSequence position =>
      obtain ⟨rfl, rfl⟩ := uncommitted
      simp only [tryPushStep]
      split
      · next zero =>
        exact ⟨rfl, rfl, (signedDiff_eq_zero word (by omega)).mp zero⟩
      · split
        · exact trivial
        · exact rfl
  | casTail position =>
      obtain ⟨rfl, rfl, ready⟩ := uncommitted
      simp only [tryPushStep]
      split
      · refine ⟨rfl, ready, (now.cellAt config now.tail).payload, (now.cellAt config now.tail).crc, ?_⟩
        rw [wrap64_of_lt tailSmall, RingBuffer.abandon, RingBuffer.scribble, RingBuffer.setCell,
          RingBuffer.cellAt, Function.update_eq_self]
      · exact ⟨rfl, rfl⟩
  | reloadTail position =>
      cases uncommitted
      exact ⟨rfl, rfl⟩
  | writePayload position =>
      obtain ⟨holds, ready, payload, crc, rfl⟩ := uncommitted
      cases holds
      exact ⟨rfl, ready, _, _, ring.abandon_setCell payload crc rfl⟩
  | writeCrc position =>
      obtain ⟨holds, ready, payload, crc, rfl⟩ := uncommitted
      cases holds
      exact ⟨rfl, ready, _, _, ring.abandon_setCell payload crc rfl⟩
  | commit position => exact trivial
  | returned result => exact trivial

/-- What is left behind is the ring itself, or the ring with the next position
claimed. -/
theorem LeftBehind.cases (tailSmall : ring.tail + 1 < 2 ^ 64)
    (word : (ring.cellAt config ring.tail).sequence < 2 ^ 64)
    (left : LeftBehind config ring before) :
    before = ring ∨ (ring.cellAt config ring.tail).sequence = ring.tail ∧
      ∃ payload crc, before = ring.abandon config payload crc := by
  cases left with
  | unclaimed => exact Or.inl rfl
  | claimed args now pc position run holds payload crc =>
      have uncommitted : Uncommitted config ring (now, pc) :=
        run.invariant rfl fun _ _ _ earlier ⟨weak, taken⟩ =>
          taken ▸ earlier.step tailSmall word weak
      have standing : pc.holds = some ring.tail ∧
          (ring.cellAt config ring.tail).sequence = ring.tail ∧
            ∃ payload crc, now = ring.abandon config payload crc := by
        cases pc with
        | writePayload | writeCrc | commit => exact uncommitted
        | loadTail | loadSequence | casTail | reloadTail | returned => cases holds
      obtain ⟨same, ready, payload', crc', rfl⟩ := standing
      obtain rfl := Option.some.inj (holds.symm.trans same)
      exact Or.inr ⟨ready, payload, crc, ring.abandon_setCell payload' crc' rfl⟩

/-! ### The queue of the ring -/

theorem RingCall.run_op (call : RingCall config) (ring : RingBuffer) :
    call.run ring = (call.op.run config ring).map Prod.fst := by
  cases call with
  | push args => simp [RingCall.run, RingCall.op, QueueOp.run, Option.map_map]; rfl
  | pop size => simp [RingCall.run, RingCall.op, QueueOp.run, Option.map_map]; rfl

/-- The ring that calls leave shows the queue they leave, and its tail counts the
pushes that were accepted. -/
theorem Shows.runCalls (shows : Shows config ring fifo) {calls : List (RingCall config)}
    (small : ring.tail + pushes (calls.map RingCall.op) + 1 < 2 ^ 63)
    (ran : SharedMemory.runCalls calls ring = some after) :
    ∃ replies next, FifoRun config fifo (calls.map RingCall.op) replies next ∧
      Shows config after next ∧ after.tail ≤ ring.tail + pushes (calls.map RingCall.op) ∧
      after.tail = ring.tail + replies.count (.push true) := by
  induction calls generalizing ring fifo with
  | nil =>
      cases ran
      exact ⟨[], fifo, .nil fifo, shows, Nat.le_add_right _ _, rfl⟩
  | cons call rest inductionHypothesis =>
      rw [List.map_cons, pushes_cons] at small
      obtain ⟨moved, reply, next, called, step, shows', -, counted⟩ :=
        shows.step call.op (by omega)
      have accepted := step.accepted_le
      rw [SharedMemory.runCalls, RingCall.run_op, called, Option.map_some, Option.bind_some] at ran
      obtain ⟨replies, last, run, shows'', grown, countedRest⟩ :=
        inductionHypothesis shows' (by omega) ran
      refine ⟨reply :: replies, last, .cons step run, shows'', ?_, ?_⟩
      · rw [List.map_cons, pushes_cons]
        omega
      · rw [countedRest, counted, Nat.add_assoc, ← List.count_append]
        rfl

theorem FifoRun.sound {last : Fifo config} {ops : List (QueueOp config)} {replies : List Reply}
    (run : FifoRun config fifo ops replies last) (sound : fifo.Sound) : last.Sound := by
  induction run with
  | nil => exact sound
  | cons step _ inductionHypothesis => exact inductionHypothesis (sound.step step)

/-- What popping an item reports; `size` is `sizeof(T)`. -/
def Item.popResult (size : Nat) (item : Item config) : PopResult :=
  if item.crc = crc32c item.payload then .value (item.payload.take size) else .corrupted

/-- Popping everything outstanding delivers the queue in order, and then nothing. -/
theorem Shows.drains (shows : Shows config ring fifo) (small : ring.tail + 1 < 2 ^ 63)
    (size : Nat) :
    ∃ drained, tryPops config size fifo.items.length ring =
        some (drained, fifo.items.map (Item.popResult size)) ∧
      tryPop config size drained = some (drained, .empty) := by
  obtain ⟨items, listed⟩ : ∃ items, fifo.items = items := ⟨_, rfl⟩
  rw [listed]
  induction items generalizing ring fifo with
  | nil =>
      obtain ⟨moved, reply, next, ran, step, -, untouched, -⟩ := shows.pop small size
      obtain ⟨⟨_, result⟩, popped, equal⟩ := Option.map_eq_some_iff.mp ran
      cases equal
      cases step with
      | nothing _ empty => exact ⟨ring, rfl, untouched rfl ▸ popped⟩
      | deliver _ item rest oldest | skip _ item rest oldest =>
          rw [listed] at oldest
          cases oldest
  | cons item rest inductionHypothesis =>
      obtain ⟨moved, reply, next, ran, step, shows', -, grown⟩ := shows.pop small size
      obtain ⟨⟨_, result⟩, popped, equal⟩ := Option.map_eq_some_iff.mp ran
      cases equal
      have taken : next.items = rest ∧ result = item.popResult size := by
        cases step with
        | nothing _ empty =>
            rw [listed] at empty
            cases empty
        | deliver _ item' rest' oldest sound =>
            rw [listed] at oldest
            obtain ⟨rfl, rfl⟩ := List.cons.inj oldest
            exact ⟨rfl, (if_pos sound).symm⟩
        | skip _ item' rest' oldest corrupt =>
            rw [listed] at oldest
            obtain ⟨rfl, rfl⟩ := List.cons.inj oldest
            exact ⟨rfl, (if_neg corrupt).symm⟩
      obtain ⟨drained, delivered, nothing⟩ :=
        inductionHypothesis shows' (grown ▸ small) taken.1
      refine ⟨drained, ?_, nothing⟩
      rw [List.length_cons, tryPops, popped]
      simp only [delivered, List.map_cons, taken.2]

/-! ### The rollback -/

/-- A producer that stopped after its claim, as the ring protocol sees it. -/
theorem Coherent.abandon {committed : Nat → Record → Prop}
    (coherent : Coherent config ring (alone config) committed) (small : ring.tail < 2 ^ 63)
    (ready : (ring.cellAt config ring.tail).sequence = ring.tail) (payload : List Byte)
    (crc : BitVec 32) :
    Coherent config (ring.abandon config payload crc)
      (Function.update (alone config) ()
        (.pushing (.clean [] (Nat.zero_le _)) (.writePayload ring.tail))) committed := by
  have pending : Coherent config ring (Function.update (alone config) ()
      (.pushing (.clean [] (Nat.zero_le _)) (.casTail ring.tail))) committed :=
    coherent.relocate _ rfl rfl ⟨small, fun _ => ready⟩
  have claimed := Coherent.settle (pending.claimTail (Function.update_self () _ (alone config)))
  have writes : (Function.update (alone config) ()
      (.pushing (.clean [] (Nat.zero_le _)) (.writePayload ring.tail)) ()).writes =
        some ring.tail := rfl
  exact Coherent.settle (claimed.store writes rfl rfl rfl rfl trivial)

/-- The rollback takes the claim back; the bytes under it are no item. -/
theorem Shows.rollback_abandon (shows : Shows config ring fifo) (small : ring.tail < 2 ^ 63)
    (ready : (ring.cellAt config ring.tail).sequence = ring.tail) (payload : List Byte)
    (crc : BitVec 32) :
    rollbackTail config (ring.abandon config payload crc) = ring.scribble config payload crc ∧
      ring.tail < ring.head + config.slotCount ∧
      Shows config (ring.scribble config payload crc) fifo := by
  obtain ⟨committed, coherent⟩ := shows.coherent
  obtain ⟨ordered, bounded⟩ := shows.bounds
  have abandoned := coherent.abandon small ready payload crc
  have writes : (Function.update (alone config) ()
      (.pushing (.clean [] (Nat.zero_le _)) (.writePayload ring.tail)) ()).writes =
        some ring.tail := rfl
  have claimedTop : ring.tail + 1 ≤ ring.head + config.slotCount := abandoned.window.bounded
  refine ⟨rollbackTail_abandoned abandoned writes rfl, claimedTop, ?_, shows.length, ?_,
    shows.skipped⟩
  · have rolled := abandoned.rollback writes rfl
    have resting : Function.update (alone config) () .idle = alone config :=
      Function.update_eq_self_iff.mpr rfl
    rw [Function.update_idem, resting] at rolled
    exact ⟨committed, rolled⟩
  · intro offset item located
    have length := shows.length
    have within : offset < fifo.items.length := (List.getElem?_eq_some_iff.mp located).1
    change ((ring.scribble config payload crc).cellAt config (ring.head + offset)).payload = _ ∧
      ((ring.scribble config payload crc).cellAt config (ring.head + offset)).crc = _
    rw [RingBuffer.scribble, RingBuffer.setCell_cellAt_other
      (slots_apart ring.head (by omega) (by omega) (by omega) ordered claimedTop)]
    exact shows.content offset item located

/-- What the rollback leaves of a ring with at most one claim in flight. -/
theorem LeftBehind.rollback (shows : Shows config ring fifo) (small : ring.tail + 1 < 2 ^ 63)
    (left : LeftBehind config ring before) :
    Shows config (rollbackTail config before) fifo ∧
      (before.tail = ring.tail ∨
        before.tail = ring.tail + 1 ∧ ring.tail < ring.head + config.slotCount) ∧
      (rollbackTail config before).tail = ring.tail ∧
      (rollbackTail config before).head = before.head ∧
      ∀ idx, ((rollbackTail config before).cells idx).sequence = (before.cells idx).sequence := by
  obtain ⟨committed, coherent⟩ := shows.coherent
  have word := coherent.sequence_lt (by omega) ring.tail
  rcases left.cases (by omega) word with rfl | ⟨ready, payload, crc, rfl⟩
  · rw [rollbackTail_quiet coherent noWriters_alone]
    exact ⟨shows, Or.inl rfl, rfl, rfl, fun _ => rfl⟩
  · obtain ⟨rolled, room, restored⟩ := shows.rollback_abandon (by omega) ready payload crc
    rw [rolled]
    exact ⟨restored, Or.inr ⟨rfl, room⟩, rfl, rfl, fun _ => rfl⟩

end Queue

/-! ### The call -/

/-- One move while the call runs: an atomic action of the call, or anything that
leaves the ring alone. -/
def TransferMove (args : TransferArgs) (before after : SharedRegion × TransferPc) : Prop :=
  (∃ weak, after = transferStep args weak before.1 before.2) ∨
    after.2 = before.2 ∧ after.1.rings args.logicalRing = before.1.rings args.logicalRing

/-- What the call has read of the ring, and what it has made of it. -/
def RollingBack (before ring : RingBuffer) : TransferPc → Prop
  | .loadHead tail => ring = before ∧ tail = before.tail
  | .loadSequence tail => ring = before ∧ tail = before.tail ∧ before.head < before.tail
  | .casTail tail => ring = before ∧ tail = before.tail ∧ before.head < before.tail ∧
      (before.cellAt kRing (before.tail - 1)).sequence = before.tail - 1
  | .refresh _ => ring = rollbackTail kRing before
  | .returned (some _) => ring = rollbackTail kRing before
  | _ => ring = before

theorem RollingBack.step {args : TransferArgs} {before : RingBuffer} {region : SharedRegion}
    {pc : TransferPc} (weak : Bool) (rolling : RollingBack before (region.rings args.logicalRing) pc) :
    RollingBack before ((transferStep args weak region pc).1.rings args.logicalRing)
      (transferStep args weak region pc).2 := by
  cases pc with
  | loadEpoch | casEpoch | casOwner =>
      simp only [transferStep]
      split
      · exact rolling
      · exact rolling
  | restoreEpoch | publishEpoch | returned => exact rolling
  | loadTail => exact ⟨rolling, congrArg RingBuffer.tail rolling⟩
  | loadHead tail =>
      obtain ⟨same, rfl⟩ := rolling
      simp only [transferStep, same]
      split
      · next empty => exact same.trans (if_pos empty).symm
      · next some => exact ⟨same, rfl, by omega⟩
  | loadSequence tail =>
      obtain ⟨same, rfl, some⟩ := rolling
      simp only [transferStep, same]
      split
      · next committed =>
        refine same.trans ?_
        rw [rollbackTail, if_neg (by omega)]
        exact (if_pos committed).symm
      · next ready => exact ⟨same, rfl, some, not_not.mp ready⟩
  | casTail tail =>
      obtain ⟨same, rfl, some, ready⟩ := rolling
      simp only [transferStep, same]
      split
      · refine (Function.update_self ..).trans ?_
        rw [rollbackTail, if_neg (by omega)]
        exact (if_neg (not_not.mpr ready)).symm
      · exact same
  | refresh pc =>
      have kept : (refreshStep weak region pc).1.rings args.logicalRing =
          rollbackTail kRing before := (congrFun (refreshStep_rings weak region pc) _).trans rolling
      simp only [transferStep]
      cases (refreshStep weak region pc).2 <;> exact kept

/-- A successful call runs the rollback loop once on the ring it found. -/
theorem transfer_rolls_back {args : TransferArgs} {region after : SharedRegion}
    {token : OwnershipToken}
    (succeeded : Reachable (TransferMove args) (region, TransferPc.enter args)
      (after, .returned (some token))) :
    after.rings args.logicalRing = rollbackTail kRing (region.rings args.logicalRing) := by
  have entered : RollingBack (region.rings args.logicalRing) (region.rings args.logicalRing)
      (TransferPc.enter args) := by
    unfold TransferPc.enter
    split <;> rfl
  refine succeeded.invariant
    (motive := fun state =>
      RollingBack (region.rings args.logicalRing) (state.1.rings args.logicalRing) state.2)
    entered fun now next _ rolling moved => ?_
  rcases moved with ⟨weak, rfl⟩ | ⟨same, kept⟩
  · exact rolling.step weak
  · rw [same, kept]
    exact rolling

/-- What a successful call hands to the new owner: `ring` is the ring without the
claim, `before` the one the call found, `after` the one it left, `replies` what
the calls so far returned and `fifo` the queue of the committed unread values. -/
structure HandedOver (ring before after : RingBuffer) (replies : List Reply)
    (fifo : Fifo kRing) : Prop where
  claim : before.tail = ring.tail ∨
    before.tail = ring.tail + 1 ∧ fifo.items.length < kRing.slotCount
  lastCommitted : ring.tail = replies.count (.push true)
  tail : after.tail = ring.tail
  head : after.head = before.head
  sequences : ∀ idx, (after.cells idx).sequence = (before.cells idx).sequence
  consistent : verifyConsistent kRing after = true
  delivers : ∀ size, ∃ drained, tryPops kRing size fifo.items.length after =
      some (drained, fifo.items.map (Item.popResult size)) ∧
    tryPop kRing size drained = some (drained, .empty)
  reuses : ∀ args, fifo.items.length < kRing.slotCount → ∃ next,
    tryPush kRing args after = some (next, true) ∧ next.tail = ring.tail + 1 ∧
      (next.cellAt kRing ring.tail).sequence = ring.tail + 1
  continues : ∀ ops, ring.tail + pushes ops + 1 < 2 ^ 63 →
    ∃ later, Simulates kRing after fifo ops later

/-- With room, a push takes the position of the tail. -/
theorem Shows.push_room {config : RingConfig} {ring : RingBuffer} {fifo : Fifo config}
    (shows : Shows config ring fifo) (small : ring.tail < 2 ^ 63)
    (room : fifo.items.length < config.slotCount) (args : PushArgs config) :
    ∃ next, tryPush config args ring = some (next, true) ∧ next.tail = ring.tail + 1 ∧
      (next.cellAt config ring.tail).sequence = ring.tail + 1 := by
  obtain ⟨committed, coherent⟩ := shows.coherent
  obtain ⟨ordered, -⟩ := shows.bounds
  have length := shows.length
  refine ⟨_, tryPush_room coherent noReaders_alone args small (by omega), rfl, ?_⟩
  rw [RingBuffer.setCell_cellAt_same rfl]

/-- A claim that was never committed is taken back by the next owner's transfer,
and nothing else changes. -/
theorem transfer_takes_claim_back (storage : RingBuffer) (calls : List (RingCall kRing))
    {ring before : RingBuffer} (lifetime : pushes (calls.map RingCall.op) + 2 < 2 ^ 63)
    (ran : runCalls calls (RingBuffer.initializeRing kRing storage) = some ring)
    (left : LeftBehind kRing ring before) {args : TransferArgs} {region after : SharedRegion}
    {token : OwnershipToken} (found : region.rings args.logicalRing = before)
    (succeeded : Reachable (TransferMove args) (region, TransferPc.enter args)
      (after, .returned (some token))) :
    ∃ replies fifo, FifoRun kRing Fifo.empty (calls.map RingCall.op) replies fifo ∧
      HandedOver ring before (after.rings args.logicalRing) replies fifo := by
  have fresh : (RingBuffer.initializeRing kRing storage).tail = 0 := by
    rw [RingBuffer.initializeRing_eq]
  obtain ⟨replies, fifo, run, shows, grown, counted⟩ :=
    (shows_initializeRing kRing storage).runCalls (by omega) ran
  have sound : fifo.Sound := run.sound fun item member => by cases member
  obtain ⟨restored, claim, tail, head, sequences⟩ := left.rollback shows (by omega)
  obtain ⟨committed, coherent⟩ := restored.coherent
  have length := shows.length
  obtain ⟨ordered, -⟩ := shows.bounds
  rw [transfer_rolls_back succeeded, found]
  refine ⟨replies, fifo, run, ?_, by omega, tail, head, sequences, ?_, ?_, ?_, ?_⟩
  · exact claim.imp_right fun claimed => ⟨claimed.1, by omega⟩
  · exact (verifyConsistent_iff coherent noReaders_alone (by omega)).mpr noWriters_alone
  · exact fun size => restored.drains (by omega) size
  · intro args room
    have reused := restored.push_room (by omega) room args
    rwa [tail] at reused
  · exact fun ops later => restored.simulates sound ops (by omega)

/-- A clean push, a bad one, and the clean value popped. -/
def oneUnread : List (RingCall kRing) :=
  [.push (.clean [1] (by decide)), .push (.badCrc [2] (by decide)), .pop 1]

/-- The ring these calls leave. -/
@[irreducible] def unreadRing : RingBuffer :=
  (runCalls oneUnread (RingBuffer.initializeRing kRing (zeroed.rings 0))).getD (zeroed.rings 0)

theorem runCalls_oneUnread :
    runCalls oneUnread (RingBuffer.initializeRing kRing (zeroed.rings 0)) = some unreadRing := by
  have ran : runCalls oneUnread (RingBuffer.initializeRing kRing (zeroed.rings 0)) ≠ none := by
    rw [← Option.isSome_iff_ne_none, RingBuffer.initializeRing_eq]
    decide +kernel
  unfold unreadRing
  exact (Option.getD_of_ne_none ran _).symm

/-- A producer that has written its payload. -/
@[irreducible] def midPush : RingBuffer × PushPc :=
  [false, false, false, false].foldl
    (fun state weak => tryPushStep kRing (.clean [3] (by decide)) weak state.1 state.2)
    (unreadRing, .loadTail)

theorem midPush_holds : midPush.2.holds = some 2 := by
  unfold midPush unreadRing
  rw [RingBuffer.initializeRing_eq]
  decide +kernel

theorem midPush_run : Reachable (ProducerMove kRing (.clean [3] (by decide)))
    (unreadRing, .loadTail) (midPush.1, midPush.2) := by
  unfold midPush
  exact reachable_foldl [false, false, false, false] (unreadRing, PushPc.loadTail)

/-- The region of the dead producer: more bytes reached its slot. -/
@[irreducible] def deadProducer : SharedRegion :=
  (freshRegion zeroed).setRing 0
    (midPush.1.setCell kRing 2 { midPush.1.cellAt kRing 2 with payload := [9, 9], crc := 5#32 })

theorem leftBehind_deadProducer : LeftBehind kRing unreadRing (deadProducer.rings 0) := by
  rw [deadProducer, SharedRegion.setRing_rings, Function.update_self]
  exact .claimed (.clean [3] (by decide)) midPush.1 midPush.2 2 midPush_run midPush_holds [9, 9] 5

theorem transfer_takes_claim_back_midPush :
    (transferOwnership deadProducer ⟨0, homeToken 0, 2#32, 7#32⟩).2 = some ⟨0, 2#32, 7#32, 4⟩ ∧
      ∃ replies fifo,
        FifoRun kRing Fifo.empty (oneUnread.map RingCall.op) replies fifo ∧
        HandedOver unreadRing (deadProducer.rings 0)
          ((transferOwnership deadProducer ⟨0, homeToken 0, 2#32, 7#32⟩).1.rings 0)
          replies fifo := by
  have cell : deadProducer.ringOwnership 0 = cellOf (homeToken 0) := by
    unfold deadProducer
    exact freshRegion_ringOwnership zeroed (by decide)
  have moved : (transferOwnership deadProducer ⟨0, homeToken 0, 2#32, 7#32⟩).2 =
      some ⟨0, 2#32, 7#32, 4⟩ := (transferOwnership_succeeds cell (by decide)).1
  have run := transferOwnership_runs deadProducer ⟨0, homeToken 0, 2#32, 7#32⟩
  rw [moved] at run
  exact ⟨moved, transfer_takes_claim_back (zeroed.rings 0) oneUnread (by decide)
    runCalls_oneUnread leftBehind_deadProducer rfl (run.mono fun _ _ taken => Or.inl taken)⟩

end SafetyCrit.SharedMemory
