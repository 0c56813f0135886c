import SafetyCrit.SharedMemory.Corruption
import SafetyCrit.SharedMemory.RingProgress
import SafetyCrit.SharedMemory.VerifyExact

/-!
Owns the refinement of the ring to a bounded queue, for operations that run one
at a time: pushes, pops, and changes of the bytes of committed slots.

The queue is the abstract statement of what the ring is for. Its items carry the
payload field and the tag that travel with a value, because stale bytes of an
earlier lap stay under the checksum, and whether the bytes were changed since.
-/

namespace SafetyCrit.SharedMemory

open SafetyCrit.Library

variable {config : RingConfig}

/-! ### Operations on the ring -/

/-- One operation. `damage` changes the bytes of the outstanding item `offset`
places behind the oldest. -/
inductive QueueOp (config : RingConfig) where
  | push (args : PushArgs config)
  | pop (size : Nat)
  | damage (offset : Nat) (payload : List Byte) (crc : BitVec 32)

/-- What an operation returns. -/
inductive Reply where
  | push (accepted : Bool)
  | pop (result : PopResult)
  | damaged
deriving DecidableEq, Repr

/-- The calls that return `false` and did nothing. -/
def Reply.refused : Reply → Prop
  | .push accepted => accepted = false
  | .pop result => result = .empty
  | .damaged => False

/-- An operation with no other activity on the ring. -/
def QueueOp.run (config : RingConfig) (ring : RingBuffer) :
    QueueOp config → Option (RingBuffer × Reply)
  | .push args => (tryPush config args ring).map fun (after, accepted) => (after, .push accepted)
  | .pop size => (tryPop config size ring).map fun (after, result) => (after, .pop result)
  | .damage offset payload crc =>
      if ring.head + offset < ring.tail then
        some (ring.damage config (ring.head + offset) payload crc, .damaged)
      else some (ring, .damaged)

/-- The number of pushes among the operations. -/
def pushes : List (QueueOp config) → Nat
  | [] => 0
  | .push _ :: rest => pushes rest + 1
  | _ :: rest => pushes rest

/-! ### The queue -/

/-- An outstanding item: the call that pushed it, its payload field and tag, and
whether these were changed afterwards. -/
structure Item (config : RingConfig) where
  args : PushArgs config
  payload : List Byte
  crc : BitVec 32
  touched : Bool

/-- A queue, oldest item first, with the number of items skipped. -/
structure Fifo (config : RingConfig) where
  items : List (Item config)
  skipped : Nat

/-- The item a push appends over the stale bytes of a slot. -/
def PushArgs.item (args : PushArgs config) (stale : List Byte) : Item config :=
  ⟨args, overlay args.value stale, crc32c (overlay args.value stale) ^^^ args.crcXor, false⟩

/-- An item with its bytes changed. -/
def Item.change (payload : List Byte) (crc : BitVec 32) (item : Item config) : Item config :=
  { item with payload := payload, crc := crc, touched := true }

/-- One operation of a queue of capacity `slotCount`. -/
inductive FifoStep (config : RingConfig) (fifo : Fifo config) :
    QueueOp config → Reply → Fifo config → Prop
  | refuse (args : PushArgs config) (full : fifo.items.length = config.slotCount) :
      FifoStep config fifo (.push args) (.push false) fifo
  | append (args : PushArgs config) (stale : List Byte)
      (room : fifo.items.length < config.slotCount) :
      FifoStep config fifo (.push args) (.push true)
        { fifo with items := fifo.items ++ [args.item stale] }
  | nothing (size : Nat) (empty : fifo.items = []) :
      FifoStep config fifo (.pop size) (.pop .empty) fifo
  | deliver (size : Nat) (item : Item config) (rest : List (Item config))
      (oldest : fifo.items = item :: rest) (sound : item.crc = crc32c item.payload) :
      FifoStep config fifo (.pop size) (.pop (.value (item.payload.take size)))
        { fifo with items := rest }
  | skip (size : Nat) (item : Item config) (rest : List (Item config))
      (oldest : fifo.items = item :: rest) (corrupt : item.crc ≠ crc32c item.payload) :
      FifoStep config fifo (.pop size) (.pop .corrupted) ⟨rest, fifo.skipped + 1⟩
  | change (offset : Nat) (payload : List Byte) (crc : BitVec 32) :
      FifoStep config fifo (.damage offset payload crc) .damaged
        { fifo with items := fifo.items.modify offset (Item.change payload crc) }

/-- What becomes of an oldest item whose bytes were left alone: pushed clean, its
value is delivered bit for bit; pushed with a bad tag, it is skipped. -/
def Fifo.Delivers (fifo : Fifo config) (op : QueueOp config) (reply : Reply) : Prop :=
  ∀ item rest size, fifo.items = item :: rest → item.touched = false → op = .pop size →
    (item.args.crcXor = 0#32 → size = item.args.value.length →
      reply = .pop (.value item.args.value)) ∧
    (item.args.crcXor ≠ 0#32 → reply = .pop .corrupted)

/-- The items left alone are as their pushes wrote them. -/
def Fifo.Sound (fifo : Fifo config) : Prop :=
  ∀ item ∈ fifo.items, item.touched = false → ∃ stale, item = item.args.item stale

theorem Fifo.Sound.step {fifo next : Fifo config} {op : QueueOp config} {reply : Reply}
    (sound : fifo.Sound) (step : FifoStep config fifo op reply next) : next.Sound := by
  cases step with
  | refuse | nothing => exact sound
  | append args stale room =>
      intro item member
      rcases List.mem_append.mp member with old | new
      · exact sound item old
      · obtain rfl := List.mem_singleton.mp new
        exact fun _ => ⟨stale, rfl⟩
  | deliver size item rest oldest | skip size item rest oldest =>
      exact fun other member => sound other (oldest ▸ List.mem_cons_of_mem _ member)
  | change offset payload crc =>
      intro item member untouched
      obtain ⟨place, located⟩ := List.mem_iff_getElem?.mp member
      rw [List.getElem?_modify] at located
      obtain ⟨old, found, changed⟩ := Option.map_eq_some_iff.mp located
      split_ifs at changed with here
      · rw [← changed] at untouched
        cases untouched
      · rw [← changed] at untouched ⊢
        exact sound old (List.mem_of_getElem? found) untouched

/-- The tag of an item left alone is right exactly for a clean push. -/
theorem tag_right_iff (args : PushArgs config) (stale : List Byte) :
    (args.item stale).crc = crc32c (args.item stale).payload ↔ args.crcXor = 0#32 := by
  have cancelled := BitVec.xor_right_inj (x := args.crcXor) (y := 0#32)
    (crc32c (overlay args.value stale))
  rwa [BitVec.xor_zero] at cancelled

theorem overlay_take (value stale : List Byte) :
    (overlay value stale).take value.length = value := List.take_left' rfl

theorem Fifo.Sound.delivers {fifo next : Fifo config} {op : QueueOp config} {reply : Reply}
    (sound : fifo.Sound) (step : FifoStep config fifo op reply next) : fifo.Delivers op reply := by
  intro item rest size oldest untouched popping
  obtain ⟨stale, written⟩ := sound item (oldest ▸ List.mem_cons_self) untouched
  have right : item.crc = crc32c item.payload ↔ item.args.crcXor = 0#32 := by
    rw [written]
    exact tag_right_iff item.args stale
  subst popping
  cases step with
  | nothing _ empty => rw [empty] at oldest; cases oldest
  | deliver _ found _ first intact =>
      obtain ⟨rfl, rfl⟩ := List.cons.inj (first.symm.trans oldest)
      refine ⟨fun _ exactSize => ?_, fun bad => absurd (right.mp intact) bad⟩
      rw [exactSize, written]
      exact congrArg (fun bytes => Reply.pop (.value bytes)) (overlay_take _ stale)
  | skip _ found _ first corrupt =>
      obtain ⟨rfl, rfl⟩ := List.cons.inj (first.symm.trans oldest)
      exact ⟨fun clean => absurd (right.mpr clean) corrupt, fun _ => rfl⟩

/-! ### The ring shows the queue -/

/-- A run of the queue. -/
inductive FifoRun (config : RingConfig) : Fifo config → List (QueueOp config) → List Reply →
    Fifo config → Prop
  | nil (fifo : Fifo config) : FifoRun config fifo [] [] fifo
  | cons {fifo next last : Fifo config} {op : QueueOp config} {ops : List (QueueOp config)}
      {reply : Reply} {replies : List Reply} (step : FifoStep config fifo op reply next)
      (rest : FifoRun config next ops replies last) :
      FifoRun config fifo (op :: ops) (reply :: replies) last

/-- The view of a single caller between two calls. -/
def alone (config : RingConfig) : Unit → RingThread config := fun _ => .idle

theorem alone_idle : alone config () = .idle := rfl

theorem noReaders_alone : NoReaders (alone config) := fun _ => rfl

theorem noWriters_alone : NoWriters (alone config) := fun _ => rfl

/-- The queue a ring shows. -/
structure Shows (config : RingConfig) (ring : RingBuffer) (fifo : Fifo config) : Prop where
  coherent : ∃ committed, Coherent config ring (alone config) committed
  length : fifo.items.length = ring.tail - ring.head
  content : ∀ offset item, fifo.items[offset]? = some item →
    (ring.cellAt config (ring.head + offset)).payload = item.payload ∧
      (ring.cellAt config (ring.head + offset)).crc = item.crc
  skipped : ring.corruptionCount = wrap64 fifo.skipped

/-- The ring runs the operations, the queue takes the same steps with the same
replies, and the ring shows the queue throughout. -/
inductive Simulates (config : RingConfig) : RingBuffer → Fifo config → List (QueueOp config) →
    List Reply → Prop
  | nil {ring : RingBuffer} {fifo : Fifo config} (shows : Shows config ring fifo) :
      Simulates config ring fifo [] []
  | cons {ring after : RingBuffer} {fifo next : Fifo config} {op : QueueOp config}
      {ops : List (QueueOp config)} {reply : Reply} {replies : List Reply}
      (shows : Shows config ring fifo) (ran : op.run config ring = some (after, reply))
      (step : FifoStep config fifo op reply next) (untouched : reply.refused → after = ring)
      (delivers : fifo.Delivers op reply) (rest : Simulates config after next ops replies) :
      Simulates config ring fifo (op :: ops) (reply :: replies)

section Step

variable {ring : RingBuffer} {fifo : Fifo config}

theorem Shows.bounds (shows : Shows config ring fifo) :
    ring.head ≤ ring.tail ∧ ring.tail ≤ ring.head + config.slotCount := by
  obtain ⟨committed, coherent⟩ := shows.coherent
  exact ⟨coherent.window.ordered, coherent.window.bounded⟩

/-- Two outstanding positions, or an outstanding one and the tail of a ring with
room, never share a slot. -/
theorem slots_apart (base : Nat) {left right : Nat} (different : left ≠ right) (leftLow : base ≤ left)
    (leftHigh : left < base + config.slotCount) (rightLow : base ≤ right)
    (rightHigh : right < base + config.slotCount) :
    left % config.slotCount ≠ right % config.slotCount := fun same =>
  different (StampedRing.eq_of_mod_eq same (by omega) (by omega))

theorem Shows.push (shows : Shows config ring fifo) (small : ring.tail < 2 ^ 63)
    (args : PushArgs config) :
    ∃ after reply next, (QueueOp.push args).run config ring = some (after, reply) ∧
      FifoStep config fifo (.push args) reply next ∧ Shows config after next ∧
      (reply.refused → after = ring) ∧ after.tail = ring.tail + [reply].count (.push true) := by
  obtain ⟨committed, coherent⟩ := shows.coherent
  obtain ⟨ordered, bounded⟩ := shows.bounds
  have length := shows.length
  rcases Nat.lt_or_eq_of_le bounded with room | full
  · have pushed := tryPush_room coherent noReaders_alone args small room
    have ready := coherent.free_sequence noReaders_alone le_rfl room
    refine ⟨_, _, _, by rw [QueueOp.run, pushed]; rfl,
      .append args (ring.cellAt config ring.tail).payload (by omega), ?_, by simp [Reply.refused],
      rfl⟩
    refine ⟨⟨_, coherent.wholePush alone_idle args small ready⟩, ?_, ?_, shows.skipped⟩
    · simp only [List.length_append, List.length_singleton, RingBuffer.setCell_tail,
        RingBuffer.setCell_head]
      omega
    · intro offset item located
      rw [RingBuffer.setCell_head]
      have within : offset < fifo.items.length + 1 := by
        have := (List.getElem?_eq_some_iff.mp located).1
        simpa using this
      rcases Nat.lt_succ_iff_lt_or_eq.mp within with old | last
      · have apart : (ring.head + offset) % config.slotCount ≠ ring.tail % config.slotCount :=
          slots_apart ring.head (by omega) (by omega) (by omega) ordered room
        rw [List.getElem?_append_left old] at located
        rw [RingBuffer.setCell_cellAt_other apart]
        exact shows.content offset item located
      · rw [last, List.getElem?_append_right le_rfl, Nat.sub_self] at located
        obtain rfl := Option.some.inj located
        rw [show ring.head + offset = ring.tail by omega, RingBuffer.setCell_cellAt_same rfl]
        exact ⟨rfl, rfl⟩
  · have refused := tryPush_full coherent args small full
    exact ⟨_, _, _, by rw [QueueOp.run, refused]; rfl, .refuse args (by omega), shows,
      fun _ => rfl, rfl⟩

theorem Shows.pop (shows : Shows config ring fifo) (small : ring.tail + 1 < 2 ^ 63) (size : Nat) :
    ∃ after reply next, (QueueOp.pop size).run config ring = some (after, reply) ∧
      FifoStep config fifo (.pop size) reply next ∧ Shows config after next ∧
      (reply.refused → after = ring) ∧ after.tail = ring.tail := by
  obtain ⟨committed, coherent⟩ := shows.coherent
  obtain ⟨ordered, bounded⟩ := shows.bounds
  have length := shows.length
  cases items : fifo.items with
  | nil =>
      rw [items] at length
      have empty := tryPop_empty coherent noReaders_alone small size
        (Or.inl (by simp only [List.length_nil] at length; omega))
      exact ⟨_, _, _, by rw [QueueOp.run, empty]; rfl, .nothing size items, shows, fun _ => rfl, rfl⟩
  | cons item rest =>
      rw [items, List.length_cons] at length
      have stamped := coherent.outstanding_sequence le_rfl (by omega)
        (noWriters_alone.unclaimed ring.head)
      obtain ⟨record, -, payload, crc, popped⟩ := tryPop_committed coherent (by omega) size stamped
      obtain ⟨itemPayload, itemCrc⟩ := shows.content 0 item (by rw [items]; rfl)
      rw [Nat.add_zero] at itemPayload itemCrc
      have remains (skipped : Nat)
          (counted : (ring.consume config).corruptionCount = wrap64 skipped) :
          Shows config (ring.consume config) ⟨rest, skipped⟩ := by
        refine ⟨⟨committed, coherent.wholePop alone_idle (by omega) stamped⟩, ?_, ?_, counted⟩
        · simp only [RingBuffer.consume_tail, RingBuffer.consume_head]
          omega
        · intro offset other located
          have within : offset < rest.length := (List.getElem?_eq_some_iff.mp located).1
          have before := shows.content (offset + 1) other (by rw [items]; exact located)
          have apart : (ring.head + (offset + 1)) % config.slotCount ≠
              ring.head % config.slotCount :=
            slots_apart ring.head (by omega) (by omega) (by omega) le_rfl (by omega)
          rw [RingBuffer.consume_head, Nat.add_right_comm, Nat.add_assoc, RingBuffer.consume,
            RingBuffer.setCell_cellAt_other apart]
          exact before
      have counted : (ring.consume config).corruptionCount =
          if item.crc ≠ crc32c item.payload then wrap64 (ring.corruptionCount + 1)
          else ring.corruptionCount := by
        rw [← itemPayload, ← itemCrc]
        rfl
      have result : record.popResult size =
          if item.crc ≠ crc32c item.payload then .corrupted
          else .value (item.payload.take size) := by
        rw [← itemPayload, ← itemCrc, payload, crc]
        rfl
      by_cases sound : item.crc = crc32c item.payload
      · rw [if_neg (not_not.mpr sound)] at counted result
        exact ⟨_, _, _, by rw [QueueOp.run, popped, result]; rfl, .deliver size item rest items sound,
          remains fifo.skipped (counted.trans shows.skipped), by simp [Reply.refused], rfl⟩
      · rw [if_pos sound] at counted result
        refine ⟨_, _, _, by rw [QueueOp.run, popped, result]; rfl, .skip size item rest items sound,
          remains (fifo.skipped + 1) ?_, by simp [Reply.refused], rfl⟩
        rw [counted, shows.skipped, wrap64_succ]

theorem Shows.damage (shows : Shows config ring fifo) (offset : Nat) (payload : List Byte)
    (crc : BitVec 32) :
    ∃ after reply next,
      (QueueOp.damage offset payload crc : QueueOp config).run config ring = some (after, reply) ∧
      FifoStep config fifo (.damage offset payload crc) reply next ∧ Shows config after next ∧
      (reply.refused → after = ring) ∧ after.tail = ring.tail := by
  obtain ⟨committed, coherent⟩ := shows.coherent
  obtain ⟨ordered, bounded⟩ := shows.bounds
  have length := shows.length
  by_cases outstanding : ring.head + offset < ring.tail
  · have stamped := coherent.outstanding_sequence (Nat.le_add_right _ _) outstanding
      (noWriters_alone.unclaimed _)
    obtain ⟨record, done, -⟩ := coherent.held _ stamped
    refine ⟨ring.damage config (ring.head + offset) payload crc, .damaged, _, if_pos outstanding,
      .change offset payload crc, ?_, by simp [Reply.refused], rfl⟩
    refine ⟨⟨_, coherent.damage done (Nat.le_add_right _ _) stamped payload crc⟩, ?_, ?_,
      shows.skipped⟩
    · rw [List.length_modify]
      exact length
    · intro place item located
      rw [List.getElem?_modify] at located
      obtain ⟨old, found, changed⟩ := Option.map_eq_some_iff.mp located
      have within : place < fifo.items.length := (List.getElem?_eq_some_iff.mp found).1
      change ((ring.damage config (ring.head + offset) payload crc).cellAt config
        (ring.head + place)).payload = _ ∧ ((ring.damage config (ring.head + offset) payload
          crc).cellAt config (ring.head + place)).crc = _
      by_cases here : offset = place
      · rw [if_pos here] at changed
        rw [← changed, ← here, RingBuffer.damage, RingBuffer.setCell_cellAt_same rfl]
        exact ⟨rfl, rfl⟩
      · rw [if_neg here] at changed
        have apart : (ring.head + place) % config.slotCount ≠
            (ring.head + offset) % config.slotCount :=
          slots_apart ring.head (by omega) (by omega) (by omega) (by omega) (by omega)
        rw [← changed, RingBuffer.damage, RingBuffer.setCell_cellAt_other apart]
        exact shows.content place old found
  · refine ⟨ring, .damaged, _, if_neg outstanding, .change offset payload crc, ?_, fun _ => rfl,
      rfl⟩
    rw [List.modify_eq_self (by omega)]
    exact shows

/-- One operation runs, and the queue takes the same step. The tail counts the
accepted pushes. -/
theorem Shows.step (shows : Shows config ring fifo) (op : QueueOp config)
    (small : ring.tail + 1 < 2 ^ 63) :
    ∃ after reply next, op.run config ring = some (after, reply) ∧
      FifoStep config fifo op reply next ∧ Shows config after next ∧
      (reply.refused → after = ring) ∧ after.tail = ring.tail + [reply].count (.push true) := by
  cases op with
  | push args => exact shows.push (by omega) args
  | pop size =>
      obtain ⟨after, reply, next, ran, step, shows', untouched, tail⟩ := shows.pop small size
      refine ⟨after, reply, next, ran, step, shows', untouched, tail.trans ?_⟩
      cases step <;> rfl
  | damage offset payload crc =>
      obtain ⟨after, reply, next, ran, step, shows', untouched, tail⟩ :=
        shows.damage offset payload crc
      refine ⟨after, reply, next, ran, step, shows', untouched, tail.trans ?_⟩
      cases step
      rfl

/-- Only a push is accepted. -/
theorem FifoStep.accepted_le {next : Fifo config} {op : QueueOp config} {reply : Reply}
    (step : FifoStep config fifo op reply next) : [reply].count (.push true) ≤ pushes [op] := by
  cases step <;> simp [pushes]

theorem pushes_cons (op : QueueOp config) (ops : List (QueueOp config)) :
    pushes (op :: ops) = pushes [op] + pushes ops := by
  cases op <;> simp [pushes, Nat.add_comm]

theorem Shows.simulates (shows : Shows config ring fifo) (sound : fifo.Sound)
    (ops : List (QueueOp config)) (small : ring.tail + pushes ops + 1 < 2 ^ 63) :
    ∃ replies, Simulates config ring fifo ops replies := by
  induction ops generalizing ring fifo with
  | nil => exact ⟨[], .nil shows⟩
  | cons op ops inductionHypothesis =>
      rw [pushes_cons] at small
      obtain ⟨after, reply, next, ran, step, shows', untouched, counted⟩ :=
        shows.step op (by omega)
      have accepted := step.accepted_le
      obtain ⟨replies, rest⟩ := inductionHypothesis shows' (sound.step step) (by omega)
      exact ⟨reply :: replies, .cons shows ran step untouched (sound.delivers step) rest⟩

end Step

/-- The empty queue. -/
def Fifo.empty : Fifo config := ⟨[], 0⟩

theorem shows_initializeRing (config : RingConfig) (storage : RingBuffer) :
    Shows config (RingBuffer.initializeRing config storage) Fifo.empty where
  coherent := ⟨_, coherent_initializeRing storage fun _ => rfl⟩
  length := by rw [RingBuffer.initializeRing_eq]; rfl
  content := by simp [Fifo.empty]
  skipped := by rw [RingBuffer.initializeRing_eq]; rfl

/-- Operations run one at a time make the ring a bounded queue. -/
theorem ring_simulates_fifo (config : RingConfig) (storage : RingBuffer)
    (ops : List (QueueOp config)) (lifetime : pushes ops + 1 < 2 ^ 63) :
    ∃ replies, Simulates config (RingBuffer.initializeRing config storage) Fifo.empty ops replies := by
  refine (shows_initializeRing config storage).simulates (fun item member => ?_) ops ?_
  · cases member
  · rw [RingBuffer.initializeRing_eq]
    simpa using lifetime

open RingMachine (twoSlots zeroStorage) in
/-- A short value over the bytes of a longer one, a bad tag, and a damaged item. -/
def shortOverLong : List (QueueOp twoSlots) :=
  [.push (.clean [1, 2, 3, 4] (by decide)), .pop 4, .push (.badCrc [5, 6] (by decide)), .pop 2,
    .push (.oneByte 7), .push (.oneByte 8), .push (.oneByte 9),
    .damage 1 [0] 0, .pop 1, .pop 1, .pop 1]

theorem ring_simulates_fifo_shortOverLong : ∃ replies,
    Simulates RingMachine.twoSlots
      (RingBuffer.initializeRing RingMachine.twoSlots RingMachine.zeroStorage) Fifo.empty
      shortOverLong replies :=
  ring_simulates_fifo RingMachine.twoSlots RingMachine.zeroStorage shortOverLong (by decide)

end SafetyCrit.SharedMemory
