import SafetyCrit.SharedMemory.RingProgress
import SafetyCrit.SharedMemory.VerifyExact

/-!
Owns `verify_consistent` under live traffic: one call reads the counters and the
slots a word at a time while any number of threads push and pop, on a ring of
which one slot's sequence was overwritten.

A `Regime` says what the sequence of that slot, the head and the tail can become
after the overwrite. The threads stay within it, and the call rejects every
triple of words from it, however torn.
-/

namespace SafetyCrit.SharedMemory.RingMachine

open SafetyCrit.Library
open SafetyCrit.Library.Run

variable {config : RingConfig}

/-! ### One call among the threads -/

/-- Where a `verify_consistent` call stands. -/
inductive AuditPc where
  | loadHead
  | loadTail (head : Nat)
  | loadSlot (head tail idx : Nat)
  | returned (result : Bool)
deriving DecidableEq, Repr

/-- One atomic action of `verify_consistent`. -/
def auditStep (config : RingConfig) (ring : RingBuffer) : AuditPc → AuditPc
  | .loadHead => .loadTail ring.head
  | .loadTail head =>
      if head > ring.tail then .returned false
      else if ring.tail - head > config.slotCount then .returned false
      else .loadSlot head ring.tail 0
  | .loadSlot head tail idx =>
      if slotChecks config head tail (ring.cells idx).sequence idx = false then .returned false
      else if idx + 1 < config.slotCount then .loadSlot head tail (idx + 1)
      else .returned true
  | .returned result => .returned result

/-- The threads and the call. -/
structure Live (config : RingConfig) where
  machine : State config
  audit : AuditPc

/-- One scheduling choice. -/
inductive LiveLabel (config : RingConfig) where
  | thread (label : Label config)
  | audit

/-- The call is scheduled. -/
def LiveLabel.isAudit : LiveLabel config → Bool
  | .thread _ => false
  | .audit => true

/-- One step. -/
def liveApply (state : Live config) : LiveLabel config → Live config
  | .thread label => { state with machine := apply state.machine label }
  | .audit => { state with audit := auditStep config state.machine.ring state.audit }

/-- The step keeps every position below `2 ^ 63`. -/
def KeepsLifetime (state : Live config) (label : LiveLabel config) : Prop :=
  (liveApply state label).machine.ring.head < 2 ^ 63 ∧
    (liveApply state label).machine.ring.tail < 2 ^ 63

instance (state : Live config) (label : LiveLabel config) : Decidable (KeepsLifetime state label) :=
  inferInstanceAs (Decidable (_ ∧ _))

/-- Overwrite the sequence of one slot. -/
def State.corrupt (state : State config) (idx value : Nat) : State config :=
  { state with ring := { state.ring with
      cells := Function.update state.ring.cells idx
        { state.ring.cells idx with sequence := value } } }

/-! ### The call alone -/

theorem auditStep_returned (config : RingConfig) (ring : RingBuffer) (result : Bool) (steps : Nat) :
    (auditStep config ring)^[steps] (.returned result) = .returned result :=
  Function.iterate_fixed rfl steps

/-- The slots that are left, read from a ring at rest. -/
theorem auditStep_slots (config : RingConfig) (ring : RingBuffer) (head tail count idx : Nat)
    (rest : idx + (count + 1) = config.slotCount) :
    (auditStep config ring)^[count + 1] (.loadSlot head tail idx) =
      .returned ((List.range' idx (count + 1)).all fun slot =>
        slotChecks config head tail (ring.cells slot).sequence slot) := by
  induction count generalizing idx with
  | zero =>
      rw [Function.iterate_succ_apply, Function.iterate_zero_apply, List.range'_succ, List.all_cons,
        List.range'_zero, List.all_nil, Bool.and_true, auditStep]
      cases slotChecks config head tail (ring.cells idx).sequence idx with
      | false => exact if_pos rfl
      | true => rw [if_neg (by decide), if_neg (by omega)]
  | succ count inductionHypothesis =>
      rw [Function.iterate_succ_apply, List.range'_succ, List.all_cons]
      cases checked : slotChecks config head tail (ring.cells idx).sequence idx with
      | false => rw [auditStep, if_pos checked, auditStep_returned, Bool.false_and]
      | true =>
          rw [auditStep, checked, if_neg (by decide), if_pos (by omega), Bool.true_and]
          exact inductionHypothesis (idx + 1) (by omega)

/-- On a ring at rest the actions compute `verify_consistent`. -/
theorem auditStep_alone (config : RingConfig) (ring : RingBuffer) :
    (auditStep config ring)^[config.slotCount + 2] .loadHead =
      .returned (verifyConsistent config ring) := by
  have two := config.atLeastTwo
  obtain ⟨count, counted⟩ : ∃ count, config.slotCount = count + 1 :=
    ⟨_, (Nat.sub_add_cancel (by omega)).symm⟩
  rw [Function.iterate_succ_apply, Function.iterate_succ_apply]
  simp only [auditStep, verifyConsistent]
  split
  · exact auditStep_returned ..
  · split
    · exact auditStep_returned ..
    · rw [counted, auditStep_slots config ring _ _ count 0 (by omega), ← List.range_eq_range']
      rfl

/-! ### Regimes -/

/-- What the sequence of slot `idx`, the head and the tail can become. The laws
say that claims, commits and releases which follow the code stay within it, and
that a slot check on any three words of it fails. -/
structure Regime (config : RingConfig) (idx : Nat) where
  Value : Nat → Prop
  Head : Nat → Prop
  Tail : Nat → Prop
  word : ∀ sequence, Value sequence → sequence < 2 ^ 64
  claimTail : ∀ position, Tail position →
    (position % config.slotCount = idx → Value position) → Tail (position + 1)
  claimHead : ∀ position, Head position →
    (position % config.slotCount = idx → Value (position + 1)) → Head (position + 1)
  commit : ∀ position, position < 2 ^ 63 → position % config.slotCount = idx →
    Tail position → Value position → Value (position + 1)
  release : ∀ position, position < 2 ^ 63 → position % config.slotCount = idx →
    Head position → Value (position + 1) → Value (position + config.slotCount)
  rejects : ∀ head tail sequence, head < 2 ^ 63 → tail < 2 ^ 63 → Head head → Tail tail →
    Value sequence → slotChecks config head tail sequence idx = false

namespace Regime

variable {idx : Nat} (regime : Regime config idx)

/-- What a thread has observed of the slot before its next claim. -/
def Observed : RingThread config → Prop
  | .pushing _ (.loadSequence position) => position < 2 ^ 63
  | .pushing _ (.casTail position) =>
      position < 2 ^ 63 ∧ (position % config.slotCount = idx → regime.Value position)
  | .popping _ (.loadSequence position) => position < 2 ^ 63
  | .popping _ (.casHead position) =>
      position < 2 ^ 63 ∧ (position % config.slotCount = idx → regime.Value (position + 1))
  | _ => True

/-- The claims of a thread on the slot were within the regime. -/
structure Guards (thread : RingThread config) : Prop where
  observed : regime.Observed thread
  writes : ∀ position, thread.writes = some position → position < 2 ^ 63 ∧
    (position % config.slotCount = idx → regime.Tail position ∧ regime.Value position)
  reads : ∀ position, thread.reads = some position → position < 2 ^ 63 ∧
    (position % config.slotCount = idx → regime.Head position ∧ regime.Value (position + 1))

/-- The ring and the threads are within the regime. -/
structure Holds (state : State config) : Prop where
  headSmall : state.ring.head < 2 ^ 63
  tailSmall : state.ring.tail < 2 ^ 63
  head : regime.Head state.ring.head
  tail : regime.Tail state.ring.tail
  value : regime.Value (state.ring.cellAt config idx).sequence
  guards : ∀ thread, regime.Guards (state.threads thread)

variable {regime}

/-- A thread that owns nothing. -/
theorem guards_of_free {thread : RingThread config} (observed : regime.Observed thread)
    (writes : thread.writes = none) (reads : thread.reads = none) : regime.Guards thread where
  observed := observed
  writes := fun _ claimed => nomatch writes.symm.trans claimed
  reads := fun _ claimed => nomatch reads.symm.trans claimed

theorem cellAt_slot {ring : RingBuffer} {position : Nat} (slot : position % config.slotCount = idx) :
    ring.cellAt config position = ring.cellAt config idx := by
  rw [RingBuffer.cellAt_eq, RingBuffer.cellAt_eq, ← slot, Nat.mod_mod]

/-- The locals and the claim of a push after one action. -/
theorem Guards.push {ring : RingBuffer} {args : PushArgs config} {pc : PushPc} (weak : Bool)
    (guards : regime.Guards (.pushing args pc)) (small : ring.tail < 2 ^ 63)
    (tail : regime.Tail ring.tail) (value : regime.Value (ring.cellAt config idx).sequence) :
    regime.Guards (.pushing args (tryPushStep config args weak ring pc).2) := by
  cases pc with
  | loadTail => exact guards_of_free small rfl rfl
  | loadSequence position =>
      have below : position < 2 ^ 63 := guards.observed
      simp only [tryPushStep]
      split
      · next zero =>
        refine guards_of_free ⟨below, fun slot => ?_⟩ rfl rfl
        rw [cellAt_slot slot] at zero
        rwa [← (signedDiff_eq_zero (regime.word _ value) (by omega)).mp zero]
      · split
        · exact guards_of_free trivial rfl rfl
        · exact guards_of_free trivial rfl rfl
  | casTail position =>
      obtain ⟨below, seen⟩ := guards.observed
      simp only [tryPushStep]
      split
      · next claims =>
        refine ⟨trivial, fun claimed equal => ?_, by rintro _ ⟨⟩⟩
        obtain rfl := Option.some.inj equal
        exact ⟨below, fun slot => ⟨claims.1 ▸ tail, seen slot⟩⟩
      · exact guards_of_free small rfl rfl
  | reloadTail position => exact guards_of_free small rfl rfl
  | writePayload position => exact ⟨trivial, guards.writes, by rintro _ ⟨⟩⟩
  | writeCrc position => exact ⟨trivial, guards.writes, by rintro _ ⟨⟩⟩
  | commit position => exact guards_of_free trivial rfl rfl
  | returned result => exact guards_of_free trivial rfl rfl

/-- The locals and the claim of a pop after one action. -/
theorem Guards.pop {ring : RingBuffer} {size : Nat} {pc : PopPc} (weak : Bool)
    (guards : regime.Guards (.popping size pc)) (small : ring.head < 2 ^ 63)
    (head : regime.Head ring.head) (value : regime.Value (ring.cellAt config idx).sequence) :
    regime.Guards (.popping size (tryPopStep config size weak ring pc).2) := by
  cases pc with
  | loadHead => exact guards_of_free small rfl rfl
  | loadSequence position =>
      have below : position < 2 ^ 63 := guards.observed
      simp only [tryPopStep]
      split
      · next zero =>
        refine guards_of_free ⟨below, fun slot => ?_⟩ rfl rfl
        rw [cellAt_slot slot, wrap64_of_lt (by omega)] at zero
        rwa [← (signedDiff_eq_zero (regime.word _ value) (by omega)).mp zero]
      · split
        · exact guards_of_free trivial rfl rfl
        · exact guards_of_free trivial rfl rfl
  | casHead position =>
      obtain ⟨below, seen⟩ := guards.observed
      simp only [tryPopStep]
      split
      · next claims =>
        refine ⟨trivial, (by rintro _ ⟨⟩), fun claimed equal => ?_⟩
        obtain rfl := Option.some.inj equal
        exact ⟨below, fun slot => ⟨claims.1 ▸ head, seen slot⟩⟩
      · exact guards_of_free small rfl rfl
  | reloadHead position => exact guards_of_free small rfl rfl
  | loadCrc position => exact ⟨trivial, (by rintro _ ⟨⟩), guards.reads⟩
  | checkPayload position crc =>
      simp only [tryPopStep]
      split
      · exact ⟨trivial, (by rintro _ ⟨⟩), guards.reads⟩
      · exact ⟨trivial, (by rintro _ ⟨⟩), guards.reads⟩
  | copyOut position => exact ⟨trivial, (by rintro _ ⟨⟩), guards.reads⟩
  | release position out => exact guards_of_free trivial rfl rfl
  | releaseCorrupt position => exact guards_of_free trivial rfl rfl
  | countCorruption => exact guards_of_free trivial rfl rfl
  | returned result => exact guards_of_free trivial rfl rfl

/-- The counters after one action of a push. -/
theorem Guards.push_tail {ring : RingBuffer} {args : PushArgs config} {pc : PushPc} (weak : Bool)
    (guards : regime.Guards (.pushing args pc)) (small : ring.tail < 2 ^ 63)
    (tail : regime.Tail ring.tail) :
    regime.Tail (tryPushStep config args weak ring pc).1.tail := by
  rcases tryPushStep_claim 0 args weak pc small with ⟨rfl, moved, -⟩ | ⟨kept, -⟩
  · rw [moved]
    exact regime.claimTail _ tail guards.observed.2
  · rwa [kept]

theorem Guards.pop_head {ring : RingBuffer} {size : Nat} {pc : PopPc} (weak : Bool)
    (guards : regime.Guards (.popping size pc)) (small : ring.head < 2 ^ 63)
    (head : regime.Head ring.head) :
    regime.Head (tryPopStep config size weak ring pc).1.head := by
  rcases tryPopStep_claim config 0 size weak pc small with ⟨rfl, moved, -⟩ | ⟨kept, -⟩
  · rw [moved]
    exact regime.claimHead _ head guards.observed.2
  · rwa [kept]

/-- The sequence of the slot after one action of a push. -/
theorem Guards.push_value {ring : RingBuffer} {args : PushArgs config} {pc : PushPc} (weak : Bool)
    (guards : regime.Guards (.pushing args pc)) (below : idx < config.slotCount)
    (value : regime.Value (ring.cellAt config idx).sequence) :
    regime.Value ((tryPushStep config args weak ring pc).1.cellAt config idx).sequence := by
  rcases tryPushStep_sequence args weak pc idx with kept | ⟨position, rfl, same, stored⟩
  · rwa [kept]
  · obtain ⟨small, claimed⟩ := guards.writes position rfl
    rw [Nat.mod_eq_of_lt below] at same
    obtain ⟨tail, ready⟩ := claimed same.symm
    rw [stored, wrap64_of_lt (by omega)]
    exact regime.commit position small same.symm tail ready

theorem Guards.pop_value {ring : RingBuffer} {size : Nat} {pc : PopPc} (weak : Bool)
    (guards : regime.Guards (.popping size pc)) (below : idx < config.slotCount)
    (value : regime.Value (ring.cellAt config idx).sequence) :
    regime.Value ((tryPopStep config size weak ring pc).1.cellAt config idx).sequence := by
  have lap := config.slotCount_le
  rcases tryPopStep_sequence config 0 size weak pc idx with
    kept | ⟨position, holds, same, stored, -⟩
  · rwa [kept]
  · obtain ⟨small, claimed⟩ := guards.reads position holds
    rw [Nat.mod_eq_of_lt below] at same
    obtain ⟨head, committed⟩ := claimed same.symm
    rw [stored, wrap64_of_lt (by omega)]
    exact regime.release position small same.symm head committed

theorem Holds.guards_update {state : State config} (holds : regime.Holds state) {thread : Nat}
    {next : RingThread config} (mine : regime.Guards next) (other : Nat) :
    regime.Guards (Function.update state.threads thread next other) :=
  (Function.forall_update_iff state.threads fun _ any => regime.Guards any).mpr
    ⟨mine, fun any _ => holds.guards any⟩ other

/-- One step of the threads stays within the regime. -/
theorem Holds.step {state : State config} (holds : regime.Holds state)
    (below : idx < config.slotCount) (label : Label config)
    (headSmall : (apply state label).ring.head < 2 ^ 63)
    (tailSmall : (apply state label).ring.tail < 2 ^ 63) : regime.Holds (apply state label) := by
  rcases apply_cases state label with
    ⟨thread, weak, args, pc, located, moved⟩ | ⟨thread, weak, size, pc, located, moved⟩ |
      moved | ⟨thread, next, moved, entered⟩
  · have guards := holds.guards thread
    rw [located] at guards
    rw [moved] at headSmall tailSmall ⊢
    refine ⟨headSmall, tailSmall, ?_, guards.push_tail weak holds.tailSmall holds.tail,
      guards.push_value weak below holds.value, holds.guards_update ?_⟩
    · change regime.Head (tryPushStep config args weak state.ring pc).1.head
      rw [tryPushStep_head]
      exact holds.head
    · exact guards.push weak holds.tailSmall holds.tail holds.value
  · have guards := holds.guards thread
    rw [located] at guards
    rw [moved] at headSmall tailSmall ⊢
    refine ⟨headSmall, tailSmall, guards.pop_head weak holds.headSmall holds.head, ?_,
      guards.pop_value weak below holds.value, holds.guards_update ?_⟩
    · change regime.Tail (tryPopStep config size weak state.ring pc).1.tail
      rw [tryPopStep_tail]
      exact holds.tail
    · exact guards.pop weak holds.headSmall holds.head holds.value
  · rwa [moved]
  · rw [moved]
    refine ⟨holds.headSmall, holds.tailSmall, holds.head, holds.tail, holds.value,
      holds.guards_update ?_⟩
    rcases entered with ⟨args, rfl⟩ | ⟨size, rfl⟩ | rfl
    · exact guards_of_free trivial rfl rfl
    · exact guards_of_free trivial rfl rfl
    · exact guards_of_free trivial rfl rfl

/-- What the call has read so far, and that it has not returned `true`. -/
def Audited (regime : Regime config idx) : AuditPc → Prop
  | .loadHead => True
  | .loadTail head => head < 2 ^ 63 ∧ regime.Head head
  | .loadSlot head tail current =>
      (head < 2 ^ 63 ∧ regime.Head head) ∧ (tail < 2 ^ 63 ∧ regime.Tail tail) ∧ current ≤ idx
  | .returned result => result = false

/-- The call does not get past the slot. -/
theorem Holds.audit {state : State config} (holds : regime.Holds state)
    (below : idx < config.slotCount) {pc : AuditPc} (audited : regime.Audited pc) :
    regime.Audited (auditStep config state.ring pc) := by
  cases pc with
  | loadHead => exact ⟨holds.headSmall, holds.head⟩
  | loadTail head =>
      simp only [auditStep]
      split
      · exact rfl
      · split
        · exact rfl
        · exact ⟨audited, ⟨holds.tailSmall, holds.tail⟩, Nat.zero_le _⟩
  | loadSlot head tail current =>
      obtain ⟨⟨headSmall, headIn⟩, ⟨tailSmall, tailIn⟩, before⟩ := audited
      simp only [auditStep]
      split
      · exact rfl
      · next passed =>
        have value := holds.value
        rw [RingBuffer.cellAt_eq, Nat.mod_eq_of_lt below] at value
        have other : current ≠ idx := by
          rintro rfl
          exact passed (regime.rejects head tail _ headSmall tailSmall headIn tailIn value)
        rw [if_pos (by omega)]
        exact ⟨⟨headSmall, headIn⟩, ⟨tailSmall, tailIn⟩, by omega⟩
  | returned result => exact audited

/-! ### The three regimes -/

/-- A word that `verify_consistent` decodes without wrapping. -/
def Word (config : RingConfig) (idx sequence : Nat) : Prop :=
  sequence < 2 ^ 64 ∧
    (sequence % config.slotCount ≠ idx → sequence + config.slotCount ≤ 2 ^ 64)

theorem word_of_small {sequence : Nat} (small : sequence ≤ 2 ^ 63) : Word config idx sequence := by
  have lap := config.slotCount_le
  exact ⟨by omega, fun _ => by omega⟩

/-- No claim of the slot ever meets the sequence: the slot is never written. -/
def stuck (below : idx < config.slotCount) (head tail value : Nat) (small : value < 2 ^ 63)
    (noPop : ∀ position, head ≤ position → position % config.slotCount = idx →
      value ≠ position + 1)
    (noPush : ∀ position, tail ≤ position → position % config.slotCount = idx →
      value ≠ position) : Regime config idx where
  Value := fun sequence => sequence = value
  Head := fun position => head ≤ position
  Tail := fun position => tail ≤ position
  word := fun sequence same => by omega
  claimTail := fun position low _ => Nat.le_succ_of_le low
  claimHead := fun position low _ => Nat.le_succ_of_le low
  commit := fun position _ slot low ready => absurd ready.symm (noPush position low slot)
  release := fun position _ slot low committed => absurd committed.symm (noPop position low slot)
  rejects := by
    rintro headNow tailNow sequence headSmall tailSmall headLow tailLow rfl
    obtain ⟨unconsumed, first⟩ := exists_firstFrom below headNow
    obtain ⟨uncommitted, next⟩ := exists_firstFrom below tailNow
    obtain ⟨word, lapSmall⟩ := (word_of_small small.le : Word config idx sequence)
    rw [← Bool.not_eq_true, slotChecks_iff below headSmall tailSmall word lapSmall first next]
    rintro (⟨ready, same⟩ | ⟨committed, -⟩)
    · exact noPush uncommitted (le_trans tailLow next.low) next.slot (ready.trans same)
    · exact noPop unconsumed (le_trans headLow first.low) first.slot committed

/-- The sequence is past the first unread position of the slot: consumers never
get there. -/
def aheadOfHead (below : idx < config.slotCount) (origin : Nat)
    (slot : origin % config.slotCount = idx) : Regime config idx where
  Value := fun sequence => origin + 2 ≤ sequence ∧ Word config idx sequence
  Head := fun position => position ≤ origin
  Tail := fun _ => True
  word := fun _ value => value.2.1
  claimTail := fun _ _ _ => trivial
  claimHead := by
    intro position low observed
    rcases Nat.lt_or_eq_of_le low with before | rfl
    · exact before
    · exact absurd (observed slot).1 (by omega)
  commit := fun position small _ _ value =>
    ⟨Nat.le_succ_of_le value.1, word_of_small (by omega)⟩
  release := fun position _ _ low value => absurd value.1 (by omega)
  rejects := by
    intro headNow tailNow sequence headSmall tailSmall low _ value
    obtain ⟨unconsumed, first⟩ := exists_firstFrom below headNow
    obtain ⟨uncommitted, next⟩ := exists_firstFrom below tailNow
    obtain ⟨ahead, word, lapSmall⟩ := value
    have behind := first.le_of_slot low slot
    rw [← Bool.not_eq_true, slotChecks_iff below headSmall tailSmall word lapSmall first next]
    omega

/-- The sequence is past the first free position of the slot: producers never get
there. -/
def aheadOfTail (below : idx < config.slotCount) (origin : Nat)
    (slot : origin % config.slotCount = idx) : Regime config idx where
  Value := fun sequence => origin + 1 ≤ sequence ∧ Word config idx sequence
  Head := fun _ => True
  Tail := fun position => position ≤ origin
  word := fun _ value => value.2.1
  claimTail := by
    intro position low observed
    rcases Nat.lt_or_eq_of_le low with before | rfl
    · exact before
    · exact absurd (observed slot).1 (by omega)
  claimHead := fun _ _ _ => trivial
  commit := fun position _ _ low value => absurd value.1 (by omega)
  release := by
    intro position small same _ value
    have lap := config.slotCount_le
    refine ⟨by omega, by omega, fun other => absurd ?_ other⟩
    rw [Nat.add_mod_right, same]
  rejects := by
    intro headNow tailNow sequence headSmall tailSmall _ low value
    obtain ⟨unconsumed, first⟩ := exists_firstFrom below headNow
    obtain ⟨uncommitted, next⟩ := exists_firstFrom below tailNow
    obtain ⟨ahead, word, lapSmall⟩ := value
    have behind := next.le_of_slot low slot
    have two := config.atLeastTwo
    rw [← Bool.not_eq_true, slotChecks_iff below headSmall tailSmall word lapSmall first next]
    omega

/-- Every overwrite of a quiescent slot starts one of the three regimes. -/
theorem exists_holds_corrupt {state : State config} (invariant : Invariant config state)
    (idle : ∀ thread, state.threads thread = .idle) (below : idx < config.slotCount) {value : Nat}
    (different : value ≠ (state.ring.cells idx).sequence) (small : value < 2 ^ 63) :
    ∃ regime : Regime config idx, regime.Holds (state.corrupt idx value) := by
  have ordered : state.ring.head ≤ state.ring.tail := invariant.coherent.window.ordered
  have tailSmall := invariant.small
  have headSmall := lt_of_le_of_lt ordered tailSmall
  have two := config.atLeastTwo
  have quietReaders : NoReaders state.threads := fun thread => by rw [idle thread]; rfl
  have quietWriters : NoWriters state.threads := fun thread => by rw [idle thread]; rfl
  have stored : ((state.corrupt idx value).ring.cellAt config idx).sequence = value := by
    rw [RingBuffer.cellAt_eq, Nat.mod_eq_of_lt below]
    simp only [State.corrupt, Function.update_self]
  have resting (regime : Regime config idx) (thread : Nat) :
      regime.Guards ((state.corrupt idx value).threads thread) := by
    change regime.Guards (state.threads thread)
    rw [idle thread]
    exact guards_of_free trivial rfl rfl
  obtain ⟨origin, first⟩ := exists_firstFrom below state.ring.head
  have slot : state.ring.cellAt config origin = state.ring.cells idx := by
    rw [RingBuffer.cellAt_eq, first.slot]
  by_cases claimable :
      (∃ position, state.ring.head ≤ position ∧ position % config.slotCount = idx ∧
        value = position + 1) ∨
      ∃ position, state.ring.tail ≤ position ∧ position % config.slotCount = idx ∧
        value = position
  · rcases Nat.lt_or_ge origin state.ring.tail with committed | free
    · have old := invariant.coherent.outstanding_sequence first.low committed
        (quietWriters.unclaimed origin)
      rw [slot] at old
      rw [old] at different
      refine ⟨aheadOfHead below origin first.slot, headSmall, tailSmall, first.low, trivial,
        ?_, resting _⟩
      rw [stored]
      refine ⟨?_, word_of_small small.le⟩
      rcases claimable with ⟨position, low, same, rfl⟩ | ⟨position, low, same, rfl⟩
      · have := first.le_of_slot low same
        omega
      · have := lap_le_of_lt (show origin < value by omega) (first.slot.trans same.symm)
        omega
    · have old := invariant.coherent.free_sequence quietReaders free first.near
      rw [slot] at old
      rw [old] at different
      refine ⟨aheadOfTail below origin first.slot, headSmall, tailSmall, trivial, free, ?_,
        resting _⟩
      rw [stored]
      refine ⟨?_, word_of_small small.le⟩
      rcases claimable with ⟨position, low, same, rfl⟩ | ⟨position, low, same, rfl⟩
      · have := first.le_of_slot low same
        omega
      · have := first.le_of_slot (ordered.trans low) same
        omega
  · rw [not_or] at claimable
    refine ⟨stuck below state.ring.head state.ring.tail value small
      (fun position low same equal => claimable.1 ⟨position, low, same, equal⟩)
      (fun position low same equal => claimable.2 ⟨position, low, same, equal⟩),
      headSmall, tailSmall, le_rfl, le_rfl, stored, resting _⟩

end Regime

/-! ### Runs -/

/-- The most actions the call still needs. -/
def AuditPc.remaining (slots : Nat) : AuditPc → Nat
  | .loadHead => slots + 2
  | .loadTail _ => slots + 1
  | .loadSlot _ _ idx => slots - (idx + 1) + 1
  | .returned _ => 0

theorem AuditPc.returned_of_remaining {slots : Nat} {pc : AuditPc} (done : pc.remaining slots = 0) :
    ∃ result, pc = .returned result := by
  cases pc with
  | returned result => exact ⟨result, rfl⟩
  | loadHead | loadTail | loadSlot => cases done

theorem auditStep_remaining (config : RingConfig) (ring : RingBuffer) (pc : AuditPc) :
    (auditStep config ring pc).remaining config.slotCount ≤
      pc.remaining config.slotCount - 1 := by
  have two := config.atLeastTwo
  cases pc with
  | loadHead => exact le_rfl
  | loadTail head =>
      simp only [auditStep]
      split
      · exact Nat.zero_le _
      · split
        · exact Nat.zero_le _
        · simp only [AuditPc.remaining]
          omega
  | loadSlot head tail idx =>
      simp only [auditStep]
      split
      · exact Nat.zero_le _
      · split
        · simp only [AuditPc.remaining]
          omega
        · exact Nat.zero_le _
  | returned result => exact le_rfl

theorem foldl_remaining (schedule : List (LiveLabel config)) (state : Live config) :
    (schedule.foldl liveApply state).audit.remaining config.slotCount ≤
      state.audit.remaining config.slotCount - schedule.countP LiveLabel.isAudit := by
  induction schedule generalizing state with
  | nil => exact le_rfl
  | cons label rest inductionHypothesis =>
      have later := inductionHypothesis (liveApply state label)
      rw [List.foldl_cons]
      cases label with
      | thread label => exact later
      | audit =>
          have first := auditStep_remaining config state.machine.ring state.audit
          simp only [liveApply] at later
          simp only [List.countP_cons, LiveLabel.isAudit, if_true, liveApply]
          omega

/-- Live traffic never masks a corrupted slot counter. -/
theorem live_audit_rejects (config : RingConfig) (storage : RingBuffer) {quiet : State config}
    (reach : Reachable Step (start config storage) quiet)
    (idle : ∀ thread, quiet.threads thread = .idle) {idx value : Nat}
    (below : idx < config.slotCount) (different : value ≠ (quiet.ring.cells idx).sequence)
    (small : value < 2 ^ 63) (schedule : List (LiveLabel config))
    (lifetime : Allows KeepsLifetime liveApply ⟨quiet.corrupt idx value, .loadHead⟩ schedule) :
    (∀ result, (schedule.foldl liveApply ⟨quiet.corrupt idx value, .loadHead⟩).audit =
        .returned result → result = false) ∧
      (config.slotCount + 2 ≤ schedule.countP LiveLabel.isAudit →
        (schedule.foldl liveApply ⟨quiet.corrupt idx value, .loadHead⟩).audit =
          .returned false) := by
  obtain ⟨regime, started⟩ := Regime.exists_holds_corrupt (reachable_invariant reach) idle below
    different small
  have entered : regime.Audited .loadHead := trivial
  have within := (reachable_of_allows schedule _ lifetime).invariant
    (motive := fun state => regime.Holds state.machine ∧ regime.Audited state.audit)
    ⟨started, entered⟩ fun before _ _ ⟨holds, audited⟩ ⟨label, kept, moved⟩ => by
      subst moved
      cases label with
      | thread label => exact ⟨holds.step below label kept.1 kept.2, audited⟩
      | audit => exact ⟨holds, holds.audit below audited⟩
  have never : ∀ result, (schedule.foldl liveApply ⟨quiet.corrupt idx value, .loadHead⟩).audit =
      .returned result → result = false := by
    intro result returned
    have audited := within.2
    rw [returned] at audited
    exact audited
  refine ⟨never, fun enough => ?_⟩
  have left := foldl_remaining schedule ⟨quiet.corrupt idx value, .loadHead⟩
  simp only [AuditPc.remaining] at left
  obtain ⟨result, returned⟩ := AuditPc.returned_of_remaining (Nat.le_zero.mp (left.trans (by omega)))
  rw [returned, never result returned]

/-- A consumer takes what the overwritten slot offers between the two counter
loads. -/
def stolenSlot : List (LiveLabel twoSlots) :=
  [.audit, .thread (.startPop 0 1)] ++ List.replicate 7 (.thread (.advance 0 false)) ++
    List.replicate 4 .audit

theorem live_audit_rejects_stolenSlot :
    ((start twoSlots zeroStorage).corrupt 0 1).ring.head = 0 ∧
      (stolenSlot.foldl liveApply
        ⟨(start twoSlots zeroStorage).corrupt 0 1, .loadHead⟩).machine.ring.head = 1 ∧
      (stolenSlot.foldl liveApply ⟨(start twoSlots zeroStorage).corrupt 0 1, .loadHead⟩).audit =
        .returned false :=
  ⟨by decide +kernel, by decide +kernel,
    (live_audit_rejects twoSlots zeroStorage Reachable.refl (fun _ => rfl) (by decide : 0 < 2)
      (by decide +kernel) (by decide) stolenSlot (by decide +kernel)).2 (by decide)⟩

end SafetyCrit.SharedMemory.RingMachine
