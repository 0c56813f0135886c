import SafetyCrit.SharedMemory.RingProgress
import SafetyCrit.SharedMemory.VerifyExact

/-!
Owns `derive_state`: what it computes from the slots alone, and that on every
reachable ring this is the window of positions not yet released and not yet
committed, whatever calls are in flight.

`Settled` says that a claimed position is in the hands of a thread or done; with
it the phase of a slot says which of the slot's positions are done.
-/

namespace SafetyCrit.SharedMemory

open SafetyCrit.Library
open SafetyCrit.Library.Run
open SafetyCrit.Library.Claims

/-! ### The code -/

/-- `DerivedState`. -/
structure DerivedState where
  head : Nat
  tail : Nat
deriving DecidableEq, Repr

/-- A word that is neither a ready nor a commit marker of slot `idx`. -/
def Malformed (config : RingConfig) (ring : RingBuffer) (idx : Nat) : Prop :=
  (ring.cells idx).sequence < idx ∨ ((ring.cells idx).sequence - idx) % config.slotCount > 1

/-- The first unconsumed and the first uncommitted position of slot `idx`. -/
def deriveSlot (config : RingConfig) (ring : RingBuffer) (idx : Nat) : Option DerivedState :=
  let n := config.slotCount
  let s := (ring.cells idx).sequence
  if s < idx then none
  else
    let r := (s - idx) % n
    if r > 1 then none
    else
      let k := (s - idx - r) / n
      let firstUnconsumed := wrap64 (idx + k * n)
      let firstUncommitted := if r = 0 then firstUnconsumed else wrap64 (idx + (k + 1) * n)
      some ⟨firstUnconsumed, firstUncommitted⟩

/-- The body of the loop: the minima so far. -/
def deriveStep (config : RingConfig) (ring : RingBuffer) (least : DerivedState) (idx : Nat) :
    Option DerivedState :=
  (deriveSlot config ring idx).map fun slot =>
    { head := if slot.head < least.head then slot.head else least.head
      tail := if slot.tail < least.tail then slot.tail else least.tail }

/-- `derive_state`: the result, and `out` afterwards. -/
def deriveState (config : RingConfig) (ring : RingBuffer) (out : DerivedState) :
    Bool × DerivedState :=
  match (List.range config.slotCount).foldlM (deriveStep config ring)
      ⟨2 ^ 64 - 1, 2 ^ 64 - 1⟩ with
  | none => (false, out)
  | some derived => (true, derived)

variable {config : RingConfig} {ring : RingBuffer}

/-- What a well-formed word decodes to. -/
theorem deriveSlot_of_word {idx position flag : Nat} (bit : flag ≤ 1)
    (stored : (ring.cells idx).sequence = position + flag)
    (slot : position % config.slotCount = idx)
    (small : position + flag * config.slotCount < 2 ^ 64) :
    deriveSlot config ring idx = some ⟨position, position + flag * config.slotCount⟩ := by
  have two := config.atLeastTwo
  have decomposed := Nat.mod_add_div' position config.slotCount
  rw [slot] at decomposed
  have mark : (position + flag - idx) % config.slotCount = flag := by
    rw [← config.index_eq_mod]
    exact mark_of_word slot bit
  obtain ⟨quotient, nextLap⟩ := lap_parts flag (by omega) slot
  simp only [deriveSlot, stored, mark, quotient, decomposed, nextLap,
    if_neg (show ¬ position + flag < idx by omega), if_neg (show ¬ flag > 1 by omega)]
  rcases (show flag = 0 ∨ flag = 1 by omega) with rfl | rfl
  · rw [if_pos rfl, wrap64_of_lt (by omega), Nat.zero_mul, Nat.add_zero]
  · rw [if_neg (by omega), wrap64_of_lt (by omega), wrap64_of_lt (by omega), Nat.one_mul]

/-! ### The loop -/

theorem deriveSlot_eq_none {idx : Nat} :
    deriveSlot config ring idx = none ↔ Malformed config ring idx := by
  unfold deriveSlot Malformed
  simp only
  split_ifs with low residue
  · exact iff_of_true rfl (Or.inl low)
  · exact iff_of_true rfl (Or.inr residue)
  · exact iff_of_false (by simp) (not_or.mpr ⟨low, residue⟩)

theorem deriveSlot_lt {idx : Nat} {slot : DerivedState}
    (derived : deriveSlot config ring idx = some slot) :
    slot.head < 2 ^ 64 ∧ slot.tail < 2 ^ 64 := by
  unfold deriveSlot at derived
  simp only at derived
  split_ifs at derived
  · obtain rfl := Option.some.inj derived
    exact ⟨wrap64_lt _, wrap64_lt _⟩
  · obtain rfl := Option.some.inj derived
    exact ⟨wrap64_lt _, wrap64_lt _⟩

/-- The least of the values that the first `count` rounds have seen, or the value
the loop starts from. -/
structure LeastSeen (value : Nat → Option Nat) (start count least : Nat) : Prop where
  lower : ∀ idx seen, idx < count → value idx = some seen → least ≤ seen
  attained : (count = 0 ∧ least = start) ∨ ∃ idx, idx < count ∧ value idx = some least

theorem LeastSeen.step {value : Nat → Option Nat} {start count least seen : Nat}
    (sofar : LeastSeen value start count least) (round : value count = some seen)
    (below : seen ≤ start) :
    LeastSeen value start (count + 1) (if seen < least then seen else least) := by
  refine ⟨fun idx other within derived => ?_, Or.inr ?_⟩
  · rcases Nat.lt_succ_iff_lt_or_eq.mp within with earlier | rfl
    · have := sofar.lower idx other earlier derived
      split_ifs <;> omega
    · obtain rfl := Option.some.inj (round.symm.trans derived)
      split_ifs <;> omega
  · split_ifs with smaller
    · exact ⟨count, Nat.lt_succ_self count, round⟩
    · rcases sofar.attained with ⟨rfl, rfl⟩ | ⟨idx, within, derived⟩
      · exact ⟨0, Nat.one_pos, by rw [round, Nat.le_antisymm below (not_lt.mp smaller)]⟩
      · exact ⟨idx, Nat.lt_succ_of_lt within, derived⟩

/-- The least over all slots of the least position of each is the least of all. -/
theorem LeastSeen.isLeast {value : Nat → Option Nat} {start count least : Nat} {pending : Nat → Prop}
    (seen : LeastSeen value start count least) (positive : 0 < count)
    (slots : ∀ idx, idx < count → ∃ first, value idx = some first ∧
      IsLeast {position | position % count = idx ∧ pending position} first) :
    IsLeast {position | pending position} least := by
  constructor
  · rcases seen.attained with ⟨empty, -⟩ | ⟨idx, below, attained⟩
    · omega
    · obtain ⟨first, found, isLeast⟩ := slots idx below
      obtain rfl := Option.some.inj (attained.symm.trans found)
      exact isLeast.1.2
  · intro position here
    obtain ⟨first, found, isLeast⟩ := slots _ (Nat.mod_lt position positive)
    exact (seen.lower _ first (Nat.mod_lt position positive) found).trans (isLeast.2 ⟨rfl, here⟩)

/-- The variables of the loop after `count` rounds. -/
structure Minima (config : RingConfig) (ring : RingBuffer) (count : Nat) (least : DerivedState) :
    Prop where
  sound : ∀ idx, idx < count → ¬ Malformed config ring idx
  head : LeastSeen (fun idx => (deriveSlot config ring idx).map DerivedState.head) (2 ^ 64 - 1)
    count least.head
  tail : LeastSeen (fun idx => (deriveSlot config ring idx).map DerivedState.tail) (2 ^ 64 - 1)
    count least.tail

theorem Minima.step {count : Nat} {least slot : DerivedState}
    (minima : Minima config ring count least)
    (derived : deriveSlot config ring count = some slot) :
    Minima config ring (count + 1)
      { head := if slot.head < least.head then slot.head else least.head
        tail := if slot.tail < least.tail then slot.tail else least.tail } := by
  obtain ⟨headWord, tailWord⟩ := deriveSlot_lt derived
  refine ⟨fun idx below => ?_, minima.head.step (by rw [derived]; rfl) (by omega),
    minima.tail.step (by rw [derived]; rfl) (by omega)⟩
  rcases Nat.lt_succ_iff_lt_or_eq.mp below with earlier | rfl
  · exact minima.sound idx earlier
  · rw [← deriveSlot_eq_none, derived]
    exact Option.some_ne_none slot

/-- The loop fails on the first malformed slot, and otherwise computes the minima. -/
theorem foldlM_deriveStep (config : RingConfig) (ring : RingBuffer) (count : Nat) :
    ((List.range count).foldlM (deriveStep config ring) ⟨2 ^ 64 - 1, 2 ^ 64 - 1⟩ = none ∧
        ∃ idx, idx < count ∧ Malformed config ring idx) ∨
      ∃ least, (List.range count).foldlM (deriveStep config ring) ⟨2 ^ 64 - 1, 2 ^ 64 - 1⟩ =
          some least ∧ Minima config ring count least := by
  induction count with
  | zero =>
      refine Or.inr ⟨_, rfl, by simp, ⟨by simp, Or.inl ⟨rfl, rfl⟩⟩, ⟨by simp, Or.inl ⟨rfl, rfl⟩⟩⟩
  | succ count inductionHypothesis =>
      rw [List.range_succ, List.foldlM_append]
      rcases inductionHypothesis with ⟨failed, idx, below, malformed⟩ | ⟨least, ran, minima⟩
      · exact Or.inl ⟨by rw [failed]; rfl, idx, by omega, malformed⟩
      · rw [ran]
        simp only [List.foldlM_cons, List.foldlM_nil, Option.bind_eq_bind, Option.bind_some,
          deriveStep]
        cases derived : deriveSlot config ring count with
        | none => exact Or.inl ⟨rfl, count, by omega, deriveSlot_eq_none.mp derived⟩
        | some slot => exact Or.inr ⟨_, rfl, minima.step derived⟩

/-- `derive_state` fails exactly on malformed slots, and then keeps `out`. -/
theorem deriveState_fails (config : RingConfig) (ring : RingBuffer) (out : DerivedState) :
    ((deriveState config ring out).1 = false ↔
        ∃ idx, idx < config.slotCount ∧ Malformed config ring idx) ∧
      ((deriveState config ring out).1 = false → (deriveState config ring out).2 = out) := by
  unfold deriveState
  rcases foldlM_deriveStep config ring config.slotCount with
    ⟨failed, malformed⟩ | ⟨least, ran, minima⟩
  · rw [failed]
    exact ⟨iff_of_true rfl malformed, fun _ => rfl⟩
  · rw [ran]
    refine ⟨iff_of_false (by simp) ?_, by simp⟩
    rintro ⟨idx, below, malformed⟩
    exact minima.sound idx below malformed

namespace RingMachine

/-! ### Claimed positions are settled -/

/-- A claim is kept until the commit store. -/
theorem tryPushStep_holds (ring : RingBuffer) (args : PushArgs config) (weak : Bool) {pc : PushPc}
    {position : Nat} (holds : pc.holds = some position) :
    (tryPushStep config args weak ring pc).2.holds = some position ∨ pc = .commit position := by
  cases pc with
  | writePayload place | writeCrc place => exact Or.inl holds
  | commit place =>
      cases holds
      exact Or.inr rfl
  | _ => cases holds

/-- A claim is kept until a recorded release. -/
theorem tryPopStep_holds (config : RingConfig) (ring : RingBuffer) (thread size : Nat) (weak : Bool)
    {pc : PopPc} {position : Nat} (holds : pc.holds = some position) :
    (tryPopStep config size weak ring pc).2.holds = some position ∨
      Event.release thread position ∈
        popEvents config thread ring pc (tryPopStep config size weak ring pc).2 := by
  cases pc with
  | loadCrc place | copyOut place => exact Or.inl holds
  | checkPayload place crc =>
      left
      simp only [tryPopStep]
      split
      · exact holds
      · exact holds
  | release place out | releaseCorrupt place =>
      cases holds
      exact Or.inr (by simp [popEvents])
  | _ => cases holds

/-- When one thread moves, a claim stays with its thread or was that thread's. -/
theorem claimed_or_dropped {claim : RingThread config → Option Nat}
    {threads : Nat → RingThread config} {thread position : Nat} (next : RingThread config)
    (claimed : Claimed claim threads position) :
    Claimed claim (Function.update threads thread next) position ∨
      (claim (threads thread) = some position ∧ claim next ≠ some position) := by
  obtain ⟨owner, holds⟩ := claimed
  rw [claimed_update]
  by_cases mine : owner = thread
  · subst mine
    by_cases kept : claim next = some position
    · exact Or.inl (Or.inl kept)
    · exact Or.inr ⟨holds, kept⟩
  · exact Or.inl (Or.inr ⟨owner, mine, holds⟩)

/-- Every claimed position is in the hands of its thread or done, and a released
one has left its slot a lap behind. -/
structure Settled (config : RingConfig) (state : State config) : Prop where
  writes : ∀ position, position < state.ring.tail →
    Claimed RingThread.writes state.threads position ∨ ∃ record, Committed state.log position record
  reads : ∀ position, position < state.ring.head →
    Claimed RingThread.reads state.threads position ∨ Released state.log position
  behind : ∀ position, Released state.log position →
    position + config.slotCount ≤ (state.ring.cellAt config position).sequence

theorem settled_start (storage : RingBuffer) : Settled config (start config storage) where
  writes := by simp [start, RingBuffer.initializeRing_eq]
  reads := by simp [start, RingBuffer.initializeRing_eq]
  behind := by simp [start, Released]

/-- A thread that holds nothing may go anywhere. -/
theorem Settled.move {state : State config} (settled : Settled config state) {thread : Nat}
    {next : RingThread config} (writes : (state.threads thread).writes = none)
    (reads : (state.threads thread).reads = none) :
    Settled config (state.setThread thread next) where
  writes := fun position below => (settled.writes position below).imp_left fun claimed =>
    (claimed_or_dropped next claimed).resolve_right fun dropped => by
      rw [writes] at dropped
      cases dropped.1
  reads := fun position below => (settled.reads position below).imp_left fun claimed =>
    (claimed_or_dropped next claimed).resolve_right fun dropped => by
      rw [reads] at dropped
      cases dropped.1
  behind := settled.behind

/-- One action of a producer. -/
theorem Settled.push {state : State config} (invariant : Invariant config state)
    (settled : Settled config state) {thread : Nat} {args : PushArgs config} {pc : PushPc}
    (weak : Bool) (located : state.threads thread = .pushing args pc)
    (small : (tryPushStep config args weak state.ring pc).1.tail < 2 ^ 63) :
    Settled config
      { ring := (tryPushStep config args weak state.ring pc).1
        threads := Function.update state.threads thread
          (.pushing args (tryPushStep config args weak state.ring pc).2)
        log := state.log ++
          pushEvents thread args state.ring pc (tryPushStep config args weak state.ring pc).2 } where
  writes := by
    intro position below
    have carried : position < state.ring.tail →
        Claimed RingThread.writes (Function.update state.threads thread
            (.pushing args (tryPushStep config args weak state.ring pc).2)) position ∨
          ∃ record, Committed (state.log ++ pushEvents thread args state.ring pc
            (tryPushStep config args weak state.ring pc).2) position record := by
      intro old
      rcases settled.writes position old with claimed | ⟨record, done⟩
      · rcases claimed_or_dropped (.pushing args (tryPushStep config args weak state.ring pc).2)
          claimed with kept | ⟨held, dropped⟩
        · exact Or.inl kept
        · rw [located] at held
          rcases tryPushStep_holds state.ring args weak held with kept | committing
          · exact absurd kept dropped
          · exact Or.inr ⟨_, committed_append.mpr
              (Or.inr (committed_pushEvents.mpr ⟨committing, rfl⟩))⟩
      · exact Or.inr ⟨record, done.grow _⟩
    rcases tryPushStep_claim thread args weak pc invariant.small with
      ⟨-, tail, next, -⟩ | ⟨tail, -, -⟩
    · rw [tail] at below
      rcases Nat.lt_succ_iff_lt_or_eq.mp below with old | rfl
      · exact carried old
      · exact Or.inl ⟨thread, by simp [next, RingThread.writes, PushPc.holds]⟩
    · rw [tail] at below
      exact carried below
  reads := by
    intro position below
    rw [tryPushStep_head] at below
    refine (settled.reads position below).imp (fun claimed => ?_) fun released => released.grow _
    rwa [claimed_update_same (by rw [located]; rfl)]
  behind := by
    have taken : Step state (apply state (.advance thread weak)) :=
      ⟨_, by simpa only [apply, located] using small, rfl⟩
    have released := released_step invariant settled.behind taken
    simpa only [apply, located] using released

/-- One action of a consumer. -/
theorem Settled.pop {state : State config} (invariant : Invariant config state)
    (settled : Settled config state) {thread size : Nat} {pc : PopPc} (weak : Bool)
    (located : state.threads thread = .popping size pc) :
    Settled config
      { ring := (tryPopStep config size weak state.ring pc).1
        threads := Function.update state.threads thread
          (.popping size (tryPopStep config size weak state.ring pc).2)
        log := state.log ++
          popEvents config thread state.ring pc (tryPopStep config size weak state.ring pc).2 } where
  writes := by
    intro position below
    rw [tryPopStep_tail] at below
    refine (settled.writes position below).imp (fun claimed => ?_) fun ⟨record, done⟩ =>
      ⟨record, done.grow _⟩
    rwa [claimed_update_same (by rw [located]; rfl)]
  reads := by
    intro position below
    have carried : position < state.ring.head →
        Claimed RingThread.reads (Function.update state.threads thread
            (.popping size (tryPopStep config size weak state.ring pc).2)) position ∨
          Released (state.log ++ popEvents config thread state.ring pc
            (tryPopStep config size weak state.ring pc).2) position := by
      intro old
      rcases settled.reads position old with claimed | released
      · rcases claimed_or_dropped (.popping size (tryPopStep config size weak state.ring pc).2)
          claimed with kept | ⟨held, dropped⟩
        · exact Or.inl kept
        · rw [located] at held
          rcases tryPopStep_holds config state.ring thread size weak held with kept | released
          · exact absurd kept dropped
          · exact Or.inr ⟨thread, List.mem_append_right _ released⟩
      · exact Or.inr (released.grow _)
    have headSmall : state.ring.head < 2 ^ 63 :=
      lt_of_le_of_lt invariant.coherent.window.ordered invariant.small
    rcases tryPopStep_claim config thread size weak pc headSmall with
      ⟨-, head, next, -⟩ | ⟨head, -, -⟩
    · rw [head] at below
      rcases Nat.lt_succ_iff_lt_or_eq.mp below with old | rfl
      · exact carried old
      · exact Or.inl ⟨thread, by simp [next, RingThread.reads, PopPc.holds]⟩
    · rw [head] at below
      exact carried below
  behind := by
    have taken : Step state (apply state (.advance thread weak)) := by
      refine ⟨_, ?_, rfl⟩
      simp only [apply, located, tryPopStep_tail]
      exact invariant.small
    have released := released_step invariant settled.behind taken
    simpa only [apply, located] using released

theorem settled_step {before after : State config} (invariant : Invariant config before)
    (settled : Settled config before) (step : Step before after) : Settled config after := by
  obtain ⟨label, small, rfl⟩ := step
  cases label with
  | startPush thread args =>
      simp only [apply]
      split
      · next located => exact settled.move (by rw [located]; rfl) (by rw [located]; rfl)
      · exact settled
  | startPop thread size =>
      simp only [apply]
      split
      · next located => exact settled.move (by rw [located]; rfl) (by rw [located]; rfl)
      · exact settled
  | advance thread weak =>
      simp only [apply] at small ⊢
      split at small
      · next located => simpa only [located] using settled
      · next located => simpa only [located] using settled.push invariant weak located small
      · next located => simpa only [located] using settled.pop invariant weak located
  | finish thread =>
      simp only [apply]
      split
      · next located => exact settled.move (by rw [located]; rfl) (by rw [located]; rfl)
      · next located => exact settled.move (by rw [located]; rfl) (by rw [located]; rfl)
      · exact settled

theorem reachable_settled {storage : RingBuffer} {state : State config}
    (reach : Reachable Step (start config storage) state) : Settled config state :=
  reach.invariant (settled_start storage) fun _ _ earlier settled taken =>
    settled_step (reachable_invariant earlier) settled taken

/-! ### The window of a reachable state -/

section Window

variable {state : State config} {position : Nat}

theorem committed_iff (invariant : Invariant config state) (settled : Settled config state) :
    (∃ record, Committed state.log position record) ↔
      position < state.ring.tail ∧ ¬ Claimed RingThread.writes state.threads position := by
  constructor
  · rintro ⟨record, done⟩
    exact invariant.coherent.committedPast position record done
  · rintro ⟨below, unclaimed⟩
    exact (settled.writes position below).resolve_left unclaimed

theorem released_iff (invariant : Invariant config state) (settled : Settled config state) :
    Released state.log position ↔
      position < state.ring.head ∧ ¬ Claimed RingThread.reads state.threads position := by
  constructor
  · rintro ⟨thread, member⟩
    have claimed := List.mem_map_of_mem (f := Prod.snd) (invariant.releaser thread position member)
    rw [invariant.consumers, List.mem_range] at claimed
    refine ⟨claimed, ?_⟩
    rintro ⟨reader, reads⟩
    have stamped := (invariant.coherent.reading_sequence reads).2.2
    have behind := settled.behind position ⟨thread, member⟩
    have two := config.atLeastTwo
    omega
  · rintro ⟨below, unclaimed⟩
    exact (settled.reads position below).resolve_left unclaimed

/-- The first position of a slot not yet released, and the first not yet
committed. -/
structure SlotWindow (config : RingConfig) (state : State config) (idx : Nat)
    (slot : DerivedState) : Prop where
  head : IsLeast {position | position % config.slotCount = idx ∧ ¬ Released state.log position}
    slot.head
  tail : IsLeast {position | position % config.slotCount = idx ∧
    ¬ ∃ record, Committed state.log position record} slot.tail

/-- A slot that stands at `position`, with everything below it done. -/
theorem slotWindow_of_mark (invariant : Invariant config state) (settled : Settled config state)
    {idx flag : Nat} (bit : flag ≤ 1) (slot : position % config.slotCount = idx)
    (stamped : (state.ring.cellAt config position).sequence = position + flag)
    (unreleased : ¬ Released state.log position)
    (uncommitted : ¬ ∃ record, Committed state.log (position + flag * config.slotCount) record)
    (headPassed : ∀ other, other + config.slotCount ≤ position → other < state.ring.head)
    (tailPassed : ∀ other, other + config.slotCount ≤ position + flag * config.slotCount →
      other < state.ring.tail) :
    SlotWindow config state idx ⟨position, position + flag * config.slotCount⟩ := by
  have two := config.atLeastTwo
  have sameCell {other : Nat} (same : other % config.slotCount = idx) :
      (state.ring.cellAt config other).sequence = position + flag := by
    rw [← stamped, RingBuffer.cellAt_eq, RingBuffer.cellAt_eq, same, slot]
  have sameSlot : (position + flag * config.slotCount) % config.slotCount = idx := by
    rw [Nat.add_mul_mod_self_right, slot]
  refine ⟨⟨⟨slot, unreleased⟩, ?_⟩, ⟨⟨sameSlot, uncommitted⟩, ?_⟩⟩
  · rintro other ⟨same, pending⟩
    by_contra above
    have lapped : other + config.slotCount ≤ position :=
      lap_le_of_lt (not_le.mp above) (same.trans slot.symm)
    refine pending ((released_iff invariant settled).mpr ⟨headPassed other lapped, ?_⟩)
    rintro ⟨reader, reads⟩
    have mark := (invariant.coherent.reading_sequence reads).2.2
    rw [sameCell same] at mark
    omega
  · rintro other ⟨same, pending⟩
    by_contra above
    have lapped : other + config.slotCount ≤ position + flag * config.slotCount :=
      lap_le_of_lt (not_le.mp above) (same.trans sameSlot.symm)
    refine pending ((committed_iff invariant settled).mpr ⟨tailPassed other lapped, ?_⟩)
    rintro ⟨writer, writes⟩
    have mark := (invariant.coherent.writing_sequence writes).2.2
    rw [sameCell same] at mark
    rcases (show flag = 0 ∨ flag = 1 by omega) with rfl | rfl
    · omega
    · exact succ_ne_of_same_slot (slot.trans same.symm) mark.symm

/-- Every slot decodes to its own window. -/
theorem deriveSlot_window (invariant : Invariant config state) (settled : Settled config state)
    {idx : Nat} (below : idx < config.slotCount) :
    ∃ slot, deriveSlot config state.ring idx = some slot ∧ SlotWindow config state idx slot := by
  have two := config.atLeastTwo
  have lap := config.slotCount_le
  have small := invariant.small
  have ordered : state.ring.head ≤ state.ring.tail := invariant.coherent.window.ordered
  have bounded : state.ring.tail ≤ state.ring.head + config.slotCount :=
    invariant.coherent.window.bounded
  have notReleased {position : Nat} (pending : state.ring.head ≤ position ∨
      Claimed RingThread.reads state.threads position) : ¬ Released state.log position := by
    rw [released_iff invariant settled]
    rintro ⟨passed, unread⟩
    exact pending.elim (fun low => absurd passed (not_lt.mpr low)) unread
  have notCommitted {position : Nat} (pending : state.ring.tail ≤ position ∨
      Claimed RingThread.writes state.threads position) :
      ¬ ∃ record, Committed state.log position record := by
    rw [committed_iff invariant settled]
    rintro ⟨passed, unwritten⟩
    exact pending.elim (fun low => absurd passed (not_lt.mpr low)) unwritten
  have decoded {position flag : Nat} (bit : flag ≤ 1) (slot : position % config.slotCount = idx)
      (near : position + flag * config.slotCount < 2 ^ 64)
      (stamped : state.ring.counters.stamp (position % config.slotCount) = position + flag) :
      deriveSlot config state.ring idx = some ⟨position, position + flag * config.slotCount⟩ := by
    refine deriveSlot_of_word bit ?_ slot (by omega)
    rw [slot] at stamped
    exact stamped
  obtain ⟨next, first⟩ := exists_firstFrom below state.ring.tail
  have low : state.ring.tail ≤ next := first.low
  have near : next < state.ring.tail + config.slotCount := first.near
  rcases invariant.coherent.window.slots next low near with
    ⟨stamped, room⟩ | ⟨position, rfl, stamped, owner⟩ | ⟨position, rfl, stamped, unread⟩
  · change next < state.ring.head + config.slotCount at room
    refine ⟨_, decoded (Nat.zero_le 1) first.slot (by omega) stamped, ?_⟩
    rw [RingBuffer.counters_stamp] at stamped
    exact slotWindow_of_mark invariant settled (by omega) first.slot stamped
      (notReleased (Or.inl (by omega))) (notCommitted (Or.inl (by omega))) (by omega) (by omega)
  · have slot : position % config.slotCount = idx := by
      rw [← Nat.add_mod_right, first.slot]
    obtain ⟨headLow, -, -⟩ := invariant.coherent.window.writingClaimed position owner
    change state.ring.head ≤ position at headLow
    refine ⟨_, decoded (Nat.zero_le 1) slot (by omega) stamped, ?_⟩
    rw [RingBuffer.counters_stamp] at stamped
    exact slotWindow_of_mark invariant settled (by omega) slot stamped
      (notReleased (Or.inl headLow)) (notCommitted (Or.inr (by simpa using owner))) (by omega)
      (by omega)
  · have slot : position % config.slotCount = idx := by
      rw [← Nat.add_mod_right, first.slot]
    refine ⟨_, decoded le_rfl slot (by omega) stamped, ?_⟩
    rw [RingBuffer.counters_stamp] at stamped
    exact slotWindow_of_mark invariant settled le_rfl slot stamped (notReleased unread)
      (notCommitted (Or.inl (by omega))) (by omega) (by omega)

/-- What `derive_state` reports on a state of the machine: the least position not
yet released and the least not yet committed; while no call holds a position, the
two counters. -/
structure Reconstructs (state : State config) (derived : DerivedState) : Prop where
  head : IsLeast {position | ¬ Released state.log position} derived.head
  tail : IsLeast {position | ¬ ∃ record, Committed state.log position record} derived.tail
  quiet : NoWriters state.threads → NoReaders state.threads →
    derived.head = state.ring.head ∧ derived.tail = state.ring.tail

theorem reconstructs_of_minima (invariant : Invariant config state)
    (settled : Settled config state) {least : DerivedState}
    (minima : Minima config state.ring config.slotCount least) : Reconstructs state least := by
  have positive : 0 < config.slotCount := lt_of_lt_of_le (by decide) config.atLeastTwo
  have head : IsLeast {position | ¬ Released state.log position} least.head := by
    refine minima.head.isLeast positive fun idx below => ?_
    obtain ⟨slot, derived, window⟩ := deriveSlot_window invariant settled below
    exact ⟨slot.head, by rw [derived]; rfl, window.head⟩
  have tail : IsLeast {position | ¬ ∃ record, Committed state.log position record} least.tail := by
    refine minima.tail.isLeast positive fun idx below => ?_
    obtain ⟨slot, derived, window⟩ := deriveSlot_window invariant settled below
    exact ⟨slot.tail, by rw [derived]; rfl, window.tail⟩
  refine ⟨head, tail, fun noWriters noReaders => ⟨head.unique ?_, tail.unique ?_⟩⟩
  · have pending : {position | ¬ Released state.log position} = Set.Ici state.ring.head := by
      ext position
      rw [Set.mem_ofPred_eq, released_iff invariant settled, Set.mem_Ici, not_and_not_right]
      exact ⟨fun passed => not_lt.mp fun below => noReaders.unclaimed _ (passed below),
        fun low below => absurd below (not_lt.mpr low)⟩
    rw [pending]
    exact isLeast_Ici
  · have pending : {position | ¬ ∃ record, Committed state.log position record} =
        Set.Ici state.ring.tail := by
      ext position
      rw [Set.mem_ofPred_eq, committed_iff invariant settled, Set.mem_Ici, not_and_not_right]
      exact ⟨fun passed => not_lt.mp fun below => noWriters.unclaimed _ (passed below),
        fun low below => absurd below (not_lt.mpr low)⟩
    rw [pending]
    exact isLeast_Ici

end Window

/-- On every reachable state `derive_state` reconstructs the window; on any ring
it fails exactly where a slot is malformed, and then keeps `out`. -/
theorem deriveState_reconstructs (config : RingConfig) (out : DerivedState) :
    (∀ storage state, Reachable Step (start config storage) state →
      ∃ derived, deriveState config state.ring out = (true, derived) ∧
        Reconstructs state derived) ∧
      ∀ ring, ((deriveState config ring out).1 = false ↔
          ∃ idx, idx < config.slotCount ∧ Malformed config ring idx) ∧
        ((deriveState config ring out).1 = false → (deriveState config ring out).2 = out) := by
  refine ⟨fun storage state reach => ?_, fun ring => deriveState_fails config ring out⟩
  have invariant := reachable_invariant reach
  have settled := reachable_settled reach
  unfold deriveState
  rcases foldlM_deriveStep config state.ring config.slotCount with
    ⟨-, idx, below, malformed⟩ | ⟨least, ran, minima⟩
  · obtain ⟨slot, derived, -⟩ := deriveSlot_window invariant settled below
    rw [deriveSlot_eq_none.mpr malformed] at derived
    cases derived
  · rw [ran]
    exact ⟨least, rfl, reconstructs_of_minima invariant settled minima⟩

/-- Two producers have claimed, and only the second has committed. -/
def secondFirst : List (Label twoSlots) :=
  [.startPush 0 (.oneByte 7), .startPush 1 (.oneByte 9)] ++
    List.replicate 3 (.advance 0 false) ++ List.replicate 6 (.advance 1 false)

theorem deriveState_reconstructs_secondFirst : ∃ derived,
    deriveState twoSlots (secondFirst.foldl apply (start twoSlots zeroStorage)).ring ⟨5, 5⟩ =
      (true, derived) ∧
      Reconstructs (secondFirst.foldl apply (start twoSlots zeroStorage)) derived :=
  (deriveState_reconstructs twoSlots ⟨5, 5⟩).1 zeroStorage _
    (reachable_of_allows _ _ (by decide +kernel))

example : deriveState twoSlots (secondFirst.foldl apply (start twoSlots zeroStorage)).ring ⟨5, 5⟩ =
    (true, ⟨0, 0⟩) := by decide +kernel

end RingMachine

end SafetyCrit.SharedMemory
