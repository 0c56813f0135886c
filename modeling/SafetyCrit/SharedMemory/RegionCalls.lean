import SafetyCrit.SharedMemory.Ownership
import SafetyCrit.SharedMemory.RingCalls

/-!
Owns what whole region-level calls do when nobody else acts on the region, and
that a whole `transfer_ownership` is the run of its own atomic actions.

`pushRun` performs a given number of actions of `push` and stops there; with
fewer actions than the call needs, it is a producer that died inside the call.
-/

namespace SafetyCrit.SharedMemory

open SafetyCrit.Library
open SafetyCrit.Library.Claims
open SafetyCrit.Library.Run
open SafetyCrit.SharedMemory.RegionMachine (WellFormed acceptPair_wellFormed pushStep_ringOwnership)

/-! ### Reading and transferring a published token -/

theorem readOwnership_published {region : SharedRegion} {ring : Nat} {token : OwnershipToken}
    (below : ring < kMaxWorkers) (cell : region.ringOwnership ring = cellOf token)
    (wellFormed : WellFormed ring token) : readOwnership region ring = some token := by
  have even := wellFormed.even
  have accepted : acceptPair (cellOf token) ring token.epoch token.word = some token :=
    acceptPair_wellFormed wellFormed wellFormed.ring
  unfold readOwnership
  simp only [cell]
  rw [if_neg]
  · exact accepted
  · rintro (above | odd)
    · omega
    · exact odd even

theorem transferOwnership_published {region : SharedRegion} {args : TransferArgs}
    (cell : region.ringOwnership args.logicalRing = cellOf args.expected) :
    (transferOwnership region args).2.isSome = true ↔ args.Valid := by
  unfold transferOwnership
  simp only [cell, cellOf]
  by_cases valid : args.Valid
  · simp [valid]
  · simp [valid]

/-- A transfer does nothing, or it installs its token and rolls the tail
back. -/
theorem transferOwnership_cases (region : SharedRegion) (args : TransferArgs) :
    transferOwnership region args = (region, none) ∨
      args.Valid ∧ (region.ringOwnership args.logicalRing).epoch = args.expected.epoch ∧
        (region.ringOwnership args.logicalRing).ownerWord = args.expected.word ∧
        (transferOwnership region args).2 = some args.replacement ∧
        (transferOwnership region args).1.ringOwnership =
          Function.update region.ringOwnership args.logicalRing
            { region.ringOwnership args.logicalRing with
              ownerWord := args.replacement.word, epoch := args.replacement.epoch } ∧
        (transferOwnership region args).1.rings =
          Function.update region.rings args.logicalRing
            (rollbackTail kRing (region.rings args.logicalRing)) := by
  unfold transferOwnership
  simp only
  split
  · exact Or.inl rfl
  · next valid =>
    split
    · exact Or.inl rfl
    · next epoch =>
      split
      · exact Or.inl rfl
      · next word =>
        refine Or.inr ⟨not_not.mp valid, not_not.mp epoch, not_not.mp word, rfl, rfl, rfl⟩

/-- A valid transfer of the published token. -/
theorem transferOwnership_succeeds {region : SharedRegion} {args : TransferArgs}
    (cell : region.ringOwnership args.logicalRing = cellOf args.expected) (valid : args.Valid) :
    (transferOwnership region args).2 = some args.replacement ∧
      (transferOwnership region args).1.ringOwnership =
        Function.update region.ringOwnership args.logicalRing (cellOf args.replacement) ∧
      (transferOwnership region args).1.rings =
        Function.update region.rings args.logicalRing
          (rollbackTail kRing (region.rings args.logicalRing)) := by
  have moves := (transferOwnership_published cell).mpr valid
  rcases transferOwnership_cases region args with
    refused | ⟨-, -, -, installed, ownership, rings⟩
  · rw [refused] at moves
    cases moves
  · refine ⟨installed, ownership.trans ?_, rings⟩
    rw [cell]
    simp only [cellOf, valid.2.1]
    rfl

/-- No transfer consumes anything. -/
theorem transferOwnership_head (region : SharedRegion) (args : TransferArgs) (index : Nat) :
    ((transferOwnership region args).1.rings index).head = (region.rings index).head := by
  rcases transferOwnership_cases region args with refused | ⟨-, -, -, -, -, rings⟩
  · rw [refused]
  · rw [rings]
    by_cases same : index = args.logicalRing
    · subst same
      rw [Function.update_self, rollbackTail_head]
    · rw [Function.update_of_ne same]

/-! ### A transfer runs its actions -/

/-- One atomic action of a `transfer_ownership` call nobody interferes with. -/
def TransferAction (args : TransferArgs) :
    SharedRegion × TransferPc → SharedRegion × TransferPc → Prop :=
  ByLabel fun state weak => transferStep args weak state.1 state.2

section TransferRun

variable {args : TransferArgs} {region : SharedRegion} {pc : TransferPc}
  {next last : SharedRegion × TransferPc}

theorem TransferAction.then (rest : Reachable (TransferAction args) next last)
    (moved : transferStep args false region pc = next) :
    Reachable (TransferAction args) (region, pc) last :=
  Relation.ReflTransGen.head ⟨false, moved.symm⟩ rest

/-- An action of the refresh loop. -/
theorem TransferAction.refresh {after : SharedRegion} {refreshed : RefreshPc}
    {standing : RefreshPc} (rest : Reachable (TransferAction args)
      (after, TransferPc.ofRefresh args refreshed) last)
    (moved : refreshStep false region standing = (after, refreshed)) :
    Reachable (TransferAction args) (region, .refresh standing) last := by
  refine TransferAction.then rest ?_
  simp only [transferStep, moved]

/-- The refresh loop of the call. -/
theorem transfer_refreshes (args : TransferArgs) (region : SharedRegion) :
    Reachable (TransferAction args) (region, .refresh .loadWord)
      (refreshRegionIntegrity region, .returned (some args.replacement)) := by
  by_cases same : region.integrityWord = computeRegionIntegrity region
  · have kept : refreshRegionIntegrity region = region := by
      rw [refreshRegionIntegrity, ← same]
    have settled : refreshStep false region (.loadSeq region.integrityWord) =
        (region, .returned) := if_pos same
    rw [kept]
    exact TransferAction.refresh (TransferAction.refresh Reachable.refl settled) rfl
  · have stale : refreshStep false region (.loadSeq region.integrityWord) =
        (region, .casWord region.integrityWord (computeRegionIntegrity region)) := if_neg same
    have stored : refreshStep false region
        (.casWord region.integrityWord (computeRegionIntegrity region)) =
          (refreshRegionIntegrity region, .returned) := if_pos ⟨rfl, rfl⟩
    exact TransferAction.refresh
      (TransferAction.refresh (TransferAction.refresh Reachable.refl stored) stale) rfl

/-- The rollback loop of the call. -/
theorem transfer_rollback (args : TransferArgs) (region : SharedRegion) :
    Reachable (TransferAction args) (region, .loadTail)
      (region.setRing args.logicalRing (rollbackTail kRing (region.rings args.logicalRing)),
        .refresh .loadWord) := by
  have unchanged : region.setRing args.logicalRing (region.rings args.logicalRing) = region := by
    simp only [SharedRegion.setRing, Function.update_eq_self]
  refine TransferAction.then ?_ rfl
  by_cases empty : (region.rings args.logicalRing).tail ≤ (region.rings args.logicalRing).head
  · rw [rollbackTail, if_pos empty, unchanged]
    exact TransferAction.then Reachable.refl (if_pos empty)
  · refine TransferAction.then ?_ (if_neg empty)
    rw [rollbackTail, if_neg empty]
    simp only
    split
    · next committed =>
      rw [unchanged]
      exact TransferAction.then Reachable.refl (if_pos committed)
    · next ready =>
      refine TransferAction.then (TransferAction.then Reachable.refl ?_) (if_neg ready)
      exact if_pos ⟨rfl, rfl⟩

/-- A whole `transfer_ownership` call is the run of its own actions. -/
theorem transferOwnership_runs (region : SharedRegion) (args : TransferArgs) :
    Reachable (TransferAction args) (region, TransferPc.enter args)
      ((transferOwnership region args).1, .returned (transferOwnership region args).2) := by
  by_cases valid : args.Valid
  · rw [TransferPc.enter, if_pos valid]
    by_cases epoch : (region.ringOwnership args.logicalRing).epoch = args.expected.epoch
    · have loaded : transferStep args false region .loadEpoch = (region, .casEpoch) :=
        if_neg (not_not.mpr epoch)
      have opened : transferStep args false region .casEpoch =
          (region.setOwnership args.logicalRing { region.ringOwnership args.logicalRing with
            epoch := wrap64 (args.expected.epoch + 1) }, .casOwner) := if_pos epoch
      have ownerKept : ((region.setOwnership args.logicalRing
          { region.ringOwnership args.logicalRing with
            epoch := wrap64 (args.expected.epoch + 1) }).ringOwnership args.logicalRing).ownerWord =
              (region.ringOwnership args.logicalRing).ownerWord := by
        rw [SharedRegion.setOwnership_ringOwnership, Function.update_self]
      refine TransferAction.then (TransferAction.then ?_ opened) loaded
      by_cases word : (region.ringOwnership args.logicalRing).ownerWord = args.expected.word
      · have installed : transferOwnership region args = _ :=
          (if_neg (not_not.mpr valid)).trans
            ((if_neg (not_not.mpr epoch)).trans (if_neg (not_not.mpr word)))
        rw [installed]
        have swapped : transferStep args false (region.setOwnership args.logicalRing
            { region.ringOwnership args.logicalRing with
              epoch := wrap64 (args.expected.epoch + 1) }) .casOwner =
            (region.setOwnership args.logicalRing { region.ringOwnership args.logicalRing with
              epoch := wrap64 (args.expected.epoch + 1)
              ownerWord := packOwner args.newPhysicalOwner args.newProcessGeneration },
              .publishEpoch) := by
          refine (if_pos (ownerKept.trans word)).trans ?_
          simp only [SharedRegion.setOwnership, Function.update_self, Function.update_idem]
        have published : transferStep args false (region.setOwnership args.logicalRing
            { region.ringOwnership args.logicalRing with
              epoch := wrap64 (args.expected.epoch + 1)
              ownerWord := packOwner args.newPhysicalOwner args.newProcessGeneration })
                .publishEpoch =
            (region.setOwnership args.logicalRing { region.ringOwnership args.logicalRing with
              ownerWord := packOwner args.newPhysicalOwner args.newProcessGeneration
              epoch := wrap64 (args.expected.epoch + 2) }, .loadTail) := by
          simp only [transferStep, SharedRegion.setOwnership, Function.update_self,
            Function.update_idem]
        refine TransferAction.then (TransferAction.then ?_ published) swapped
        exact (transfer_rollback args _).trans (transfer_refreshes args _)
      · have refused : transferOwnership region args = (region, none) :=
          (if_neg (not_not.mpr valid)).trans ((if_neg (not_not.mpr epoch)).trans (if_pos word))
        rw [refused]
        refine TransferAction.then (TransferAction.then Reachable.refl ?_)
          (if_neg fun same => word (ownerKept.symm.trans same))
        -- the epoch goes back to the value the call found
        simp only [transferStep, SharedRegion.setOwnership, Function.update_self,
          Function.update_idem, ← epoch, Function.update_eq_self]
    · have refused : transferOwnership region args = (region, none) :=
        (if_neg (not_not.mpr valid)).trans (if_pos epoch)
      rw [refused]
      exact TransferAction.then Reachable.refl (if_pos epoch)
  · have refused : transferOwnership region args = (region, none) := if_pos valid
    rw [TransferPc.enter, if_neg valid, refused]
    exact Reachable.refl

end TransferRun

/-! ### A push that stops somewhere -/

/-- Enter `push` and perform `steps` of its atomic actions. -/
def pushRun (workerIdx : Nat) (args : PushArgs kRing) (steps : Nat) (region : SharedRegion) :
    SharedRegion × RegionPushPc :=
  (fun state => pushStep workerIdx args false state.1 state.2)^[steps]
    (region, RegionPushPc.enter workerIdx)

/-- The part of `try_push_impl` before its claim. -/
def PushPc.Unclaimed : PushPc → Prop
  | .loadTail => True
  | .loadSequence _ => True
  | .casTail _ => True
  | .reloadTail _ => True
  | _ => False

/-- What one atomic action of `try_push_impl` does to the counters. -/
theorem tryPushStep_counters {config : RingConfig} (args : PushArgs config) (weak : Bool)
    (ring : RingBuffer) (pc : PushPc) :
    (tryPushStep config args weak ring pc).1.head = ring.head ∧
      ((tryPushStep config args weak ring pc).1.tail = ring.tail ∧
          (¬ pc.Unclaimed → ¬ (tryPushStep config args weak ring pc).2.Unclaimed) ∨
        pc.Unclaimed ∧ ¬ (tryPushStep config args weak ring pc).2.Unclaimed ∧
          (tryPushStep config args weak ring pc).1.tail = wrap64 (ring.tail + 1)) := by
  cases pc with
  | casTail position =>
      simp only [tryPushStep]
      split
      · next claims => exact ⟨rfl, Or.inr ⟨trivial, id, by rw [claims.1]⟩⟩
      · exact ⟨rfl, Or.inl ⟨rfl, fun claimed => absurd trivial claimed⟩⟩
  | loadSequence position =>
      simp only [tryPushStep]
      split
      · exact ⟨rfl, Or.inl ⟨rfl, fun claimed => absurd trivial claimed⟩⟩
      · split
        · exact ⟨rfl, Or.inl ⟨rfl, fun claimed => absurd trivial claimed⟩⟩
        · exact ⟨rfl, Or.inl ⟨rfl, fun claimed => absurd trivial claimed⟩⟩
  | loadTail => exact ⟨rfl, Or.inl ⟨rfl, fun claimed => absurd trivial claimed⟩⟩
  | reloadTail position => exact ⟨rfl, Or.inl ⟨rfl, fun claimed => absurd trivial claimed⟩⟩
  | _ => exact ⟨rfl, Or.inl ⟨rfl, fun _ => id⟩⟩

/-- What a process inside a region-level push is doing on its ring. -/
def RegionPushPc.onRing (args : PushArgs kRing) : RegionPushPc → RingThread kRing
  | .ring pc => .pushing args pc
  | _ => .idle

/-- The part of `push` before the claim. -/
def RegionPushPc.Unclaimed : RegionPushPc → Prop
  | .ring pc => pc.Unclaimed
  | _ => False

theorem refreshStep_rings (weak : Bool) (region : SharedRegion) (pc : RefreshPc) :
    (refreshStep weak region pc).1.rings = region.rings := by
  cases pc <;> simp only [refreshStep] <;> (try split) <;> rfl

/-- What one atomic action of `push` does to the counters of its ring. -/
theorem pushStep_counters (workerIdx : Nat) (args : PushArgs kRing) (weak : Bool)
    (region : SharedRegion) (pc : RegionPushPc) :
    ((pushStep workerIdx args weak region pc).1.rings workerIdx).head =
        (region.rings workerIdx).head ∧
      (((pushStep workerIdx args weak region pc).1.rings workerIdx).tail =
          (region.rings workerIdx).tail ∧
          (¬ pc.Unclaimed → ¬ (pushStep workerIdx args weak region pc).2.Unclaimed) ∨
        pc.Unclaimed ∧ ¬ (pushStep workerIdx args weak region pc).2.Unclaimed ∧
          ((pushStep workerIdx args weak region pc).1.rings workerIdx).tail =
            wrap64 ((region.rings workerIdx).tail + 1)) := by
  cases pc with
  | ring pc =>
      have counters := tryPushStep_counters args weak (region.rings workerIdx) pc
      have claims : ∀ next : PushPc, ¬ next.Unclaimed → ¬ (RegionPushPc.ofRing next).Unclaimed := by
        intro next claimed
        cases next with
        | returned result => cases result <;> exact id
        | _ => exact claimed
      simp only [pushStep, SharedRegion.setRing_rings, Function.update_self]
      refine ⟨counters.1, ?_⟩
      rcases counters.2 with ⟨kept, stays⟩ | ⟨pending, claimed, raised⟩
      · exact Or.inl ⟨kept, fun past => claims _ (stays past)⟩
      · exact Or.inr ⟨pending, claims _ claimed, raised⟩
  | refresh pc =>
      have kept : (pushStep workerIdx args weak region (.refresh pc)).1.rings = region.rings :=
        refreshStep_rings weak region pc
      rw [kept]
      refine ⟨rfl, Or.inl ⟨rfl, fun _ => ?_⟩⟩
      simp only [pushStep]
      cases (refreshStep weak region pc).2 <;> exact id
  | fetchAdd => exact ⟨rfl, Or.inl ⟨rfl, fun _ => id⟩⟩
  | returned result => exact ⟨rfl, Or.inl ⟨rfl, fun _ => id⟩⟩

section PushRun

variable {ι : Type*} [DecidableEq ι] {region : SharedRegion} {workerIdx : Nat}
  {view : ι → RingThread kRing} {committed : Nat → Record → Prop}

/-- A push that has left the ring has nothing claimed there. -/
theorem Coherent.leave {ring : RingBuffer} {thread : ι} {args : PushArgs kRing} {pc : PushPc}
    (coherent : Coherent kRing ring (Function.update view thread (.pushing args pc)) committed) :
    Coherent kRing ring
      (Function.update view thread ((RegionPushPc.ofRing pc).onRing args)) committed := by
  cases pc with
  | returned result =>
      have located := Function.update_self thread (RingThread.pushing args (.returned result)) view
      have left := coherent.relocate .idle (by rw [located]; rfl) (by rw [located]; rfl) trivial
      cases result <;> exact Coherent.settle left
  | _ => exact coherent

/-- One atomic action of `push` keeps its ring coherent. -/
theorem Coherent.regionPush (coherent : Coherent kRing (region.rings workerIdx) view committed)
    (small : (region.rings workerIdx).tail < 2 ^ 63) {thread : ι} {args : PushArgs kRing}
    {pc : RegionPushPc} (weak : Bool) (located : view thread = pc.onRing args) :
    Coherent kRing ((pushStep workerIdx args weak region pc).1.rings workerIdx)
      (Function.update view thread ((pushStep workerIdx args weak region pc).2.onRing args))
      (fun position record => committed position record ∨
        (pc = .ring (.commit position) ∧
          record = args.record ((region.rings workerIdx).cellAt kRing position))) := by
  -- past the ring the call is idle there and nothing is published
  have beyond : view thread = .idle → ∀ next : RegionPushPc, next.onRing args = .idle →
      (∀ position, pc ≠ .ring (.commit position)) →
      Coherent kRing (region.rings workerIdx) (Function.update view thread (next.onRing args))
        (fun position record => committed position record ∨
          (pc = .ring (.commit position) ∧
            record = args.record ((region.rings workerIdx).cellAt kRing position))) := by
    intro idle next resting unpublished
    rw [resting, ← idle, Function.update_eq_self]
    exact coherent.congr fun position record => by simp [unpublished position]
  cases pc with
  | ring pc =>
      have moved := coherent.push small weak located
      simp only [pushStep, SharedRegion.setRing_rings, Function.update_self]
      refine Coherent.leave (moved.congr fun position record => ?_)
      simp only [RegionPushPc.ring.injEq]
  | fetchAdd => exact beyond located _ rfl fun _ => by simp
  | refresh pc =>
      have kept : (pushStep workerIdx args weak region (.refresh pc)).1.rings = region.rings :=
        refreshStep_rings weak region pc
      rw [kept]
      refine beyond located _ ?_ fun _ => by simp
      simp only [pushStep]
      cases (refreshStep weak region pc).2 <;> rfl
  | returned result => exact beyond located _ rfl fun _ => by simp

/-- A push, stopped anywhere, keeps the ring coherent; it may leave a claim. -/
theorem Coherent.pushRun (coherent : Coherent kRing (region.rings workerIdx) view committed)
    (below : workerIdx < kMaxWorkers) {thread : ι} (idle : view thread = .idle)
    (small : (region.rings workerIdx).tail + 1 < 2 ^ 63) (args : PushArgs kRing) (steps : Nat) :
    ∃ committed', Coherent kRing ((pushRun workerIdx args steps region).1.rings workerIdx)
      (Function.update view thread ((pushRun workerIdx args steps region).2.onRing args))
      committed' ∧
      (pushRun workerIdx args steps region).1.ringOwnership = region.ringOwnership ∧
      ((pushRun workerIdx args steps region).1.rings workerIdx).head =
        (region.rings workerIdx).head ∧
      (((pushRun workerIdx args steps region).1.rings workerIdx).tail =
          (region.rings workerIdx).tail ∨
        ((pushRun workerIdx args steps region).1.rings workerIdx).tail =
            (region.rings workerIdx).tail + 1 ∧
          ¬ (pushRun workerIdx args steps region).2.Unclaimed) := by
  induction steps with
  | zero =>
      refine ⟨committed, ?_, rfl, rfl, Or.inl rfl⟩
      have entered : RegionPushPc.enter workerIdx = .ring .loadTail := if_neg (by omega)
      simp only [SharedMemory.pushRun, Function.iterate_zero, id, entered]
      exact coherent.relocate _ (by rw [idle]; rfl) (by rw [idle]; rfl) trivial
  | succ steps inductionHypothesis =>
      obtain ⟨committed', before, ownership, head, tail⟩ := inductionHypothesis
      have stepped : SharedMemory.pushRun workerIdx args (steps + 1) region =
          pushStep workerIdx args false (SharedMemory.pushRun workerIdx args steps region).1
            (SharedMemory.pushRun workerIdx args steps region).2 :=
        Function.iterate_succ_apply' _ _ _
      rw [stepped]
      generalize SharedMemory.pushRun workerIdx args steps region = middle at *
      have moved := before.regionPush (by omega) false (Function.update_self thread _ view)
      refine ⟨_, Coherent.settle moved, ?_, ?_, ?_⟩
      · rw [pushStep_ringOwnership, ownership]
      · rw [(pushStep_counters ..).1, head]
      · rcases (pushStep_counters workerIdx args false middle.1 middle.2).2 with
          ⟨kept, stays⟩ | ⟨pending, claimed, raised⟩
        · rw [kept]
          exact tail.imp_right fun past => ⟨past.1, stays past.2⟩
        · rcases tail with same | ⟨-, past⟩
          · rw [raised, same, wrap64_of_lt (by omega)]
            exact Or.inr ⟨rfl, claimed⟩
          · exact absurd pending past

end PushRun

end SafetyCrit.SharedMemory
