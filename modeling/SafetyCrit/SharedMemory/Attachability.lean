import SafetyCrit.SharedMemory.OwnershipHistory
import SafetyCrit.SharedMemory.RegionCalls
import SafetyCrit.SharedMemory.RegionIntegrity
import SafetyCrit.SharedMemory.ShmAttach

/-!
Owns when a region that other processes are using, or died using, can be
attached and its ownership read and transferred: exactly when no
`transfer_ownership` call, running or dead, stands between its epoch
compare-exchange and the epoch store that ends its window, and no epoch is used
up.
-/

namespace SafetyCrit.SharedMemory.RegionMachine

open SafetyCrit.Library
open SafetyCrit.Library.Run
open SafetyCrit.Library.Claims
open SafetyCrit.SharedMemory.ShmAttach (Shm createOrOpen regionBytes)

/-- The name bound to an existing object that holds the region. -/
def existing (region : SharedRegion) : Shm := ⟨some 0, fun _ => ⟨regionBytes, region⟩, 1⟩

/-- The region verifies and attaches, every ring's token can be read, and the
token read can be transferred to any worker and generation. -/
structure Serviceable (region : SharedRegion) : Prop where
  verifies : verifyIdentity region = true
  attaches : ∀ name, ShmAttach.nameIsValid name = true →
    (createOrOpen name (existing region)).2 = .ok 0
  reads : ∀ ring, ring < kMaxWorkers → ∃ token, readOwnership region ring = some token ∧
    ∀ owner generation, owner.toNat < kMaxWorkers → generation ≠ 0#32 →
      (transferOwnership region ⟨ring, token, owner, generation⟩).2.isSome = true

/-! ### What no step changes -/

theorem refreshStep_identity (weak : Bool) (region : SharedRegion) (pc : RefreshPc) :
    (refreshStep weak region pc).1.identity = region.identity := by
  cases pc <;> simp only [refreshStep] <;> (try split) <;> rfl

theorem step_identity (weak : Bool) (region : SharedRegion) (operation : Operation) :
    (operation.step weak region).1.identity = region.identity := by
  cases operation with
  | push workerIdx args pc =>
      cases pc with
      | refresh pc => exact refreshStep_identity weak region pc
      | _ => rfl
  | pop workerIdx size pc => rfl
  | transfer args pc =>
      cases pc with
      | refresh pc => exact refreshStep_identity weak region pc
      | _ => simp only [Operation.step, transferStep] <;> (try split) <;> rfl
  | read logicalRing pc => rfl
  | valid token pc => rfl

/-- The words `verify_identity` compares with constants. -/
def Stamped (region : SharedRegion) : Prop :=
  region.identity = ⟨kRegionMagic, kRegionVersion⟩ ∧
    ∀ index, index < kMaxWorkers → region.ringBuffers index = defaultHeader

theorem reachable_stamped {storage : SharedRegion} {state : State}
    (reach : Reachable (ByLabel apply) (start storage) state) : Stamped state.region := by
  refine reach.invariant (motive := fun state => Stamped state.region)
    ⟨freshRegion_identity storage, fun _ below => freshRegion_ringBuffers storage below⟩ ?_
  rintro before after - stamped ⟨label, rfl⟩
  refine apply_induction (motive := fun state => Stamped state.region) label stamped
    (fun _ _ _ => stamped) ?_ (fun _ _ _ _ => stamped)
  intro thread weak call _ _
  simp only [Stamped, State.advance, step_identity, step_ringBuffers]
  exact stamped

/-! ### A region whose tokens are published -/

theorem workerIdentity_published {region : SharedRegion} {ring : Nat} {token : OwnershipToken}
    (header : region.ringBuffers ring = defaultHeader)
    (cell : region.ringOwnership ring = cellOf token) (wellFormed : WellFormed ring token) :
    workerIdentity region ring = true := by
  obtain ⟨named, owner, generation, even, positive, -⟩ := wellFormed
  simp only [workerIdentity, header, defaultHeader, cell, cellOf, OwnershipToken.word,
    unpackOwner_packOwner, unpackGeneration_packOwner, Bool.and_eq_true, decide_eq_true_eq]
  exact ⟨⟨⟨trivial, trivial⟩, named, by omega, even⟩, owner, generation⟩

theorem createOrOpen_existing {name : List Char} (valid : ShmAttach.nameIsValid name = true)
    {region : SharedRegion} (verified : verifyIdentity region = true) :
    (createOrOpen name (existing region)).2 = .ok 0 := by
  simp [createOrOpen, valid, existing, Shm.openOrCreate, verified, regionBytes]

/-! ### Runs -/

/-- A reachable region is serviceable exactly when no transfer stands inside
its window and no epoch is used up. -/
theorem serviceable_iff_no_open_window (storage : SharedRegion) (state : State)
    (reach : Reachable (ByLabel apply) (start storage) state) :
    Serviceable state.region ↔
      (∀ thread, windowOf (state.threads thread) = none) ∧
        ∀ ring, ring < kMaxWorkers → (state.region.ringOwnership ring).epoch < 2 ^ 64 - 2 := by
  have cells := (reachable_invariant reach).cells
  have stamped := reachable_stamped reach
  have settled : ∀ ring, ring < kMaxWorkers → ¬ Claimed windowOf state.threads ring →
      state.region.ringOwnership ring = cellOf (currentToken state.log ring) ∧
        WellFormed ring (currentToken state.log ring) := by
    intro ring below unclaimed
    have wellFormed := RegionMachine.Cells.wellFormed cells ring below
    exact ⟨RegionMachine.Cells.settled cells below unclaimed, wellFormed⟩
  constructor
  · intro serviceable
    have closed : ∀ thread, windowOf (state.threads thread) = none := by
      intro thread
      cases window : windowOf (state.threads thread) with
      | none => rfl
      | some ring =>
          -- an open window makes the epoch odd, which the reader refuses
          obtain ⟨below, odd, -⟩ := RegionMachine.Cells.odd cells ⟨thread, window⟩
          have even := (RegionMachine.Cells.wellFormed cells ring below).even
          obtain ⟨token, read, -⟩ := serviceable.reads ring below
          unfold readOwnership at read
          rw [if_pos (Or.inr (by omega))] at read
          cases read
    refine ⟨closed, fun ring below => ?_⟩
    have unclaimed : ¬ Claimed windowOf state.threads ring := by
      rintro ⟨thread, window⟩
      rw [closed thread] at window
      cases window
    obtain ⟨cell, wellFormed⟩ := settled ring below unclaimed
    obtain ⟨token, read, transfers⟩ := serviceable.reads ring below
    rw [readOwnership_published below cell wellFormed] at read
    cases read
    have moved := transfers 2#32 1#32 (by decide) (by decide)
    have valid := (transferOwnership_published cell).mp moved
    have room := valid.2.2.2.2.2
    rw [cell]
    change (currentToken state.log ring).epoch < _
    simp only at room
    omega
  · rintro ⟨closed, room⟩
    have unclaimed : ∀ ring, ¬ Claimed windowOf state.threads ring := by
      rintro ring ⟨thread, window⟩
      rw [closed thread] at window
      cases window
    have verified : verifyIdentity state.region = true := by
      simp only [verifyIdentity, stamped.1, Bool.and_eq_true, decide_eq_true_eq, List.all_eq_true,
        List.mem_range]
      refine ⟨⟨trivial, trivial⟩, fun ring below => ?_⟩
      obtain ⟨cell, wellFormed⟩ := settled ring below (unclaimed ring)
      exact workerIdentity_published (stamped.2 ring below) cell wellFormed
    refine ⟨verified, fun name valid => createOrOpen_existing valid verified, ?_⟩
    intro ring below
    obtain ⟨cell, wellFormed⟩ := settled ring below (unclaimed ring)
    refine ⟨_, readOwnership_published below cell wellFormed, ?_⟩
    intro owner generation small positive
    refine (transferOwnership_published cell).mpr ?_
    have bound := room ring below
    rw [cell] at bound
    change (currentToken state.log ring).epoch < _ at bound
    exact ⟨below, wellFormed.ring, small, positive, wellFormed.even, by simp only; omega⟩

/-- A transfer of ring 0 to worker 2 that got as far as its rollback loop. -/
def publishedTransfer : List Label :=
  .start 0 (.transfer ⟨0, homeToken 0, 2#32, 1#32⟩) :: List.replicate 4 (.advance 0 false)

theorem serviceable_publishedTransfer :
    let state := publishedTransfer.foldl apply (start zeroed)
    (state.region.ringOwnership 0).epoch = 4 ∧ Serviceable state.region := by
  intro state
  have facts : (state.region.ringOwnership 0).epoch = 4 ∧
      windowOf (state.threads 0) = none ∧
      ∀ ring < kMaxWorkers, (state.region.ringOwnership ring).epoch < 2 ^ 64 - 2 := by
    simp only [state, start_zeroed]
    decide +kernel
  refine ⟨facts.1, (serviceable_iff_no_open_window zeroed state (reachable_foldl _ _)).mpr
    ⟨fun thread => ?_, facts.2.2⟩⟩
  by_cases same : thread = 0
  · subst same
    exact facts.2.1
  · have untouched : ∀ label ∈ publishedTransfer, label.thread ≠ thread := by
      simp [publishedTransfer, Label.thread, Ne.symm same]
    rw [foldl_apply_threads publishedTransfer (start zeroed) untouched]
    rfl

/-- The same transfer, whose process dies right after its epoch
compare-exchange. -/
def diedInWindow : List Label :=
  .start 0 (.transfer ⟨0, homeToken 0, 2#32, 1#32⟩) :: List.replicate 2 (.advance 0 false)

/-- The region it leaves behind is refused, and its ring can no longer be
read. -/
theorem unserviceable_diedInWindow :
    let state := diedInWindow.foldl apply (start zeroed)
    Reachable (ByLabel apply) (start zeroed) state ∧ verifyIdentity state.region = false ∧
      (createOrOpen ['/', 'r'] (existing state.region)).2 = .error .staleIdentity ∧
      readOwnership state.region 0 = none ∧ ¬ Serviceable state.region := by
  intro state
  have refused : verifyIdentity state.region = false ∧ readOwnership state.region 0 = none := by
    simp only [state, start_zeroed]
    decide +kernel
  refine ⟨reachable_foldl _ _, refused.1, ?_, refused.2, fun serviceable => ?_⟩
  · simp [createOrOpen, ShmAttach.nameIsValid, existing, Shm.openOrCreate, refused.1, regionBytes]
  · rw [serviceable.verifies] at refused
    cases refused.1

end SafetyCrit.SharedMemory.RegionMachine
