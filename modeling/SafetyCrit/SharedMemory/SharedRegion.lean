import SafetyCrit.SharedMemory.RingBuffer

/-!
Owns the data model of `shared_region.hpp` and the code of
`shared_region.cpp`: region initialization and verification, the ownership
cells, the integrity word and the region-level push.

As in `RingBuffer`, each operation that other processes can interleave with
is given by its atomic actions (`transferStep`, `readStep`, `refreshStep`,
`pushStep`); the whole calls on a region nobody else touches
(`transferOwnership`, `readOwnership`, `refreshRegionIntegrity`) are separate
definitions.
-/

namespace SafetyCrit.SharedMemory

/-! ### Layout -/

/-- `kMaxWorkers`. -/
def kMaxWorkers : Nat := 3

/-- `kRegionMagic`. -/
def kRegionMagic : BitVec 32 := 0x53484D41#32

/-- `kRegionVersion`. -/
def kRegionVersion : BitVec 32 := 4#32

/-- `kDefaultSlotCount`. -/
def kDefaultSlotCount : Nat := 1024

/-- `kDefaultSlotBytes`. -/
def kDefaultSlotBytes : Nat := 52

/-- The ring type of the region. -/
def kRing : RingConfig where
  slotCount := kDefaultSlotCount
  slotBytes := kDefaultSlotBytes
  powerOfTwo := ⟨10, rfl⟩
  atLeastTwo := by decide
  fitsWord := by decide
  bytesPositive := by decide

/-- The low bytes of a word, least significant first. -/
def littleEndian (count value : Nat) : List Byte :=
  (List.range count).map fun i => UInt8.ofNat (value >>> (8 * i))

/-- `RingBufferHeader`; the padding is part of the hashed block. -/
structure RingBufferHeader where
  slotCount : Nat
  slotBytes : Nat
  reserved0 : Nat
  reserved1 : Nat
  padding : List Byte

/-- The header's bytes in memory. -/
def RingBufferHeader.bytes (header : RingBufferHeader) : List Byte :=
  littleEndian 8 header.slotCount ++ littleEndian 4 header.slotBytes ++
    littleEndian 4 header.reserved0 ++ littleEndian 8 header.reserved1 ++ header.padding

/-- `RingOwnershipCell`, without its reserved word and padding. -/
structure RingOwnershipCell where
  epoch : Nat
  ownerWord : BitVec 64
  logicalRing : Nat

/-- `OwnershipToken`. -/
structure OwnershipToken where
  logicalRing : Nat
  physicalOwner : BitVec 32
  processGeneration : BitVec 32
  epoch : Nat
deriving DecidableEq, Repr

/-- `SharedRegion::Identity`. -/
structure Identity where
  magic : BitVec 32
  version : BitVec 32

/-- `SharedRegion`. Only the array elements below `kMaxWorkers` are
meaningful. -/
structure SharedRegion where
  identity : Identity
  ringBuffers : Nat → RingBufferHeader
  ringOwnership : Nat → RingOwnershipCell
  workerStatus : Nat → Nat
  rings : Nat → RingBuffer
  globalSeq : Nat
  integrityWord : BitVec 32

namespace SharedRegion

/-- Replace one ring. -/
def setRing (region : SharedRegion) (index : Nat) (ring : RingBuffer) : SharedRegion :=
  { region with rings := Function.update region.rings index ring }

/-- Replace one ownership cell. -/
def setOwnership (region : SharedRegion) (index : Nat) (cell : RingOwnershipCell) :
    SharedRegion :=
  { region with ringOwnership := Function.update region.ringOwnership index cell }

section Update

variable (region : SharedRegion) (index : Nat) (ring : RingBuffer) (cell : RingOwnershipCell)

@[simp] theorem setRing_rings :
    (region.setRing index ring).rings = Function.update region.rings index ring := rfl

@[simp] theorem setRing_ringBuffers :
    (region.setRing index ring).ringBuffers = region.ringBuffers := rfl

@[simp] theorem setRing_ringOwnership :
    (region.setRing index ring).ringOwnership = region.ringOwnership := rfl

@[simp] theorem setRing_globalSeq : (region.setRing index ring).globalSeq = region.globalSeq := rfl

@[simp] theorem setRing_integrityWord :
    (region.setRing index ring).integrityWord = region.integrityWord := rfl

@[simp] theorem setRing_identity : (region.setRing index ring).identity = region.identity := rfl

@[simp] theorem setOwnership_ringOwnership :
    (region.setOwnership index cell).ringOwnership =
      Function.update region.ringOwnership index cell := rfl

@[simp] theorem setOwnership_rings : (region.setOwnership index cell).rings = region.rings := rfl

@[simp] theorem setOwnership_ringBuffers :
    (region.setOwnership index cell).ringBuffers = region.ringBuffers := rfl

@[simp] theorem setOwnership_globalSeq :
    (region.setOwnership index cell).globalSeq = region.globalSeq := rfl

@[simp] theorem setOwnership_integrityWord :
    (region.setOwnership index cell).integrityWord = region.integrityWord := rfl

@[simp] theorem setOwnership_identity :
    (region.setOwnership index cell).identity = region.identity := rfl

end Update

end SharedRegion

/-- Zero-filled storage, as `ftruncate` extends an object. -/
def zeroed : SharedRegion where
  identity := ⟨0#32, 0#32⟩
  ringBuffers := fun _ => ⟨0, 0, 0, 0, List.replicate 40 0⟩
  ringOwnership := fun _ => ⟨0, 0#64, 0⟩
  workerStatus := fun _ => 0
  rings := fun _ => ⟨0, 0, 0, fun _ => ⟨0, List.replicate 52 0, 0#32⟩⟩
  globalSeq := 0
  integrityWord := 0#32

/-! ### Owner words -/

/-- `pack_owner`. -/
def packOwner (physicalOwner generation : BitVec 32) : BitVec 64 :=
  physicalOwner.setWidth 64 ||| (generation.setWidth 64 <<< 32)

/-- `unpack_owner`. -/
def unpackOwner (word : BitVec 64) : BitVec 32 := (word &&& 0xFFFFFFFF#64).setWidth 32

/-- `unpack_generation`. -/
def unpackGeneration (word : BitVec 64) : BitVec 32 := (word >>> 32).setWidth 32

theorem low_word_bit (index : Nat) : (0xFFFFFFFF#64).getLsbD index = decide (index < 32) := by
  have mask : 0xFFFFFFFF#64 = BitVec.setWidth 64 (BitVec.allOnes 32) := by decide
  rw [mask, BitVec.getLsbD_setWidth, BitVec.getLsbD_allOnes]
  by_cases low : index < 32
  · simp [low]
    omega
  · simp [low]

@[simp] theorem unpackOwner_packOwner (owner generation : BitVec 32) :
    unpackOwner (packOwner owner generation) = owner := by
  apply BitVec.eq_of_getLsbD_eq
  intro index below
  simp only [unpackOwner, packOwner, BitVec.getLsbD_setWidth, BitVec.getLsbD_and,
    BitVec.getLsbD_or, BitVec.getLsbD_shiftLeft, low_word_bit]
  simp [below, show index < 64 by omega]

@[simp] theorem unpackGeneration_packOwner (owner generation : BitVec 32) :
    unpackGeneration (packOwner owner generation) = generation := by
  apply BitVec.eq_of_getLsbD_eq
  intro index below
  simp only [unpackGeneration, packOwner, BitVec.getLsbD_setWidth, BitVec.getLsbD_ushiftRight,
    BitVec.getLsbD_or, BitVec.getLsbD_shiftLeft]
  simp [below, show index < 64 by omega, show 32 + index < 64 by omega]

/-- A word names one owner and one generation. -/
theorem packOwner_injective {owner owner' generation generation' : BitVec 32}
    (same : packOwner owner generation = packOwner owner' generation') :
    owner = owner' ∧ generation = generation' := by
  constructor
  · rw [← unpackOwner_packOwner owner generation, same, unpackOwner_packOwner]
  · rw [← unpackGeneration_packOwner owner generation, same, unpackGeneration_packOwner]

/-- The owner word of a token. -/
def OwnershipToken.word (token : OwnershipToken) : BitVec 64 :=
  packOwner token.physicalOwner token.processGeneration

/-! ### The integrity word -/

/-- The raw header block. -/
def headerBytes (ringBuffers : Nat → RingBufferHeader) : List Byte :=
  (List.range kMaxWorkers).flatMap fun index => (ringBuffers index).bytes

/-- `region_integrity_at`. -/
def regionIntegrityAt (region : SharedRegion) (globalSeq : Nat) : BitVec 32 :=
  let state := crc32cUpdate kInitialState (headerBytes region.ringBuffers)
  crc32cFinalize (crc32cUpdate state (littleEndian 8 globalSeq))

theorem littleEndian_length (count value : Nat) : (littleEndian count value).length = count := by
  simp [littleEndian]

/-- Eight bytes are the low four followed by the high four. -/
theorem littleEndian_eight (value : Nat) :
    littleEndian 8 value = littleEndian 4 value ++ littleEndian 4 (value >>> 32) := by
  have eight : List.range 8 = [0, 1, 2, 3, 4, 5, 6, 7] := rfl
  have four : List.range 4 = [0, 1, 2, 3] := rfl
  simp only [littleEndian, eight, four, List.map_cons, List.map_nil, List.cons_append,
    List.nil_append, ← Nat.shiftRight_add, Nat.reduceMul, Nat.reduceAdd]

theorem littleEndian_injective {left right : Nat} (leftSmall : left < 2 ^ 32)
    (rightSmall : right < 2 ^ 32) (same : littleEndian 4 left = littleEndian 4 right) :
    left = right := by
  have four : List.range 4 = [0, 1, 2, 3] := rfl
  simp only [littleEndian, four, List.map_cons, List.map_nil, List.cons.injEq, and_true,
    ← UInt8.toNat_inj, UInt8.toNat_ofNat', Nat.shiftRight_eq_div_pow] at same
  omega

/-- With the headers fixed, the word determines every sequence number below
`2 ^ 32`. -/
theorem regionIntegrityAt_injective (region : SharedRegion) {left right : Nat}
    (leftSmall : left < 2 ^ 32) (rightSmall : right < 2 ^ 32)
    (same : regionIntegrityAt region left = regionIntegrityAt region right) : left = right := by
  have fed := crc32cFinalize_injective same
  have leftHigh : left >>> 32 = 0 := by rw [Nat.shiftRight_eq_div_pow]; omega
  have rightHigh : right >>> 32 = 0 := by rw [Nat.shiftRight_eq_div_pow]; omega
  rw [littleEndian_eight, littleEndian_eight, leftHigh, rightHigh] at fed
  have lows := crc32cUpdate_injective (by simp [littleEndian_length])
    (by simp [littleEndian_length]) fed
  exact littleEndian_injective leftSmall rightSmall lows

/-- `compute_region_integrity`. -/
def computeRegionIntegrity (region : SharedRegion) : BitVec 32 :=
  regionIntegrityAt region region.globalSeq

/-- Where a `refresh_region_integrity` call stands. -/
inductive RefreshPc where
  | loadWord
  | loadSeq (expected : BitVec 32)
  | casWord (expected want : BitVec 32)
  | returned
deriving DecidableEq, Repr

/-- One atomic action of `refresh_region_integrity`. -/
def refreshStep (weak : Bool) (region : SharedRegion) : RefreshPc → SharedRegion × RefreshPc
  | .loadWord => (region, .loadSeq region.integrityWord)
  | .loadSeq expected =>
      let want := regionIntegrityAt region region.globalSeq
      if expected = want then (region, .returned) else (region, .casWord expected want)
  | .casWord expected want =>
      if region.integrityWord = expected ∧ weak = false then
        ({ region with integrityWord := want }, .returned)
      else (region, .loadWord)
  | .returned => (region, .returned)

/-- A whole `refresh_region_integrity` call. -/
def refreshRegionIntegrity (region : SharedRegion) : SharedRegion :=
  { region with integrityWord := computeRegionIntegrity region }

/-! ### Initialization -/

/-- Lift a store to one header. -/
def onHeader (index : Nat) (store : RingBufferHeader → RingBufferHeader) (region : SharedRegion) :
    SharedRegion :=
  { region with
    ringBuffers := Function.update region.ringBuffers index (store (region.ringBuffers index)) }

/-- Lift a store to one ownership cell. -/
def onOwnership (index : Nat) (store : RingOwnershipCell → RingOwnershipCell)
    (region : SharedRegion) : SharedRegion :=
  region.setOwnership index (store (region.ringOwnership index))

/-- Lift a store to one ring. -/
def onRing (index : Nat) (store : RingBuffer → RingBuffer) (region : SharedRegion) :
    SharedRegion :=
  region.setRing index (store (region.rings index))

/-- The stores of one iteration of the worker loop of `initialize`. -/
def workerStores (index : Nat) : List (SharedRegion → SharedRegion) :=
  [onHeader index fun header => { header with slotCount := kDefaultSlotCount },
    onHeader index fun header => { header with slotBytes := kDefaultSlotBytes },
    onHeader index fun header => { header with reserved0 := 0 },
    onHeader index fun header => { header with reserved1 := 0 },
    onHeader index fun header => { header with padding := List.replicate 40 0 },
    onOwnership index fun cell => { cell with logicalRing := index },
    onOwnership index fun cell => { cell with ownerWord := packOwner (BitVec.ofNat 32 index) 1#32 },
    onOwnership index fun cell => { cell with epoch := 2 }] ++
  (RingBuffer.initializeStores kRing).map (onRing index)

/-- The stores of `initialize`, in program order. -/
def regionStores : List (SharedRegion → SharedRegion) :=
  [fun region => { region with identity := { region.identity with magic := kRegionMagic } },
    fun region => { region with identity := { region.identity with version := kRegionVersion } }] ++
  (List.range kMaxWorkers).flatMap workerStores ++
  (List.range kMaxWorkers).map (fun index region =>
    { region with workerStatus := Function.update region.workerStatus index 0 }) ++
  [fun region => { region with globalSeq := 0 },
    fun region => { region with integrityWord := regionIntegrityAt region 0 }]

/-- The region a successful `initialize` leaves on the given storage. -/
@[irreducible] def freshRegion (storage : SharedRegion) : SharedRegion :=
  regionStores.foldl (fun region store => store region) storage

/-- The header every initialized worker carries. -/
def defaultHeader : RingBufferHeader :=
  ⟨kDefaultSlotCount, kDefaultSlotBytes, 0, 0, List.replicate 40 0⟩

/-- The token of a ring after `initialize`. -/
def homeToken (index : Nat) : OwnershipToken := ⟨index, BitVec.ofNat 32 index, 1#32, 2⟩

/-- The ownership cell that holds a token. -/
def cellOf (token : OwnershipToken) : RingOwnershipCell :=
  ⟨token.epoch, token.word, token.logicalRing⟩

theorem onRing_foldl (index : Nat) (stores : List (RingBuffer → RingBuffer))
    (region : SharedRegion) :
    (stores.map (onRing index)).foldl (fun region store => store region) region =
      onRing index (fun ring => stores.foldl (fun ring store => store ring) ring) region := by
  induction stores generalizing region with
  | nil =>
      simp only [onRing, SharedRegion.setRing, List.map_nil, List.foldl_nil,
        Function.update_eq_self]
  | cons store rest inductionHypothesis =>
      rw [List.map_cons, List.foldl_cons, inductionHypothesis]
      simp only [onRing, SharedRegion.setRing, Function.update_self, Function.update_idem,
        List.foldl_cons]

/-- What one iteration of the worker loop leaves. -/
theorem workerStores_foldl (index : Nat) (region : SharedRegion) :
    (workerStores index).foldl (fun region store => store region) region =
      { region with
        ringBuffers := Function.update region.ringBuffers index defaultHeader
        ringOwnership := Function.update region.ringOwnership index (cellOf (homeToken index))
        rings := Function.update region.rings index
          (RingBuffer.initializeRing kRing (region.rings index)) } := by
  unfold workerStores
  rw [List.foldl_append, onRing_foldl]
  simp only [List.foldl_cons, List.foldl_nil, onHeader, onOwnership, onRing,
    SharedRegion.setOwnership, SharedRegion.setRing, Function.update_self, Function.update_idem,
    RingBuffer.initializeRing, defaultHeader, cellOf, homeToken, OwnershipToken.word]

theorem update_below {α : Type*} (values replacement : Nat → α) (count : Nat) :
    Function.update (fun index => if index < count then replacement index else values index) count
        (replacement count) =
      fun index => if index < count + 1 then replacement index else values index := by
  funext index
  rcases Nat.lt_trichotomy index count with below | equal | above
  · simp [Function.update_of_ne (show index ≠ count by omega), below,
      show index < count + 1 by omega]
  · subst equal
    simp
  · simp [Function.update_of_ne (show index ≠ count by omega), show ¬ index < count by omega,
      show ¬ index < count + 1 by omega]

/-- What the worker loop leaves. -/
theorem workerLoop_foldl (count : Nat) (region : SharedRegion) :
    ((List.range count).flatMap workerStores).foldl (fun region store => store region) region =
      { region with
        ringBuffers := fun index =>
          if index < count then defaultHeader else region.ringBuffers index
        ringOwnership := fun index =>
          if index < count then cellOf (homeToken index) else region.ringOwnership index
        rings := fun index =>
          if index < count then RingBuffer.initializeRing kRing (region.rings index)
          else region.rings index } := by
  induction count with
  | zero => rfl
  | succ count inductionHypothesis =>
      rw [List.range_succ, List.flatMap_append, List.foldl_append, inductionHypothesis,
        List.flatMap_cons, List.flatMap_nil, List.append_nil, workerStores_foldl]
      simp only [Nat.lt_irrefl, if_false, SharedRegion.mk.injEq, true_and, and_true]
      exact ⟨update_below region.ringBuffers (fun _ => defaultHeader) count,
        update_below region.ringOwnership (fun index => cellOf (homeToken index)) count,
        update_below region.rings
          (fun index => RingBuffer.initializeRing kRing (region.rings index)) count⟩

/-- What `initialize` leaves. -/
theorem freshRegion_eq (storage : SharedRegion) :
    ∃ region : SharedRegion,
      freshRegion storage = { region with integrityWord := regionIntegrityAt region 0 } ∧
      region.identity = ⟨kRegionMagic, kRegionVersion⟩ ∧
      (∀ index, index < kMaxWorkers → region.ringBuffers index = defaultHeader) ∧
      (∀ index, index < kMaxWorkers → region.ringOwnership index = cellOf (homeToken index)) ∧
      (∀ index, index < kMaxWorkers →
        region.rings index = RingBuffer.initializeRing kRing (storage.rings index)) ∧
      region.globalSeq = 0 := by
  have statusLoop : ∀ (indices : List Nat) (region : SharedRegion),
      ∃ status, (indices.map fun index (region : SharedRegion) =>
        { region with workerStatus := Function.update region.workerStatus index 0 }).foldl
          (fun region store => store region) region = { region with workerStatus := status } := by
    intro indices
    induction indices with
    | nil => exact fun region => ⟨region.workerStatus, rfl⟩
    | cons index rest inductionHypothesis =>
        intro region
        obtain ⟨status, equal⟩ := inductionHypothesis
          { region with workerStatus := Function.update region.workerStatus index 0 }
        exact ⟨status, equal⟩
  unfold freshRegion regionStores
  simp only [List.foldl_append, List.foldl_cons, List.foldl_nil, workerLoop_foldl]
  obtain ⟨status, equal⟩ := statusLoop (List.range kMaxWorkers) _
  rw [equal]
  refine ⟨⟨⟨kRegionMagic, kRegionVersion⟩, _, _, status, _, 0, storage.integrityWord⟩, rfl, rfl,
    ?_, ?_, ?_, rfl⟩
  all_goals
    intro index below
    simp only [below, if_true]

theorem freshRegion_identity (storage : SharedRegion) :
    (freshRegion storage).identity = ⟨kRegionMagic, kRegionVersion⟩ := by
  obtain ⟨region, equal, identity, -⟩ := freshRegion_eq storage
  rw [equal]
  exact identity

theorem freshRegion_ringBuffers (storage : SharedRegion) {index : Nat}
    (below : index < kMaxWorkers) : (freshRegion storage).ringBuffers index = defaultHeader := by
  obtain ⟨region, equal, -, headers, -⟩ := freshRegion_eq storage
  rw [equal]
  exact headers index below

theorem freshRegion_ringOwnership (storage : SharedRegion) {index : Nat}
    (below : index < kMaxWorkers) :
    (freshRegion storage).ringOwnership index = cellOf (homeToken index) := by
  obtain ⟨region, equal, -, -, cells, -⟩ := freshRegion_eq storage
  rw [equal]
  exact cells index below

theorem freshRegion_rings (storage : SharedRegion) {index : Nat} (below : index < kMaxWorkers) :
    (freshRegion storage).rings index =
      RingBuffer.initializeRing kRing (storage.rings index) := by
  obtain ⟨region, equal, -, -, -, rings, -⟩ := freshRegion_eq storage
  rw [equal]
  exact rings index below

theorem freshRegion_globalSeq (storage : SharedRegion) : (freshRegion storage).globalSeq = 0 := by
  obtain ⟨region, equal, -, -, -, -, zero⟩ := freshRegion_eq storage
  rw [equal]
  exact zero

theorem freshRegion_integrityWord (storage : SharedRegion) :
    (freshRegion storage).integrityWord = regionIntegrityAt (freshRegion storage) 0 := by
  obtain ⟨region, equal, -⟩ := freshRegion_eq storage
  rw [equal]
  rfl

/-- An initialized region before its integrity word is stored. -/
def unsealed : SharedRegion where
  identity := ⟨kRegionMagic, kRegionVersion⟩
  ringBuffers := fun index => if index < kMaxWorkers then defaultHeader else zeroed.ringBuffers index
  ringOwnership := fun index =>
    if index < kMaxWorkers then cellOf (homeToken index) else zeroed.ringOwnership index
  workerStatus := fun _ => 0
  rings := fun index =>
    if index < kMaxWorkers then
      { head := 0, tail := 0, corruptionCount := 0
        cells := fun slot =>
          if slot < kRing.slotCount then ⟨slot, List.replicate 52 0, 0#32⟩
          else ⟨0, List.replicate 52 0, 0#32⟩ }
    else zeroed.rings index
  globalSeq := 0
  integrityWord := 0#32

/-- What `initialize` leaves on zero-filled storage, spelled out. -/
def pristine : SharedRegion := { unsealed with integrityWord := regionIntegrityAt unsealed 0 }

theorem freshRegion_zeroed : freshRegion zeroed = pristine := by
  unfold freshRegion regionStores
  simp only [List.foldl_append, List.foldl_cons, List.foldl_nil, workerLoop_foldl,
    RingBuffer.initializeRing_eq]
  have status : ∀ (indices : List Nat) (region : SharedRegion), region.workerStatus = (fun _ => 0) →
      (indices.map fun index (region : SharedRegion) =>
        { region with workerStatus := Function.update region.workerStatus index 0 }).foldl
          (fun region store => store region) region = region := by
    intro indices
    induction indices with
    | nil => exact fun _ _ => rfl
    | cons index rest inductionHypothesis =>
        intro region zero
        have kept : Function.update region.workerStatus index 0 = region.workerStatus := by
          rw [zero]
          exact Function.update_eq_self index _
        rw [List.map_cons, List.foldl_cons]
        beta_reduce
        rw [kept]
        exact inductionHypothesis region zero
  rw [status _ _ rfl]
  rfl

/-! ### Verification -/

/-- The loop body of `verify_identity`. -/
def workerIdentity (region : SharedRegion) (index : Nat) : Bool :=
  let header := region.ringBuffers index
  let cell := region.ringOwnership index
  decide (header.slotCount = kDefaultSlotCount ∧ header.slotBytes = kDefaultSlotBytes) &&
    decide (cell.logicalRing = index ∧ cell.epoch ≠ 0 ∧ cell.epoch % 2 = 0) &&
    decide ((unpackOwner cell.ownerWord).toNat < kMaxWorkers ∧
      unpackGeneration cell.ownerWord ≠ 0#32)

/-- `verify_identity`. -/
def verifyIdentity (region : SharedRegion) : Bool :=
  decide (region.identity.magic = kRegionMagic ∧ region.identity.version = kRegionVersion) &&
    (List.range kMaxWorkers).all (workerIdentity region)

/-- `verify_worker_ring`. -/
def verifyWorkerRing (region : SharedRegion) (workerIdx : Nat) : Bool :=
  decide (workerIdx < kMaxWorkers) && verifyConsistent kRing (region.rings workerIdx)

/-! ### `read_ownership` and `ownership_valid` -/

/-- Where a `read_ownership` call stands; `returned none` is `false`. -/
inductive ReadPc where
  | loadEpoch
  | loadOwner (epoch : Nat)
  | recheck (epoch : Nat) (ownerWord : BitVec 64)
  | returned (result : Option OwnershipToken)
deriving DecidableEq, Repr

/-- The tests after the loop has read a stable pair. -/
def acceptPair (cell : RingOwnershipCell) (logicalRing epoch : Nat) (ownerWord : BitVec 64) :
    Option OwnershipToken :=
  if cell.logicalRing ≠ logicalRing ∨ epoch = 0 ∨ epoch % 2 ≠ 0 ∨
      kMaxWorkers ≤ (unpackOwner ownerWord).toNat ∨ unpackGeneration ownerWord = 0#32 then none
  else some ⟨logicalRing, unpackOwner ownerWord, unpackGeneration ownerWord, epoch⟩

/-- Where a `read_ownership` call starts. -/
def ReadPc.enter (logicalRing : Nat) : ReadPc :=
  if kMaxWorkers ≤ logicalRing then .returned none else .loadEpoch

/-- One atomic action of `read_ownership`. -/
def readStep (logicalRing : Nat) (region : SharedRegion) : ReadPc → ReadPc
  | .loadEpoch =>
      let epoch := (region.ringOwnership logicalRing).epoch
      if epoch % 2 ≠ 0 then .returned none else .loadOwner epoch
  | .loadOwner epoch => .recheck epoch (region.ringOwnership logicalRing).ownerWord
  | .recheck epoch ownerWord =>
      let cell := region.ringOwnership logicalRing
      if epoch ≠ cell.epoch then .loadEpoch
      else .returned (acceptPair cell logicalRing epoch ownerWord)
  | .returned result => .returned result

/-- A whole `read_ownership` call. -/
def readOwnership (region : SharedRegion) (logicalRing : Nat) : Option OwnershipToken :=
  let cell := region.ringOwnership logicalRing
  if kMaxWorkers ≤ logicalRing ∨ cell.epoch % 2 ≠ 0 then none
  else acceptPair cell logicalRing cell.epoch cell.ownerWord

/-- The comparison of `ownership_valid` with what `read_ownership` returned. -/
def tokenMatches (token : OwnershipToken) : Option OwnershipToken → Bool
  | none => false
  | some current => decide (current.physicalOwner = token.physicalOwner ∧
      current.processGeneration = token.processGeneration ∧ current.epoch = token.epoch)

/-- `ownership_valid`. -/
def ownershipValid (region : SharedRegion) (token : OwnershipToken) : Bool :=
  tokenMatches token (readOwnership region token.logicalRing)

/-! ### `transfer_ownership` -/

/-- The arguments of one `transfer_ownership` call. -/
structure TransferArgs where
  logicalRing : Nat
  expected : OwnershipToken
  newPhysicalOwner : BitVec 32
  newProcessGeneration : BitVec 32
deriving DecidableEq, Repr

/-- The tests before the first access. -/
def TransferArgs.Valid (args : TransferArgs) : Prop :=
  args.logicalRing < kMaxWorkers ∧ args.expected.logicalRing = args.logicalRing ∧
    args.newPhysicalOwner.toNat < kMaxWorkers ∧ args.newProcessGeneration ≠ 0#32 ∧
    args.expected.epoch % 2 = 0 ∧ args.expected.epoch ≤ 2 ^ 64 - 1 - 2

instance (args : TransferArgs) : Decidable args.Valid :=
  inferInstanceAs (Decidable (_ ∧ _))

/-- The token a successful call installs. -/
def TransferArgs.replacement (args : TransferArgs) : OwnershipToken :=
  ⟨args.logicalRing, args.newPhysicalOwner, args.newProcessGeneration,
    wrap64 (args.expected.epoch + 2)⟩

/-- Where a `transfer_ownership` call stands; `returned none` is `false`. -/
inductive TransferPc where
  | loadEpoch
  | casEpoch
  | casOwner
  | restoreEpoch
  | publishEpoch
  | loadTail
  | loadHead (tail : Nat)
  | loadSequence (tail : Nat)
  | casTail (tail : Nat)
  | refresh (pc : RefreshPc)
  | returned (result : Option OwnershipToken)
deriving DecidableEq, Repr

theorem TransferArgs.Valid.replacement_epoch {args : TransferArgs} (valid : args.Valid) :
    args.replacement.epoch = args.expected.epoch + 2 := by
  have room := valid.2.2.2.2.2
  exact wrap64_of_lt (by omega)

/-- The call has made the epoch odd and not yet even again. -/
def TransferPc.inWindow : TransferPc → Bool
  | .casOwner => true
  | .restoreEpoch => true
  | .publishEpoch => true
  | _ => false

/-- Where a `transfer_ownership` call starts. -/
def TransferPc.enter (args : TransferArgs) : TransferPc :=
  if args.Valid then .loadEpoch else .returned none

/-- After the refresh loop the call returns its token. -/
def TransferPc.ofRefresh (args : TransferArgs) : RefreshPc → TransferPc
  | .returned => .returned (some args.replacement)
  | pc => .refresh pc

/-- One atomic action of `transfer_ownership`. -/
def transferStep (args : TransferArgs) (weak : Bool) (region : SharedRegion) :
    TransferPc → SharedRegion × TransferPc
  | .loadEpoch =>
      if (region.ringOwnership args.logicalRing).epoch ≠ args.expected.epoch then
        (region, .returned none)
      else (region, .casEpoch)
  | .casEpoch =>
      let cell := region.ringOwnership args.logicalRing
      if cell.epoch = args.expected.epoch then
        (region.setOwnership args.logicalRing
          { cell with epoch := wrap64 (args.expected.epoch + 1) }, .casOwner)
      else (region, .returned none)
  | .casOwner =>
      let cell := region.ringOwnership args.logicalRing
      if cell.ownerWord = args.expected.word then
        (region.setOwnership args.logicalRing
          { cell with
            ownerWord := packOwner args.newPhysicalOwner args.newProcessGeneration },
          .publishEpoch)
      else (region, .restoreEpoch)
  | .restoreEpoch =>
      let cell := region.ringOwnership args.logicalRing
      (region.setOwnership args.logicalRing { cell with epoch := args.expected.epoch },
        .returned none)
  | .publishEpoch =>
      let cell := region.ringOwnership args.logicalRing
      (region.setOwnership args.logicalRing
        { cell with epoch := wrap64 (args.expected.epoch + 2) }, .loadTail)
  | .loadTail => (region, .loadHead (region.rings args.logicalRing).tail)
  | .loadHead tail =>
      if tail ≤ (region.rings args.logicalRing).head then (region, .refresh .loadWord)
      else (region, .loadSequence tail)
  | .loadSequence tail =>
      let prior := tail - 1
      if ((region.rings args.logicalRing).cellAt kRing prior).sequence ≠ prior then
        (region, .refresh .loadWord)
      else (region, .casTail tail)
  | .casTail tail =>
      let ring := region.rings args.logicalRing
      if ring.tail = tail ∧ weak = false then
        (region.setRing args.logicalRing { ring with tail := tail - 1 }, .refresh .loadWord)
      else (region, .loadTail)
  | .refresh pc =>
      let next := refreshStep weak region pc
      (next.1, TransferPc.ofRefresh args next.2)
  | .returned result => (region, .returned result)

/-- The rollback loop on a ring nobody else touches. -/
def rollbackTail (config : RingConfig) (ring : RingBuffer) : RingBuffer :=
  if ring.tail ≤ ring.head then ring
  else
    let prior := ring.tail - 1
    if (ring.cellAt config prior).sequence ≠ prior then ring else { ring with tail := prior }

/-- A whole `transfer_ownership` call. -/
def transferOwnership (region : SharedRegion) (args : TransferArgs) :
    SharedRegion × Option OwnershipToken :=
  let cell := region.ringOwnership args.logicalRing
  if ¬ args.Valid then (region, none)
  else if cell.epoch ≠ args.expected.epoch then (region, none)
  else if cell.ownerWord ≠ args.expected.word then (region, none)
  else
    let installed := region.setOwnership args.logicalRing
      { cell with
        ownerWord := packOwner args.newPhysicalOwner args.newProcessGeneration
        epoch := wrap64 (args.expected.epoch + 2) }
    let rolled := installed.setRing args.logicalRing
      (rollbackTail kRing (installed.rings args.logicalRing))
    (refreshRegionIntegrity rolled, some args.replacement)

/-! ### `push` and `push_with_bad_crc` -/

/-- Where a region-level push stands. -/
inductive RegionPushPc where
  | ring (pc : PushPc)
  | fetchAdd
  | refresh (pc : RefreshPc)
  | returned (result : Bool)
deriving DecidableEq, Repr

/-- Where a region-level push starts. -/
def RegionPushPc.enter (workerIdx : Nat) : RegionPushPc :=
  if kMaxWorkers ≤ workerIdx then .returned false else .ring .loadTail

/-- What follows the ring-level push. -/
def RegionPushPc.ofRing : PushPc → RegionPushPc
  | .returned true => .fetchAdd
  | .returned false => .returned false
  | pc => .ring pc

/-- What follows an action of the refresh loop. -/
def RegionPushPc.ofRefresh : RefreshPc → RegionPushPc
  | .returned => .returned true
  | pc => .refresh pc

/-- One atomic action of `push`, or of `push_with_bad_crc`, which differ in the
tag their arguments carry. -/
def pushStep (workerIdx : Nat) (args : PushArgs kRing) (weak : Bool) (region : SharedRegion) :
    RegionPushPc → SharedRegion × RegionPushPc
  | .ring pc =>
      let next := tryPushStep kRing args weak (region.rings workerIdx) pc
      (region.setRing workerIdx next.1, RegionPushPc.ofRing next.2)
  | .fetchAdd =>
      ({ region with globalSeq := wrap64 (region.globalSeq + 1) }, .refresh .loadWord)
  | .refresh pc =>
      let next := refreshStep weak region pc
      (next.1, RegionPushPc.ofRefresh next.2)
  | .returned result => (region, .returned result)

/-- A whole `push` call; `none` where the retry loop never returns. -/
def push (workerIdx : Nat) (args : PushArgs kRing) (region : SharedRegion) :
    Option (SharedRegion × Bool) :=
  if kMaxWorkers ≤ workerIdx then some (region, false)
  else
    match tryPush kRing args (region.rings workerIdx) with
    | none => none
    | some (ring, false) => some (region.setRing workerIdx ring, false)
    | some (ring, true) =>
        let counted := { region.setRing workerIdx ring with
          globalSeq := wrap64 (region.globalSeq + 1) }
        some (refreshRegionIntegrity counted, true)

end SafetyCrit.SharedMemory
