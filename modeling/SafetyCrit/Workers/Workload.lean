import SafetyCrit.Library.WordMix

/-!
Owns the model of the raw workload of `workload.hpp`: the splitmix64 stream, the
seed of a tick and the samples drawn from it, with the result that seeds do not
collide.
-/

namespace SafetyCrit.Workers

open SafetyCrit.Library.WordMix

/-! ### The stream -/

/-- The golden gamma of splitmix64. -/
def goldenGamma : BitVec 64 := 0x9E3779B97F4A7C15#64

/-- `Splitmix64`. -/
structure Splitmix64 where
  state : BitVec 64
deriving DecidableEq, Repr

/-- `Splitmix64::next`: the draw and the generator behind it. -/
def Splitmix64.next (rng : Splitmix64) : BitVec 64 × Splitmix64 :=
  let state := rng.state + goldenGamma
  let z := (state ^^^ (state >>> 30)) * 0xBF58476D1CE4E5B9#64
  let z := (z ^^^ (z >>> 27)) * 0x94D049C1C1232F3F#64
  (z ^^^ (z >>> 31), ⟨state⟩)

/-- `workload_seed`. -/
def workloadSeed (seedBase : BitVec 64) (workerIdx : BitVec 32) (tick : BitVec 64) : BitVec 64 :=
  let z := seedBase ^^^ (workerIdx.setWidth 64 * goldenGamma) ^^^ tick
  let z := z + goldenGamma
  let z := (z ^^^ (z >>> 30)) * 0xBF58476D1CE4E5B9#64
  let z := (z ^^^ (z >>> 27)) * 0x94D049C1C1232F3F#64
  z ^^^ (z >>> 31)

/-! ### Raw ticks -/

/-- `RawSample`. -/
structure RawSample where
  channel : BitVec 16
  value : BitVec 16
  signalToNoise : BitVec 8
deriving DecidableEq, Repr

/-- `RawTick`. -/
structure RawTick where
  workerIdx : BitVec 32
  tick : BitVec 64
  samples : List RawSample
deriving DecidableEq, Repr

/-- `kSamplesPerTick`. -/
def kSamplesPerTick : Nat := 16

/-- One pass of the loop of `generate_raw_tick`: four draws, the last unused. -/
def drawSample (rng : Splitmix64) : RawSample × Splitmix64 :=
  let (a, rng) := rng.next
  let (b, rng) := rng.next
  let (c, rng) := rng.next
  let (_, rng) := rng.next
  (⟨(a % 8#64).setWidth 16, (b % 65536#64).setWidth 16, (c % 256#64).setWidth 8⟩, rng)

/-- The samples of `count` passes. -/
def drawSamples : Nat → Splitmix64 → List RawSample
  | 0, _ => []
  | count + 1, rng => (drawSample rng).1 :: drawSamples count (drawSample rng).2

/-- The stream a raw tick is drawn from. -/
def tickStream (seedBase : BitVec 64) (workerIdx : BitVec 32) (tick : BitVec 64) : Splitmix64 :=
  ⟨workloadSeed seedBase workerIdx tick⟩

/-- `generate_raw_tick`. -/
def generateRawTick (seedBase : BitVec 64) (workerIdx : BitVec 32) (tick : BitVec 64) : RawTick :=
  ⟨workerIdx, tick, drawSamples kSamplesPerTick (tickStream seedBase workerIdx tick)⟩

/-! ### The rounds lose nothing -/

/-- One round of splitmix64, behind the gamma. -/
def mixRound (word : BitVec 64) : BitVec 64 :=
  xorShift 31 (xorShift 27 (xorShift 30 (word + goldenGamma) * 0xBF58476D1CE4E5B9#64) *
    0x94D049C1C1232F3F#64)

theorem mixRound_injective : Function.Injective mixRound := by
  intro left right same
  have outer := xorShift_injective (by decide) same
  have second := mul_odd_injective (by decide : Odd (0x94D049C1C1232F3F#64).toNat) outer
  have middle := xorShift_injective (by decide) second
  have first := mul_odd_injective (by decide : Odd (0xBF58476D1CE4E5B9#64).toNat) middle
  have inner := xorShift_injective (by decide) first
  exact add_injective goldenGamma inner

theorem workloadSeed_eq (seedBase : BitVec 64) (workerIdx : BitVec 32) (tick : BitVec 64) :
    workloadSeed seedBase workerIdx tick =
      mixRound (seedBase ^^^ (workerIdx.setWidth 64 * goldenGamma) ^^^ tick) := rfl

theorem Splitmix64.next_eq (rng : Splitmix64) :
    rng.next = (mixRound rng.state, ⟨rng.state + goldenGamma⟩) := rfl

theorem goldenGamma_odd : Odd goldenGamma.toNat := by decide

/-- The worker multiplier keeps 32-bit indices apart. -/
theorem workerTerm_injective :
    Function.Injective fun workerIdx : BitVec 32 => workerIdx.setWidth 64 * goldenGamma := by
  intro left right same
  have products : left.setWidth 64 * goldenGamma = right.setWidth 64 * goldenGamma := same
  have widened : left.setWidth 64 = right.setWidth 64 := mul_odd_injective goldenGamma_odd products
  exact setWidth_injective (by decide : 32 ≤ 64) widened

/-! ### Draws -/

/-- The generator behind `count` draws. -/
def Splitmix64.skip (count : Nat) (rng : Splitmix64) : Splitmix64 :=
  (fun rng => rng.next.2)^[count] rng

/-- The draw behind `index` earlier ones. -/
def Splitmix64.draw (index : Nat) (rng : Splitmix64) : BitVec 64 := (rng.skip index).next.1

theorem Splitmix64.state_injective : Function.Injective Splitmix64.state := by
  rintro ⟨left⟩ ⟨right⟩ same
  exact congrArg Splitmix64.mk same

theorem Splitmix64.next_injective :
    Function.Injective (fun rng : Splitmix64 => rng.next.1) ∧
      Function.Injective fun rng : Splitmix64 => rng.next.2 := by
  constructor
  · intro left right same
    simp only [Splitmix64.next_eq] at same
    exact Splitmix64.state_injective (mixRound_injective same)
  · intro left right same
    simp only [Splitmix64.next_eq, Splitmix64.mk.injEq] at same
    exact Splitmix64.state_injective (add_injective goldenGamma same)

/-- Streams that start apart stay apart. -/
theorem draw_injective (index : Nat) : Function.Injective (Splitmix64.draw index) := by
  intro left right same
  have skipped := Splitmix64.next_injective.1 same
  exact Splitmix64.next_injective.2.iterate index skipped

/-! ### Seeds -/

theorem workloadSeed_tick_injective (seedBase : BitVec 64) (workerIdx : BitVec 32) :
    Function.Injective (workloadSeed seedBase workerIdx) := by
  intro left right same
  rw [workloadSeed_eq, workloadSeed_eq] at same
  exact (BitVec.xor_right_inj _).mp (mixRound_injective same)

theorem workloadSeed_worker_injective (seedBase tick : BitVec 64) :
    Function.Injective fun workerIdx => workloadSeed seedBase workerIdx tick := by
  intro left right same
  dsimp only at same
  rw [workloadSeed_eq, workloadSeed_eq] at same
  have based := (BitVec.xor_left_inj tick).mp (mixRound_injective same)
  exact workerTerm_injective ((BitVec.xor_right_inj seedBase).mp based)

/-- The seeds of a worker's ticks differ, and those of the workers at a tick;
the raw ticks are then drawn from streams that differ in every draw. -/
theorem workload_seeds_never_collide (seedBase : BitVec 64) :
    (∀ workerIdx, Function.Injective (workloadSeed seedBase workerIdx)) ∧
    (∀ tick, Function.Injective fun workerIdx => workloadSeed seedBase workerIdx tick) ∧
    ∀ workerIdx tick otherIdx otherTick,
      (workerIdx = otherIdx ∧ tick ≠ otherTick ∨ tick = otherTick ∧ workerIdx ≠ otherIdx) →
      tickStream seedBase workerIdx tick ≠ tickStream seedBase otherIdx otherTick ∧
      ∀ index, (tickStream seedBase workerIdx tick).draw index ≠
        (tickStream seedBase otherIdx otherTick).draw index := by
  refine ⟨workloadSeed_tick_injective seedBase, workloadSeed_worker_injective seedBase, ?_⟩
  intro workerIdx tick otherIdx otherTick apart
  have streams : tickStream seedBase workerIdx tick ≠ tickStream seedBase otherIdx otherTick := by
    intro same
    have seeds := congrArg Splitmix64.state same
    rcases apart with ⟨rfl, ticks⟩ | ⟨rfl, workers⟩
    · exact ticks (workloadSeed_tick_injective seedBase workerIdx seeds)
    · exact workers (workloadSeed_worker_injective seedBase tick seeds)
  exact ⟨streams, fun index => (draw_injective index).ne streams⟩

end SafetyCrit.Workers
