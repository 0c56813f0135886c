import Mathlib.Data.List.TakeWhile
import SafetyCrit.Workers.Workload

/-!
Owns the processing pipeline of a worker: `calibrate`, `process_sensor_data` as the lazy
views run it, the manual loop beside it, and `processed_equal`.

Both loops are compared with what the pipeline is for: the calibrated values of the first
accepted samples. The crux is the position of the filter: a view stands on an accepted
sample or at the end, so its loop takes one round for each value it stores.
-/

namespace SafetyCrit.Workers

/-! ### The source -/

/-- `kMaxOutSamples`. -/
def kMaxOutSamples : Nat := 8

/-- `kSnThreshold`. -/
def kSnThreshold : BitVec 8 := 96#8

/-- `kCalibGain`, in 64 bits. -/
def kCalibGain : BitVec 64 := 131#64

/-- `ProcessedData`. -/
structure ProcessedData where
  tick : BitVec 64
  values : List (BitVec 32)
  workerIdx : BitVec 32
  count : Nat
deriving DecidableEq, Repr

/-- `ProcessedData out{}` with the names of its raw tick. -/
def ProcessedData.emptyOf (raw : RawTick) : ProcessedData :=
  ⟨raw.tick, List.replicate kMaxOutSamples 0#32, raw.workerIdx, 0⟩

/-- `out.values[index] = value; ++out.count`. -/
def ProcessedData.store (out : ProcessedData) (index : Nat) (value : BitVec 32) : ProcessedData :=
  { out with values := out.values.set index value, count := out.count + 1 }

/-- `calibrate`: the product in 64 bits, shifted and narrowed. -/
def calibrate (value : BitVec 16) : BitVec 32 :=
  ((value.signExtend 64 * kCalibGain).sshiftRight 8).setWidth 32

/-- The filter of the pipeline. -/
def accepted (sample : RawSample) : Bool := kSnThreshold ≤ sample.signalToNoise

/-- Where the filter view moves: to the next accepted sample, or to the end. -/
def nextAccepted (samples : List RawSample) : List RawSample :=
  samples.dropWhile fun sample => !accepted sample

/-- The loop over the views: `taken` more values may be taken, `position` is where the
filter stands, and `dst` is the next place of `out.values`. -/
def viewLoop : Nat → List RawSample → Nat → ProcessedData → ProcessedData
  | 0, _, _, out => out
  | _ + 1, [], _, out => out
  | taken + 1, sample :: rest, dst, out =>
      viewLoop taken (nextAccepted rest) (dst + 1) (out.store dst (calibrate sample.value))

/-- `process_sensor_data`. -/
def processSensorData (raw : RawTick) : ProcessedData :=
  viewLoop kMaxOutSamples (nextAccepted raw.samples) 0 (.emptyOf raw)

/-- The loop of `process_sensor_data_manual`. -/
def manualLoop : List RawSample → ProcessedData → ProcessedData
  | [], out => out
  | sample :: rest, out =>
      if out.count < kMaxOutSamples then
        if accepted sample then manualLoop rest (out.store out.count (calibrate sample.value))
        else manualLoop rest out
      else out

/-- `process_sensor_data_manual`. -/
def processSensorDataManual (raw : RawTick) : ProcessedData :=
  manualLoop raw.samples (.emptyOf raw)

/-- `processed_equal`. -/
def processedEqual (a b : ProcessedData) : Bool :=
  if a.workerIdx ≠ b.workerIdx ∨ a.tick ≠ b.tick ∨ a.count ≠ b.count then false
  else (List.range a.count).all fun i => a.values[i]? == b.values[i]?

/-! ### What the pipeline is for -/

/-- The values of a raw tick: its accepted samples in order, calibrated, up to the
capacity. -/
def pipelineValues (samples : List RawSample) : List (BitVec 32) :=
  ((samples.filter accepted).map fun sample => calibrate sample.value).take kMaxOutSamples

/-- The record of a raw tick with some values; the places behind them are zero. -/
def recordOf (raw : RawTick) (values : List (BitVec 32)) : ProcessedData :=
  ⟨raw.tick, values ++ List.replicate (kMaxOutSamples - values.length) 0#32, raw.workerIdx,
    values.length⟩

/-! ### Calibration -/

theorem calibrate_toInt (value : BitVec 16) :
    (calibrate value).toInt = value.toInt * 131 / 256 := by
  have low : -2 ^ 15 ≤ value.toInt := BitVec.le_toInt value
  have high : value.toInt < 2 ^ 15 := BitVec.toInt_lt
  have product : (value.signExtend 64 * kCalibGain).toInt = value.toInt * 131 := by
    rw [BitVec.toInt_mul, BitVec.toInt_signExtend_of_le (by decide)]
    have gain : kCalibGain.toInt = 131 := by decide
    rw [gain]
    exact Int.bmod_eq_of_le (by omega) (by omega)
  have shifted : ((value.signExtend 64 * kCalibGain).sshiftRight 8).toInt =
      value.toInt * 131 / 256 := by
    rw [BitVec.toInt_sshiftRight, product, Int.shiftRight_eq_div_pow]
    rfl
  rw [calibrate, ← BitVec.signExtend_eq_setWidth_of_le _ (by decide),
    BitVec.toInt_signExtend_eq_toInt_bmod_of_le _ (by decide), shifted]
  exact Int.bmod_eq_of_le (by omega) (by omega)

/-! ### The loops -/

theorem store_recordOf (raw : RawTick) {values : List (BitVec 32)}
    (room : values.length < kMaxOutSamples) (value : BitVec 32) :
    (recordOf raw values).store values.length value = recordOf raw (values ++ [value]) := by
  obtain ⟨free, places⟩ : ∃ free, kMaxOutSamples - values.length = free + 1 :=
    ⟨kMaxOutSamples - values.length - 1, by omega⟩
  have left : kMaxOutSamples - (values.length + 1) = free := by omega
  have stored : (values ++ List.replicate (free + 1) 0#32).set values.length value =
      values ++ [value] ++ List.replicate free 0#32 := by
    rw [List.set_append_right _ _ (Nat.le_refl _), Nat.sub_self, List.replicate_succ,
      List.set_cons_zero, List.append_assoc, List.singleton_append]
  simp only [recordOf, ProcessedData.store, places, stored, List.length_append,
    List.length_singleton, left]

/-- At the end of the filter view nothing more is accepted. -/
theorem filter_of_nextAccepted_nil {samples : List RawSample} (ended : nextAccepted samples = []) :
    samples.filter accepted = [] := by
  rw [nextAccepted, List.dropWhile_eq_nil_iff] at ended
  rw [List.filter_eq_nil_iff]
  intro sample member
  simpa using ended sample member

/-- The filter view stands on the first accepted sample. -/
theorem filter_of_nextAccepted_cons {samples rest : List RawSample} {sample : RawSample}
    (stands : nextAccepted samples = sample :: rest) :
    samples.filter accepted = sample :: rest.filter accepted := by
  induction samples with
  | nil => cases stands
  | cons first samples inductionHypothesis =>
      by_cases good : accepted first = true
      · obtain ⟨rfl, rfl⟩ : first = sample ∧ samples = rest := by
          simpa [nextAccepted, good] using stands
        rw [List.filter_cons_of_pos good]
      · rw [List.filter_cons_of_neg good]
        exact inductionHypothesis (by simpa [nextAccepted, good] using stands)

theorem viewLoop_recordOf (raw : RawTick) (taken : Nat) (samples : List RawSample)
    (values : List (BitVec 32)) (room : values.length + taken = kMaxOutSamples) :
    viewLoop taken (nextAccepted samples) values.length (recordOf raw values) =
      recordOf raw (values ++
        ((samples.filter accepted).map fun sample => calibrate sample.value).take taken) := by
  induction taken generalizing samples values with
  | zero => simp [viewLoop]
  | succ taken inductionHypothesis =>
      cases stands : nextAccepted samples with
      | nil => simp [viewLoop, filter_of_nextAccepted_nil stands]
      | cons sample rest =>
          have next := inductionHypothesis rest (values ++ [calibrate sample.value])
            (by rw [List.length_append, List.length_singleton]; omega)
          rw [List.length_append, List.length_singleton] at next
          rw [viewLoop, store_recordOf raw (by omega), next, filter_of_nextAccepted_cons stands,
            List.map_cons, List.take_succ_cons, List.append_assoc, List.singleton_append]

theorem manualLoop_recordOf (raw : RawTick) (samples : List RawSample)
    (values : List (BitVec 32)) (room : values.length ≤ kMaxOutSamples) :
    manualLoop samples (recordOf raw values) =
      recordOf raw (values ++ ((samples.filter accepted).map fun sample =>
        calibrate sample.value).take (kMaxOutSamples - values.length)) := by
  induction samples generalizing values with
  | nil => simp [manualLoop]
  | cons sample rest inductionHypothesis =>
      rw [manualLoop]
      by_cases short : values.length < kMaxOutSamples
      · rw [if_pos (show (recordOf raw values).count < kMaxOutSamples from short)]
        by_cases good : accepted sample = true
        · have next := inductionHypothesis (values ++ [calibrate sample.value])
            (by rw [List.length_append, List.length_singleton]; omega)
          have places : kMaxOutSamples - values.length =
              (kMaxOutSamples - (values ++ [calibrate sample.value]).length) + 1 := by
            rw [List.length_append, List.length_singleton]
            omega
          rw [if_pos good, show (recordOf raw values).count = values.length from rfl,
            store_recordOf raw short, next, List.filter_cons_of_pos good, List.map_cons, places,
            List.take_succ_cons, List.append_assoc, List.singleton_append]
        · rw [if_neg good, List.filter_cons_of_neg good, inductionHypothesis values room]
      · rw [if_neg (show ¬ (recordOf raw values).count < kMaxOutSamples from short)]
        have full : kMaxOutSamples - values.length = 0 := by omega
        rw [full, List.take_zero, List.append_nil]

theorem processSensorData_eq (raw : RawTick) :
    processSensorData raw = recordOf raw (pipelineValues raw.samples) :=
  viewLoop_recordOf raw kMaxOutSamples raw.samples [] rfl

theorem processSensorDataManual_eq (raw : RawTick) :
    processSensorDataManual raw = recordOf raw (pipelineValues raw.samples) :=
  manualLoop_recordOf raw raw.samples [] (Nat.zero_le _)

/-! ### Comparing records -/

theorem pipelineValues_length (samples : List RawSample) :
    (pipelineValues samples).length ≤ kMaxOutSamples := by
  rw [pipelineValues, List.length_take]
  exact Nat.min_le_left _ _

/-- Records are compared exactly: what is not compared is zero in both. -/
theorem processedEqual_recordOf (left right : RawTick) (first second : List (BitVec 32)) :
    processedEqual (recordOf left first) (recordOf right second) = true ↔
      recordOf left first = recordOf right second := by
  constructor
  · intro equal
    unfold processedEqual at equal
    split at equal
    · cases equal
    · next names =>
      obtain ⟨worker, tick, count⟩ : left.workerIdx = right.workerIdx ∧ left.tick = right.tick ∧
          first.length = second.length := by
        simpa [recordOf, not_or] using names
      have values : first = second := by
        refine List.ext_getElem count fun i inFirst inSecond => ?_
        have compared := List.all_eq_true.mp equal i (List.mem_range.mpr inFirst)
        simpa [recordOf, List.getElem?_append_left inFirst, List.getElem?_append_left inSecond,
          inFirst, inSecond] using compared
      simp only [recordOf, worker, tick, values]
  · rintro equal
    rw [equal]
    simp [processedEqual]

/-! ### The law of the pipeline -/

/-- The pipeline of views against the loop beside it, and against what it is for. -/
structure PipelineLaw (raw other : RawTick) : Prop where
  /-- The optimised pipeline is the manual loop. -/
  manual : processSensorData raw = processSensorDataManual raw
  /-- It keeps the names, and the calibrated values of the first accepted samples. -/
  kept : processSensorData raw = recordOf raw (pipelineValues raw.samples)
  /-- No value is stored outside the record. -/
  bounded : (processSensorData raw).count ≤ kMaxOutSamples ∧
    (processSensorData raw).values.length = kMaxOutSamples
  /-- A value is the sample's, times 131 over 256, rounded down. -/
  calibrated : ∀ value : BitVec 16, (calibrate value).toInt = value.toInt * 131 / 256
  /-- `processed_equal` tells any two different records apart. -/
  compared : processedEqual (processSensorData raw) (processSensorDataManual other) = true ↔
    processSensorData raw = processSensorData other

theorem pipeline_agrees_with_manual_loop (raw other : RawTick) : PipelineLaw raw other where
  manual := (processSensorData_eq raw).trans (processSensorDataManual_eq raw).symm
  kept := processSensorData_eq raw
  bounded := by
    have short := pipelineValues_length raw.samples
    rw [processSensorData_eq]
    refine ⟨short, ?_⟩
    rw [recordOf, List.length_append, List.length_replicate]
    omega
  calibrated := calibrate_toInt
  compared := by
    rw [processSensorData_eq, processSensorData_eq, processSensorDataManual_eq]
    exact processedEqual_recordOf raw other _ _

end SafetyCrit.Workers
