import SafetyCrit.App.OptionFamilies
import SafetyCrit.Monitors.Health
import SafetyCrit.Workers.WorkerEntry

/-!
Owns the command lines of the `worker`, `monitor` and `supervisor` subcommands: the options of
each, what a line that is accepted starts, and the lines on stderr where it is refused.
-/

namespace SafetyCrit.App

open SafetyCrit.Library.Options
open SafetyCrit.Monitors
open SafetyCrit.SharedMemory (kMaxWorkers)
open SafetyCrit.Workers

/-! ### The worker -/

/-- `WorkerConfig` with all the fields an option sets; the interval is in milliseconds, the budget
in microseconds. -/
structure WorkerSettings extends WorkerConfig where
  ticks : Nat
  tickInterval : Int
  cpuBudget : Int
  corruptHook : Bool
  eventLogPath : List Char
deriving DecidableEq, Repr

/-- `WorkerConfig{}`. -/
def WorkerSettings.initial : WorkerSettings where
  workerIdx := 0
  logicalRing := none
  processGeneration := 1
  role := .hot
  ticks := 0
  tickInterval := 10
  cpuBudget := 1000
  corruptHook := false
  eventLogPath := []

/-- `validate_config`. -/
def WorkerSettings.validateConfig (config : WorkerSettings) : Bool :=
  if config.workerIdx ≥ kMaxWorkers then false
  else if config.logicalRing.any fun ring => ring ≥ kMaxWorkers then false
  else if config.processGeneration = 0 then false
  else if config.ticks = 0 then false
  else if config.tickInterval ≤ 0 then false
  else decide (0 < config.cpuBudget)

/-- What `run_worker` is called with. -/
structure WorkerLaunch where
  cfg : WorkerSettings
  region : List Char
  pidDir : List Char
deriving DecidableEq, Repr

structure WorkerParsing extends WorkerLaunch where
  idSeen : Bool

def kDefaultRegionName : List Char := "/safety_crit_region".toList

def kDefaultPidDir : List Char := "/tmp".toList

def WorkerParsing.initial : WorkerParsing :=
  ⟨⟨{ WorkerSettings.initial with workerIdx := 0xFFFFFFFF }, kDefaultRegionName, kDefaultPidDir⟩,
    false⟩

def WorkerParsing.set (change : WorkerSettings → WorkerSettings) (parsing : WorkerParsing) :
    WorkerParsing :=
  { parsing with cfg := change parsing.cfg }

def workerNames : List (List Char × Nat) := [(['a'], 0), (['b'], 1), (['c'], 2)]

def roleNames : List (List Char × WorkerRole) :=
  [("hot".toList, .hot), ("standby".toList, .standby)]

def worker : List Char := "worker".toList

def idOption : List Char × Meaning WorkerParsing Lines :=
  choiceOption worker "--id".toList " must be a, b, or c".toList workerNames
    fun idx parsing =>
      { parsing.set fun cfg => { cfg with workerIdx := idx } with idSeen := true }

def roleOption : List Char × Meaning WorkerParsing Lines :=
  choiceOption worker "--role".toList " must be hot or standby".toList roleNames
    fun role parsing => parsing.set fun cfg => { cfg with role := role }

def logicalIdOption : List Char × Meaning WorkerParsing Lines :=
  choiceOption worker "--logical-id".toList " must be a, b, or c".toList workerNames
    fun ring parsing => parsing.set fun cfg => { cfg with logicalRing := some ring }

def generationOption : List Char × Meaning WorkerParsing Lines :=
  numberOption worker "--generation".toList " requires a positive integer".toList
    (fun generation => decide (generation ≠ 0 ∧ generation < 2 ^ 32))
    fun generation parsing =>
      parsing.set fun cfg => { cfg with processGeneration := BitVec.ofNat 32 generation }

/-- Zero is taken here and replaced behind the options. -/
def ticksOption : List Char × Meaning WorkerParsing Lines :=
  numberOption worker "--ticks".toList " requires a positive integer".toList
    (fun _ => true) fun ticks parsing => parsing.set fun cfg => { cfg with ticks := ticks }

def tickIntervalOption : List Char × Meaning WorkerParsing Lines :=
  numberOption worker "--tick-interval-ms".toList " requires an integer (1..3600000)".toList
    (fun ms => decide (ms ≠ 0 ∧ ms ≤ 3600000))
    fun ms parsing => parsing.set fun cfg => { cfg with tickInterval := ms }

/-- The signed representation of `std::chrono::microseconds` wraps. -/
def budgetOption : List Char × Meaning WorkerParsing Lines :=
  numberOption worker "--budget-us".toList " requires a positive integer".toList
    (fun us => decide (us ≠ 0))
    fun us parsing => parsing.set fun cfg => { cfg with cpuBudget := (BitVec.ofNat 64 us).toInt }

def workerOptions : List (List Char × Meaning WorkerParsing Lines) :=
  [("--corrupt-hook".toList,
      .flag fun parsing => parsing.set fun cfg => { cfg with corruptHook := true }),
    idOption, roleOption, logicalIdOption, generationOption, ticksOption, tickIntervalOption,
    budgetOption, regionOption worker fun value parsing => { parsing with region := value },
    pidDirOption worker fun value parsing => { parsing with pidDir := value },
    eventLogOption worker fun value parsing =>
      parsing.set fun cfg => { cfg with eventLogPath := value }]

/-- `run_worker_command`, for the arguments behind the subcommand. -/
def runWorkerCommand (args : List (List Char)) : Except Lines WorkerLaunch :=
  match parse (tabled workerOptions (unknownOption worker)) args .initial with
  | .error lines => .error lines
  | .ok parsing =>
      if parsing.idSeen then
        .ok (if parsing.cfg.ticks = 0 then
          { parsing.toWorkerLaunch with cfg := { parsing.cfg with ticks := 1000 } }
        else parsing.toWorkerLaunch)
      else .error ["worker: --id is required".toList]

/-! ### The monitor -/

/-- What `run_monitor` is called with; zero polls run until stopped. -/
structure MonitorLaunch where
  cfg : MonitorConfig
  eventLogPath : List Char
  region : List Char
  pidDir : List Char
  polls : Nat
deriving DecidableEq, Repr

def MonitorLaunch.initial : MonitorLaunch := ⟨{}, [], kDefaultRegionName, kDefaultPidDir, 0⟩

def monitor : List Char := "monitor".toList

def intervalOption : List Char × Meaning MonitorLaunch Lines :=
  numberOption monitor "--interval-ms".toList " requires an integer (1..3600000)".toList
    (fun ms => decide (ms ≠ 0 ∧ ms ≤ 3600000))
    fun ms launch => { launch with cfg := { launch.cfg with pollInterval := ms * 1000000 } }

def stallThresholdOption : List Char × Meaning MonitorLaunch Lines :=
  numberOption monitor "--stall-threshold-ms".toList " requires an integer (1..3600000)".toList
    (fun ms => decide (ms ≠ 0 ∧ ms ≤ 3600000))
    fun ms launch => { launch with cfg := { launch.cfg with stallThreshold := ms * 1000000 } }

def pollsOption : List Char × Meaning MonitorLaunch Lines :=
  numberOption monitor "--polls".toList " requires a positive integer".toList
    (fun polls => decide (polls ≠ 0)) fun polls launch => { launch with polls := polls }

def monitorOptions : List (List Char × Meaning MonitorLaunch Lines) :=
  [intervalOption, stallThresholdOption, pollsOption,
    regionOption monitor fun value launch => { launch with region := value },
    pidDirOption monitor fun value launch => { launch with pidDir := value },
    eventLogOption monitor fun value launch => { launch with eventLogPath := value }]

def thresholdText : List Char := "monitor: --stall-threshold-ms must be >= --interval-ms".toList

/-- `run_monitor_command`. -/
def runMonitorCommand (args : List (List Char)) : Except Lines MonitorLaunch :=
  match parse (tabled monitorOptions (unknownOption monitor)) args .initial with
  | .error lines => .error lines
  | .ok launch => if validateConfig launch.cfg then .ok launch else .error [thresholdText]

/-! ### The supervisor -/

/-- `SupervisorConfig`. -/
structure SupervisorConfig where
  regionName : List Char
  pidDir : List Char
  workerTicks : Nat
  runtimeMs : Nat
  stallGraceMs : Nat
  handoffGraceMs : Nat
  eventLogPath : List Char
deriving DecidableEq, Repr

/-- `SupervisorConfig{}`. -/
def SupervisorConfig.initial : SupervisorConfig where
  regionName := kDefaultRegionName
  pidDir := "/run/safety-critical-ha".toList
  workerTicks := 2 ^ 64 - 1
  runtimeMs := 0
  stallGraceMs := 200
  handoffGraceMs := 750
  eventLogPath := []

def supervisor : List Char := "supervisor".toList

/-- A value is taken before the option is looked at. -/
def invalidOption (arg : List Char) : List Char :=
  "supervisor: unknown or invalid option: ".toList ++ arg

def supervisorNumber (name : List Char) (refused : Lines) (accepts : Nat → Bool)
    (set : Nat → SupervisorConfig → SupervisorConfig) :
    List Char × Meaning SupervisorConfig Lines :=
  numeric name [missingValue supervisor name] refused accepts set

/-- An option whose value is refused is not told from an argument that is no option. -/
def supervisorText (name : List Char) (accepts : List Char → Bool)
    (set : List Char → SupervisorConfig → SupervisorConfig) :
    List Char × Meaning SupervisorConfig Lines :=
  textual name [missingValue supervisor name] [invalidOption name] accepts set

/-- `--runtime-ms` and `--ticks` print nothing where they are refused. -/
def supervisorOptions : List (List Char × Meaning SupervisorConfig Lines) :=
  [supervisorNumber "--runtime-ms".toList [] (fun _ => true)
      fun ms cfg => { cfg with runtimeMs := ms },
    supervisorNumber "--stall-grace-ms".toList
      [optionText supervisor "--stall-grace-ms".toList " requires an integer (0..3600000)".toList]
      (fun ms => decide (ms ≤ 3600000)) fun ms cfg => { cfg with stallGraceMs := ms },
    supervisorNumber "--ticks".toList [] (fun ticks => decide (ticks ≠ 0))
      fun ticks cfg => { cfg with workerTicks := ticks },
    supervisorText "--region".toList isRegionName fun value cfg => { cfg with regionName := value },
    supervisorText "--pid-dir".toList isPath fun value cfg => { cfg with pidDir := value },
    supervisorText "--event-log".toList isPath fun value cfg => { cfg with eventLogPath := value }]

def unknownSupervisorOption (arg : List Char) : Meaning SupervisorConfig Lines :=
  .valued [missingValue supervisor arg] fun _ _ => .error [invalidOption arg]

/-- `run_supervisor_command`. -/
def runSupervisorCommand (args : List (List Char)) : Except Lines SupervisorConfig :=
  parse (tabled supervisorOptions unknownSupervisorOption) args .initial

/-- The workers that `run_supervisor` launches first. -/
def SupervisorConfig.launched (config : SupervisorConfig) : List WorkerSettings :=
  let hotA := { WorkerSettings.initial with
    workerIdx := 0
    logicalRing := some 0
    ticks := config.workerTicks
    eventLogPath := config.eventLogPath }
  let hotB := { hotA with
    workerIdx := 1
    logicalRing := some 1 }
  let standby := { hotA with
    workerIdx := 2
    logicalRing := none
    role := .standby }
  [hotA, hotB, standby]

/-- The replacement that `recover_worker_crash` launches for a worker, as the `count`-th. -/
def SupervisorConfig.replacement (config : SupervisorConfig) (physicalWorker count : Nat) :
    WorkerSettings :=
  { WorkerSettings.initial with
    workerIdx := physicalWorker
    logicalRing := none
    processGeneration := BitVec.ofNat 32 (1 + count)
    role := .standby
    ticks := 1000
    eventLogPath := config.eventLogPath }

end SafetyCrit.App
