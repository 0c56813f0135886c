import SafetyCrit.App.CommandLine

/-!
Owns what the command lines of the subcommands can ask for: exactly which configurations are
started, which of these their own checks pass, and what is printed where a line is refused.

A worker's budget is the one field that a command line can set to a value its process refuses,
and the stall threshold of a monitor is bounded by a grace period that has no option.
-/

namespace SafetyCrit.App

open SafetyCrit.Library.Options
open SafetyCrit.Monitors
open SafetyCrit.SharedMemory (kMaxWorkers)
open SafetyCrit.Workers

/-! ### The worker -/

/-- The launches of a worker that a command line can ask for. -/
structure WorkerLaunch.Offered (launch : WorkerLaunch) : Prop where
  worker : launch.cfg.workerIdx < kMaxWorkers
  ring : ∀ ring, launch.cfg.logicalRing = some ring → ring < kMaxWorkers
  generation : launch.cfg.processGeneration ≠ 0
  ticks : 0 < launch.cfg.ticks ∧ launch.cfg.ticks < 2 ^ 64
  tickInterval : 1 ≤ launch.cfg.tickInterval ∧ launch.cfg.tickInterval ≤ 3600000
  cpuBudget : launch.cfg.cpuBudget ≠ 0 ∧ -2 ^ 63 ≤ launch.cfg.cpuBudget ∧
    launch.cfg.cpuBudget < 2 ^ 63
  region : isRegionName launch.region = true
  pidDir : isPath launch.pidDir = true

/-- What every option of the worker keeps. -/
structure WorkerParsing.Sound (parsing : WorkerParsing) : Prop where
  worker : parsing.idSeen = true → parsing.cfg.workerIdx < kMaxWorkers
  ring : ∀ ring, parsing.cfg.logicalRing = some ring → ring < kMaxWorkers
  generation : parsing.cfg.processGeneration ≠ 0
  ticks : parsing.cfg.ticks < 2 ^ 64
  tickInterval : 1 ≤ parsing.cfg.tickInterval ∧ parsing.cfg.tickInterval ≤ 3600000
  cpuBudget : parsing.cfg.cpuBudget ≠ 0 ∧ -2 ^ 63 ≤ parsing.cfg.cpuBudget ∧
    parsing.cfg.cpuBudget < 2 ^ 63
  region : isRegionName parsing.region = true
  pidDir : isPath parsing.pidDir = true

theorem sound_initial : WorkerParsing.initial.Sound where
  worker seen := by cases seen
  ring _ assigned := by cases assigned
  generation := by decide
  ticks := by decide
  tickInterval := by decide
  cpuBudget := by decide
  region := by decide
  pidDir := by decide

theorem workerNames_small : ∀ entry ∈ workerNames, entry.2 < kMaxWorkers := by decide

/-- A positive number of 64 bits is no zero in the signed representation. -/
theorem wrapped_budget {us : Nat} (small : us < 2 ^ 64) (positive : us ≠ 0) :
    (BitVec.ofNat 64 us).toInt ≠ 0 ∧ -2 ^ 63 ≤ (BitVec.ofNat 64 us).toInt ∧
      (BitVec.ofNat 64 us).toInt < 2 ^ 63 := by
  rw [BitVec.toInt_ofNat', Int.bmod_def]
  omega

theorem keeps_workerOptions : ∀ entry ∈ workerOptions,
    entry.2.Keeps WorkerParsing.Sound := by
  simp only [workerOptions, List.forall_mem_cons]
  refine ⟨fun parsing sound => { sound with }, ?id, ?role, ?ring, ?generation, ?ticks, ?interval,
    ?budget, ?region, ?pidDir, ?eventLog, fun _ none_ => absurd none_ List.not_mem_nil⟩
  case id =>
    exact keeps_choice fun entry member parsing sound =>
      { sound with worker := fun _ => workerNames_small entry member }
  case role => exact keeps_choice fun entry _ parsing sound => { sound with }
  case ring =>
    exact keeps_choice fun entry member parsing sound =>
      { sound with ring := fun ring assigned =>
          Option.some.inj assigned ▸ workerNames_small entry member }
  case generation =>
    refine keeps_numeric fun generation _ accepted parsing sound => { sound with generation := ?_ }
    obtain ⟨positive, small⟩ := of_decide_eq_true accepted
    change BitVec.ofNat 32 generation ≠ 0
    intro zero
    have value := congrArg BitVec.toNat zero
    rw [BitVec.toNat_ofNat, Nat.mod_eq_of_lt small] at value
    exact positive value
  case ticks => exact keeps_numeric fun ticks small _ parsing sound => { sound with ticks := small }
  case interval =>
    refine keeps_numeric fun ms _ accepted parsing sound => { sound with tickInterval := ?_ }
    obtain ⟨positive, small⟩ := of_decide_eq_true accepted
    change 1 ≤ (ms : Int) ∧ (ms : Int) ≤ 3600000
    omega
  case budget =>
    exact keeps_numeric fun us small accepted parsing sound =>
      { sound with cpuBudget := wrapped_budget small (of_decide_eq_true accepted) }
  case region =>
    exact keeps_textual fun value accepted parsing sound => { sound with region := accepted }
  case pidDir =>
    exact keeps_textual fun value accepted parsing sound => { sound with pidDir := accepted }
  case eventLog => exact keeps_textual fun value _ parsing sound => { sound with }

theorem offered_of_runWorkerCommand {args : List (List Char)} {launch : WorkerLaunch}
    (accepted : runWorkerCommand args = .ok launch) : launch.Offered := by
  unfold runWorkerCommand at accepted
  split at accepted
  · cases accepted
  · next parsing read =>
    have sound : parsing.Sound :=
      parse_keeps (tabled_keeps keeps_workerOptions (keeps_unknown worker)) sound_initial read
    split at accepted
    · next seen =>
      obtain rfl := Except.ok.inj accepted
      split
      · exact { sound with
          worker := sound.worker seen
          ticks := (by decide : 0 < 1000 ∧ 1000 < 2 ^ 64) }
      · next given =>
        exact { sound with
          worker := sound.worker seen
          ticks := ⟨Nat.pos_of_ne_zero given, sound.ticks⟩ }
    · cases accepted

/-- The names of `--id` and `--logical-id`. -/
def workerName : Nat → List Char
  | 0 => ['a']
  | 1 => ['b']
  | _ => ['c']

theorem lookup_workerName {idx : Nat} (below : idx < kMaxWorkers) :
    workerNames.lookup (workerName idx) = some idx := by
  obtain rfl | rfl | rfl : idx = 0 ∨ idx = 1 ∨ idx = 2 := by
    have bound : idx < 3 := below
    omega
  all_goals rfl

theorem lookup_roleName (role : WorkerRole) : ∃ name, roleNames.lookup name = some role := by
  cases role with
  | hot => exact ⟨"hot".toList, rfl⟩
  | standby => exact ⟨"standby".toList, rfl⟩

/-- Every launch on offer is asked for by the options that name its fields. -/
theorem runWorkerCommand_of_offered {launch : WorkerLaunch} (offered : launch.Offered) :
    ∃ args, runWorkerCommand args = .ok launch := by
  obtain ⟨⟨⟨workerIdx, ring, generation, role⟩, ticks, tickInterval, cpuBudget, corruptHook,
    eventLogPath⟩, region, pidDir⟩ := launch
  obtain ⟨below, ringBelow, positive, ticked, interval, budget, named, given⟩ := offered
  dsimp only at below ringBelow positive ticked interval budget named given
  let meaning := tabled workerOptions (unknownOption worker)
  have idMeans : meaning "--id".toList = idOption.2 := rfl
  have roleMeans : meaning "--role".toList = roleOption.2 := rfl
  have ringMeans : meaning "--logical-id".toList = logicalIdOption.2 := rfl
  have generationMeans : meaning "--generation".toList = generationOption.2 := rfl
  have ticksMeans : meaning "--ticks".toList = ticksOption.2 := rfl
  have intervalMeans : meaning "--tick-interval-ms".toList = tickIntervalOption.2 := rfl
  have budgetMeans : meaning "--budget-us".toList = budgetOption.2 := rfl
  have hookMeans : meaning "--corrupt-hook".toList = .flag fun parsing =>
    parsing.set fun cfg => { cfg with corruptHook := true } := rfl
  have regionMeans : meaning "--region".toList = (regionOption worker fun value parsing =>
    { parsing with region := value }).2 := rfl
  have pidDirMeans : meaning "--pid-dir".toList = (pidDirOption worker fun value parsing =>
    { parsing with pidDir := value }).2 := rfl
  have eventLogMeans : meaning "--event-log".toList = (eventLogOption worker fun value parsing =>
    parsing.set fun cfg => { cfg with eventLogPath := value }).2 := rfl
  let base := WorkerParsing.initial
  let ringed := base.set fun cfg => { cfg with logicalRing := ring }
  let hooked := ringed.set fun cfg => { cfg with corruptHook := corruptHook }
  let logged := hooked.set fun cfg => { cfg with eventLogPath := eventLogPath }
  -- the three fields that keep their defaults unless an option is there
  have first : Turns meaning base ringed := by
    cases ring with
    | none => exact Turns.refl base
    | some ring => exact turns_choice ringMeans (lookup_workerName (ringBelow ring rfl)) base
  have second : Turns meaning ringed hooked := by
    cases corruptHook with
    | false => exact Turns.refl ringed
    | true => exact turns_flag hookMeans ringed
  have third : Turns meaning hooked logged := by
    cases eventLogPath with
    | nil => exact Turns.refl hooked
    | cons symbol path =>
        exact turns_textual eventLogMeans (decide_eq_true (List.cons_ne_nil symbol path)) hooked
  obtain ⟨name, roleNamed⟩ := lookup_roleName role
  have small : generation.toNat < 2 ^ 64 := by omega
  have counted : decide (generation.toNat ≠ 0 ∧ generation.toNat < 2 ^ 32) = true := by
    refine decide_eq_true ⟨fun zero => positive ?_, generation.isLt⟩
    exact BitVec.eq_of_toNat_eq zero
  have paced : decide (tickInterval.toNat ≠ 0 ∧ tickInterval.toNat ≤ 3600000) = true :=
    decide_eq_true (by omega)
  have bounded : (BitVec.ofInt 64 cpuBudget).toInt = cpuBudget := by
    rw [BitVec.toInt_ofInt, Int.bmod_def]
    omega
  have spent : decide ((BitVec.ofInt 64 cpuBudget).toNat ≠ 0) = true := by
    refine decide_eq_true fun zero => budget.1 ?_
    rw [← bounded, BitVec.eq_of_toNat_eq (y := 0#64) zero]
    rfl
  have turns := first.trans <| second.trans <| third.trans <|
    (turns_choice idMeans (lookup_workerName below) _).trans <|
    (turns_choice roleMeans roleNamed _).trans <|
    (turns_numeric generationMeans small counted _).trans <|
    (turns_numeric ticksMeans ticked.2 rfl _).trans <|
    (turns_numeric intervalMeans (show tickInterval.toNat < 2 ^ 64 by omega) paced _).trans <|
    (turns_numeric budgetMeans (BitVec.ofInt 64 cpuBudget).isLt spent _).trans <|
    (turns_textual regionMeans named _).trans (turns_textual pidDirMeans given _)
  obtain ⟨args, read⟩ := turns.accepted
  refine ⟨args, ?_⟩
  unfold runWorkerCommand
  rw [read]
  have generated : BitVec.ofNat 32 generation.toNat = generation := by simp
  have intervalled : ((tickInterval.toNat : Nat) : Int) = tickInterval := by omega
  have budgeted : (BitVec.ofNat 64 (BitVec.ofInt 64 cpuBudget).toNat).toInt = cpuBudget := by
    rw [BitVec.ofNat_toNat, BitVec.setWidth_eq, bounded]
  change Except.ok (if ticks = 0 then _ else _) = _
  rw [if_neg (Nat.ne_of_gt ticked.1)]
  simp only [WorkerParsing.set, generated, intervalled, budgeted]
  rfl

theorem names_workerOptions : ∀ entry ∈ workerOptions, ∀ rest lines, entry.2.Blames rest lines →
    Names entry.1 lines := by
  simp only [workerOptions, List.forall_mem_cons]
  exact ⟨fun _ _ blamed => blamed.elim, fun _ _ => names_choice, fun _ _ => names_choice,
    fun _ _ => names_choice, fun _ _ => names_number, fun _ _ => names_number,
    fun _ _ => names_number, fun _ _ => names_number, fun _ _ => names_text,
    fun _ _ => names_text, fun _ _ => names_text, fun _ none_ => absurd none_ List.not_mem_nil⟩

/-- Every refused line prints something, and each line of it names an argument. -/
def NamesArgument (args : List (List Char)) (lines : Lines) : Prop :=
  ∃ arg ∈ args, Names arg lines

theorem validateConfig_of_offered {launch : WorkerLaunch} (offered : launch.Offered) :
    launch.cfg.validateConfig = true ↔ 0 < launch.cfg.cpuBudget := by
  have worker := offered.worker
  have ring : ¬ (launch.cfg.logicalRing.any fun ring => ring ≥ kMaxWorkers) = true := by
    rw [Option.any_eq_true]
    rintro ⟨ring, assigned, above⟩
    exact absurd (offered.ring ring assigned) (Nat.not_lt.mpr (of_decide_eq_true above))
  unfold WorkerSettings.validateConfig
  rw [if_neg (Nat.not_le.mpr worker), if_neg ring, if_neg offered.generation,
    if_neg (Nat.ne_of_gt offered.ticks.1), if_neg (by have := offered.tickInterval; omega),
    decide_eq_true_eq]

/-- What the worker's command line can ask for. -/
structure WorkerCommandLaw : Prop where
  offered : ∀ launch : WorkerLaunch,
    (∃ args, runWorkerCommand args = .ok launch) ↔ launch.Offered
  /-- Only a budget that wraps to a negative one is left to `validate_config`. -/
  valid : ∀ launch : WorkerLaunch, launch.Offered →
    (launch.cfg.validateConfig = true ↔ 0 < launch.cfg.cpuBudget)
  refused : ∀ args lines, runWorkerCommand args = .error lines →
    NamesArgument args lines ∨ lines = ["worker: --id is required".toList]

theorem worker_command_line : WorkerCommandLaw where
  offered launch := ⟨fun started => offered_of_runWorkerCommand started.choose_spec,
    runWorkerCommand_of_offered⟩
  valid _ := validateConfig_of_offered
  refused args lines refused := by
    unfold runWorkerCommand at refused
    split at refused
    · next error read =>
      obtain rfl := Except.error.inj refused
      obtain ⟨front, arg, rest, rfl, named⟩ := tabled_error names_workerOptions
        (fun _ _ _ => names_unknown) read
      exact Or.inl ⟨arg, by simp, named⟩
    · split at refused
      · cases refused
      · exact Or.inr (Except.error.inj refused).symm

/-! ### The monitor -/

/-- The launches of a monitor that a command line can ask for. The grace period is the default
and bounds the threshold. -/
structure MonitorLaunch.Offered (launch : MonitorLaunch) : Prop where
  durations : ∃ interval threshold : Nat,
    launch.cfg = ⟨interval * 1000000, threshold * 1000000, 750 * 1000000⟩ ∧
      1 ≤ interval ∧ interval ≤ threshold ∧ threshold ≤ 750
  region : isRegionName launch.region = true
  pidDir : isPath launch.pidDir = true
  polls : launch.polls < 2 ^ 64

/-- A duration of whole milliseconds that an option of the monitor takes. -/
def Milliseconds (duration : Int) : Prop :=
  ∃ ms : Nat, duration = ms * 1000000 ∧ 1 ≤ ms ∧ ms ≤ 3600000

/-- What every option of the monitor keeps. -/
structure MonitorLaunch.Sound (launch : MonitorLaunch) : Prop where
  interval : Milliseconds launch.cfg.pollInterval
  threshold : Milliseconds launch.cfg.stallThreshold
  grace : launch.cfg.handoffGrace = 750 * 1000000
  region : isRegionName launch.region = true
  pidDir : isPath launch.pidDir = true
  polls : launch.polls < 2 ^ 64

theorem sound_initialMonitor : MonitorLaunch.initial.Sound where
  interval := ⟨10, rfl, by decide, by decide⟩
  threshold := ⟨100, rfl, by decide, by decide⟩
  grace := rfl
  region := by decide
  pidDir := by decide
  polls := by decide

theorem milliseconds_of_accepted {ms : Nat}
    (accepted : decide (ms ≠ 0 ∧ ms ≤ 3600000) = true) : Milliseconds (ms * 1000000) := by
  obtain ⟨positive, small⟩ := of_decide_eq_true accepted
  exact ⟨ms, rfl, Nat.pos_of_ne_zero positive, small⟩

theorem keeps_monitorOptions : ∀ entry ∈ monitorOptions,
    entry.2.Keeps MonitorLaunch.Sound := by
  simp only [monitorOptions, List.forall_mem_cons]
  refine ⟨?interval, ?threshold, ?polls, ?region, ?pidDir, ?eventLog,
    fun _ none_ => absurd none_ List.not_mem_nil⟩
  case interval =>
    exact keeps_numeric fun ms _ accepted launch sound =>
      { sound with interval := milliseconds_of_accepted accepted }
  case threshold =>
    exact keeps_numeric fun ms _ accepted launch sound =>
      { sound with threshold := milliseconds_of_accepted accepted }
  case polls => exact keeps_numeric fun polls small _ launch sound => { sound with polls := small }
  case region =>
    exact keeps_textual fun value accepted launch sound => { sound with region := accepted }
  case pidDir =>
    exact keeps_textual fun value accepted launch sound => { sound with pidDir := accepted }
  case eventLog => exact keeps_textual fun value _ launch sound => { sound with }

theorem names_monitorOptions : ∀ entry ∈ monitorOptions, ∀ rest lines,
    entry.2.Blames rest lines → Names entry.1 lines := by
  simp only [monitorOptions, List.forall_mem_cons]
  exact ⟨fun _ _ => names_number, fun _ _ => names_number, fun _ _ => names_number,
    fun _ _ => names_text, fun _ _ => names_text, fun _ _ => names_text,
    fun _ none_ => absurd none_ List.not_mem_nil⟩

theorem offered_of_runMonitorCommand {args : List (List Char)} {launch : MonitorLaunch}
    (accepted : runMonitorCommand args = .ok launch) : launch.Offered := by
  unfold runMonitorCommand at accepted
  split at accepted
  · cases accepted
  · next result read =>
    have sound : result.Sound :=
      parse_keeps (tabled_keeps keeps_monitorOptions (keeps_unknown monitor)) sound_initialMonitor
        read
    split at accepted
    · next valid =>
      obtain rfl := Except.ok.inj accepted
      obtain ⟨interval, spaced, positive, -⟩ := sound.interval
      obtain ⟨threshold, apart, -, -⟩ := sound.threshold
      obtain ⟨-, ordered, graced⟩ := validateConfig_iff.mp valid
      rw [spaced, apart] at ordered
      rw [apart, sound.grace] at graced
      refine { sound with durations := ⟨interval, threshold, ?_, positive, by omega, by omega⟩ }
      rw [← spaced, ← apart, ← sound.grace]
    · cases accepted

theorem runMonitorCommand_of_offered {launch : MonitorLaunch} (offered : launch.Offered) :
    ∃ args, runMonitorCommand args = .ok launch := by
  obtain ⟨cfg, eventLogPath, region, pidDir, polls⟩ := launch
  obtain ⟨⟨interval, threshold, rfl, positive, ordered, graced⟩, named, given, small⟩ := offered
  dsimp only at named given small
  let meaning := tabled monitorOptions (unknownOption monitor)
  have intervalMeans : meaning "--interval-ms".toList = intervalOption.2 := rfl
  have thresholdMeans : meaning "--stall-threshold-ms".toList = stallThresholdOption.2 := rfl
  have pollsMeans : meaning "--polls".toList = pollsOption.2 := rfl
  have regionMeans : meaning "--region".toList = (regionOption monitor fun value launch =>
    { launch with region := value }).2 := rfl
  have pidDirMeans : meaning "--pid-dir".toList = (pidDirOption monitor fun value launch =>
    { launch with pidDir := value }).2 := rfl
  have eventLogMeans : meaning "--event-log".toList = (eventLogOption monitor fun value launch =>
    { launch with eventLogPath := value }).2 := rfl
  let base := MonitorLaunch.initial
  let polled := { base with polls := polls }
  let logged := { polled with eventLogPath := eventLogPath }
  -- the two fields that keep their defaults unless an option is there
  have first : Turns meaning base polled := by
    cases polls with
    | zero => exact Turns.refl base
    | succ polls => exact turns_numeric pollsMeans small (decide_eq_true (by omega)) base
  have second : Turns meaning polled logged := by
    cases eventLogPath with
    | nil => exact Turns.refl polled
    | cons symbol path =>
        exact turns_textual eventLogMeans (decide_eq_true (List.cons_ne_nil symbol path)) polled
  have paced : decide (interval ≠ 0 ∧ interval ≤ 3600000) = true := decide_eq_true (by omega)
  have stalled : decide (threshold ≠ 0 ∧ threshold ≤ 3600000) = true := decide_eq_true (by omega)
  have turns := first.trans <| second.trans <|
    (turns_numeric intervalMeans (show interval < 2 ^ 64 by omega) paced _).trans <|
    (turns_numeric thresholdMeans (show threshold < 2 ^ 64 by omega) stalled _).trans <|
    (turns_textual regionMeans named _).trans (turns_textual pidDirMeans given _)
  obtain ⟨args, read⟩ := turns.accepted
  refine ⟨args, ?_⟩
  unfold runMonitorCommand
  rw [read]
  refine if_pos (validateConfig_iff.mpr ?_)
  change 0 < (interval : Int) * 1000000 ∧ (interval : Int) * 1000000 ≤ threshold * 1000000 ∧
    (threshold : Int) * 1000000 ≤ 750000000
  omega

/-- What the monitor's command line can ask for. -/
structure MonitorCommandLaw : Prop where
  offered : ∀ launch : MonitorLaunch,
    (∃ args, runMonitorCommand args = .ok launch) ↔ launch.Offered
  /-- The text about the interval is also printed for a threshold above the grace period. -/
  bounded : ∀ args launch,
    parse (tabled monitorOptions (unknownOption monitor)) args .initial = .ok launch →
      (runMonitorCommand args = .error [thresholdText] ↔
        launch.cfg.stallThreshold < launch.cfg.pollInterval ∨
          750 * 1000000 < launch.cfg.stallThreshold)
  refused : ∀ args lines, runMonitorCommand args = .error lines →
    NamesArgument args lines ∨ lines = [thresholdText]

theorem monitor_command_line : MonitorCommandLaw where
  offered launch := ⟨fun started => offered_of_runMonitorCommand started.choose_spec,
    runMonitorCommand_of_offered⟩
  bounded args launch read := by
    have sound : launch.Sound :=
      parse_keeps (tabled_keeps keeps_monitorOptions (keeps_unknown monitor)) sound_initialMonitor
        read
    obtain ⟨interval, spaced, positive, -⟩ := sound.interval
    have valid := @validateConfig_iff launch.cfg
    rw [sound.grace] at valid
    unfold runMonitorCommand
    rw [read]
    dsimp only
    split
    · next accepted =>
      obtain ⟨-, ordered, graced⟩ := valid.mp accepted
      constructor
      · intro refused
        cases refused
      · omega
    · next rejected =>
      rw [valid] at rejected
      exact ⟨fun _ => by omega, fun _ => rfl⟩
  refused args lines refused := by
    unfold runMonitorCommand at refused
    split at refused
    · next error read =>
      obtain rfl := Except.error.inj refused
      obtain ⟨front, arg, rest, rfl, named⟩ := tabled_error names_monitorOptions
        (fun _ _ _ => names_unknown) read
      exact Or.inl ⟨arg, by simp, named⟩
    · split at refused
      · cases refused
      · exact Or.inr (Except.error.inj refused).symm

/-! ### The supervisor -/

/-- The configurations of a supervisor that a command line can ask for. -/
structure SupervisorConfig.Offered (config : SupervisorConfig) : Prop where
  region : isRegionName config.regionName = true
  pidDir : isPath config.pidDir = true
  ticks : 0 < config.workerTicks ∧ config.workerTicks < 2 ^ 64
  runtime : config.runtimeMs < 2 ^ 64
  stallGrace : config.stallGraceMs ≤ 3600000
  handoffGrace : config.handoffGraceMs = 750

theorem offered_initial : SupervisorConfig.initial.Offered where
  region := by decide
  pidDir := by decide
  ticks := by decide
  runtime := by decide
  stallGrace := by decide
  handoffGrace := rfl

theorem keeps_supervisorOptions : ∀ entry ∈ supervisorOptions,
    entry.2.Keeps SupervisorConfig.Offered := by
  simp only [supervisorOptions, List.forall_mem_cons]
  refine ⟨?runtime, ?grace, ?ticks, ?region, ?pidDir, ?eventLog,
    fun _ none_ => absurd none_ List.not_mem_nil⟩
  case runtime =>
    exact keeps_numeric fun ms small _ config offered => { offered with runtime := small }
  case grace =>
    exact keeps_numeric fun ms _ accepted config offered =>
      { offered with stallGrace := of_decide_eq_true accepted }
  case ticks =>
    exact keeps_numeric fun ticks small accepted config offered =>
      { offered with ticks := ⟨Nat.pos_of_ne_zero (of_decide_eq_true accepted), small⟩ }
  case region =>
    exact keeps_textual fun value accepted config offered => { offered with region := accepted }
  case pidDir =>
    exact keeps_textual fun value accepted config offered => { offered with pidDir := accepted }
  case eventLog => exact keeps_textual fun value _ config offered => { offered with }

theorem keeps_unknownSupervisor (arg : List Char) :
    (unknownSupervisorOption arg).Keeps SupervisorConfig.Offered := by
  intro value config changed _ taken
  cases taken

/-- The values that are refused without a line. -/
def SilentlyRefused (arg : List Char) (rest : List (List Char)) : Prop :=
  ∃ value, rest.head? = some value ∧
    (arg = "--runtime-ms".toList ∧ parseU64 value = none ∨
      arg = "--ticks".toList ∧ ∀ ticks, parseU64 value = some ticks → ticks = 0)

/-- Lines that name the argument, or no line. -/
def Explained (arg : List Char) (rest : List (List Char)) (lines : Lines) : Prop :=
  Names arg lines ∨ lines = [] ∧ SilentlyRefused arg rest

theorem infix_invalidOption (arg : List Char) : arg <:+: invalidOption arg :=
  List.IsSuffix.isInfix ⟨_, rfl⟩

theorem explained_text {name : List Char} {accepts : List Char → Bool}
    {set : List Char → SupervisorConfig → SupervisorConfig} {rest : List (List Char)}
    {lines : Lines} (blamed : (supervisorText name accepts set).2.Blames rest lines) :
    Explained name rest lines := by
  rcases blames_textual blamed with rfl | rfl
  · exact Or.inl (names_single (infix_missingValue supervisor name))
  · exact Or.inl (names_single (infix_invalidOption name))

theorem explained_supervisorOptions : ∀ entry ∈ supervisorOptions, ∀ rest lines,
    entry.2.Blames rest lines → Explained entry.1 rest lines := by
  simp only [supervisorOptions, List.forall_mem_cons]
  refine ⟨?runtime, ?grace, ?ticks, fun _ _ => explained_text, fun _ _ => explained_text,
    fun _ _ => explained_text, fun _ none_ => absurd none_ List.not_mem_nil⟩
  case runtime =>
    intro rest lines blamed
    rcases blames_numeric blamed with rfl | ⟨rfl, value, given, rejected⟩
    · exact Or.inl (names_single (infix_missingValue supervisor _))
    · refine Or.inr ⟨rfl, value, given, Or.inl ⟨rfl, ?_⟩⟩
      cases read : parseU64 value with
      | none => rfl
      | some ms => cases rejected ms read
  case grace =>
    intro rest lines blamed
    rcases blames_numeric blamed with rfl | ⟨rfl, -⟩
    · exact Or.inl (names_single (infix_missingValue supervisor _))
    · exact Or.inl (names_single (infix_optionText supervisor _ _))
  case ticks =>
    intro rest lines blamed
    rcases blames_numeric blamed with rfl | ⟨rfl, value, given, rejected⟩
    · exact Or.inl (names_single (infix_missingValue supervisor _))
    · refine Or.inr ⟨rfl, value, given, Or.inr ⟨rfl, fun ticks read => ?_⟩⟩
      exact not_not.mp (of_decide_eq_false (rejected ticks read))

theorem explained_unknown (arg : List Char) (rest : List (List Char)) (lines : Lines)
    (blamed : (unknownSupervisorOption arg).Blames rest lines) : Explained arg rest lines := by
  rcases blamed with ⟨-, rfl⟩ | ⟨value, config, -, taken⟩
  · exact Or.inl (names_single (infix_missingValue supervisor arg))
  · obtain rfl := Except.error.inj taken
    exact Or.inl (names_single (infix_invalidOption arg))

theorem runSupervisorCommand_of_offered {config : SupervisorConfig} (offered : config.Offered) :
    ∃ args, runSupervisorCommand args = .ok config := by
  obtain ⟨regionName, pidDir, workerTicks, runtimeMs, stallGraceMs, handoffGraceMs,
    eventLogPath⟩ := config
  obtain ⟨named, given, ticked, timed, graced, rfl⟩ := offered
  dsimp only at named given ticked timed graced
  let meaning := tabled supervisorOptions unknownSupervisorOption
  let base := SupervisorConfig.initial
  let logged := { base with eventLogPath := eventLogPath }
  have first : Turns meaning base logged := by
    cases eventLogPath with
    | nil => exact Turns.refl base
    | cons symbol path =>
        have means : meaning "--event-log".toList = (supervisorText "--event-log".toList isPath
          fun value cfg => { cfg with eventLogPath := value }).2 := rfl
        exact turns_textual means (decide_eq_true (List.cons_ne_nil symbol path)) base
  have runtimeMeans : meaning "--runtime-ms".toList = (supervisorNumber "--runtime-ms".toList []
    (fun _ => true) fun ms cfg => { cfg with runtimeMs := ms }).2 := rfl
  have graceMeans : meaning "--stall-grace-ms".toList = (supervisorNumber
    "--stall-grace-ms".toList [optionText supervisor "--stall-grace-ms".toList
      " requires an integer (0..3600000)".toList] (fun ms => decide (ms ≤ 3600000))
    fun ms cfg => { cfg with stallGraceMs := ms }).2 := rfl
  have ticksMeans : meaning "--ticks".toList = (supervisorNumber "--ticks".toList []
    (fun ticks => decide (ticks ≠ 0)) fun ticks cfg => { cfg with workerTicks := ticks }).2 := rfl
  have regionMeans : meaning "--region".toList = (supervisorText "--region".toList isRegionName
    fun value cfg => { cfg with regionName := value }).2 := rfl
  have pidDirMeans : meaning "--pid-dir".toList = (supervisorText "--pid-dir".toList isPath
    fun value cfg => { cfg with pidDir := value }).2 := rfl
  have turns := first.trans <| (turns_numeric runtimeMeans timed rfl _).trans <|
    (turns_numeric graceMeans (show stallGraceMs < 2 ^ 64 by omega) (decide_eq_true graced)
      _).trans <|
    (turns_numeric ticksMeans ticked.2 (decide_eq_true (Nat.ne_of_gt ticked.1)) _).trans <|
    (turns_textual regionMeans named _).trans (turns_textual pidDirMeans given _)
  exact turns.accepted

/-- What the supervisor's command line can ask for, and what comes of it. -/
structure SupervisorCommandLaw : Prop where
  offered : ∀ config : SupervisorConfig,
    (∃ args, runSupervisorCommand args = .ok config) ↔ config.Offered
  /-- No worker that is launched first refuses its configuration. -/
  launched : ∀ config : SupervisorConfig, config.Offered →
    ∀ launched ∈ config.launched, launched.validateConfig = true
  /-- A replacement does where the counter of the generations has come round to zero. -/
  replaced : ∀ (config : SupervisorConfig) (physicalWorker count : Nat),
    (config.replacement physicalWorker count).validateConfig = true ↔
      physicalWorker < kMaxWorkers ∧ ¬ 2 ^ 32 ∣ 1 + count
  /-- Nor does the monitor, which gets the defaults. -/
  monitored : validateConfig {} = true
  refused : ∀ args lines, runSupervisorCommand args = .error lines →
    ∃ front arg rest, args = front ++ arg :: rest ∧ Explained arg rest lines

theorem supervisor_command_line : SupervisorCommandLaw where
  offered config := by
    refine ⟨fun started => ?_, runSupervisorCommand_of_offered⟩
    exact parse_keeps (tabled_keeps keeps_supervisorOptions keeps_unknownSupervisor)
      offered_initial started.choose_spec
  launched config offered := by
    have ticked : config.workerTicks ≠ 0 := Nat.ne_of_gt offered.ticks.1
    simp [SupervisorConfig.launched, WorkerSettings.validateConfig, WorkerSettings.initial,
      kMaxWorkers, ticked]
  replaced config physicalWorker count := by
    have zero : BitVec.ofNat 32 (1 + count) = 0 ↔ 2 ^ 32 ∣ 1 + count := by
      rw [← BitVec.toNat_inj, BitVec.toNat_ofNat, Nat.dvd_iff_mod_eq_zero]
      rfl
    have valid : (config.replacement physicalWorker count).validateConfig = true ↔
        physicalWorker < kMaxWorkers ∧ BitVec.ofNat 32 (1 + count) ≠ 0 := by
      simp [SupervisorConfig.replacement, WorkerSettings.validateConfig, WorkerSettings.initial]
    rw [valid, ne_eq, zero]
  monitored := by decide
  refused args lines refused :=
    tabled_error explained_supervisorOptions explained_unknown refused

end SafetyCrit.App
