import SafetyCrit.Perturb.ReplayLog

/-!
Owns the model of `harness.cpp`: the fault actions, the records they emit, and
the replay of a parsed log.

The system answers every call from what happened before it: whether a signal is
delivered, whether a record is written whole, and what the clock says. A harness
keeps everything it has done as a list of events, the oldest first.
-/

namespace SafetyCrit.Perturb

open SafetyCrit.Library.Decimal

/-! ### Categories -/

/-- `Category`. -/
inductive Category where
  | crash
  | stall
  | recoverStall
  | corrupt
  | doubleFault
  | supervisorKill
  | supervisorExit
deriving DecidableEq, Repr

/-- `to_string`. -/
def Category.name : Category → List Char
  | .crash => "crash".toList
  | .stall => "stall".toList
  | .recoverStall => "recover-stall".toList
  | .corrupt => "corrupt".toList
  | .doubleFault => "double-fault".toList
  | .supervisorKill => "supervisor-kill".toList
  | .supervisorExit => "supervisor-exit".toList

/-- The candidates of `category_from_string`, in its order. -/
def Category.all : List Category :=
  [.crash, .stall, .recoverStall, .corrupt, .doubleFault, .supervisorKill, .supervisorExit]

/-- `category_from_string`. -/
def categoryFromString (name : List Char) : Option Category :=
  Category.all.find? fun candidate => name = candidate.name

theorem Category.mem_all (category : Category) : category ∈ Category.all := by
  cases category <;> decide

theorem categoryFromString_eq_some_iff {name : List Char} {category : Category} :
    categoryFromString name = some category ↔ name = category.name := by
  constructor
  · intro found
    simpa using List.find?_some found
  · rintro rfl
    cases category <;> decide

theorem Category.name_injective : Function.Injective Category.name := by
  intro left right same
  have found := categoryFromString_eq_some_iff.mpr same
  rw [categoryFromString_eq_some_iff.mpr rfl] at found
  exact Option.some.inj found

/-- The log's categories are the harness's. -/
theorem mem_kReplayCategories_iff {name : List Char} :
    name ∈ kReplayCategories ↔ ∃ category, categoryFromString name = some category := by
  have same : kReplayCategories = Category.all.map Category.name := by decide
  simp only [same, List.mem_map, categoryFromString_eq_some_iff]
  constructor
  · rintro ⟨category, -, rfl⟩
    exact ⟨category, rfl⟩
  · rintro ⟨category, rfl⟩
    exact ⟨category, category.mem_all, rfl⟩

/-! ### Records -/

/-- `Record`. -/
structure Record where
  tsNs : Nat
  category : Category
  targetPid : Int
  params : List Char
deriving DecidableEq, Repr

/-- `format_record_line`. -/
def formatRecordLine (record : Record) : List Char :=
  "\x7b\"ts\":".toList ++ printNat record.tsNs ++ ",\"category\":\"".toList ++
    record.category.name ++ "\",\"target\":".toList ++ printInt record.targetPid ++
    ",\"params\":".toList ++ (if record.params = [] then "\x7b\x7d".toList else record.params) ++
    "\x7d\n".toList

/-- The parameters `double_fault` records. -/
def secondParams (second : Int) : List Char :=
  "\x7b\"second\":".toList ++ printInt second ++ "\x7d".toList

/-- The schema header line of `run_invocation`. -/
def headerLine (tsNs : Nat) : List Char :=
  "\x7b\"schema\":".toList ++ printNat kReplaySchemaVersion ++ ",\"ts\":".toList ++
    printNat tsNs ++ ",\"category\":\"_header\",\"target\":0,\"params\":\x7b\x7d\x7d\n".toList

/-! ### Signals and events -/

/-- The signals the harness sends. -/
inductive Signal where
  | segv
  | kill
  | stop
  | cont
  | usr2
  | term
deriving DecidableEq, Repr

/-- What the harness does to the system: a `nanosleep`, a `kill` with the errno
of a failure, a record with whether it was written whole. -/
inductive Event where
  | slept (sec nsec : Nat)
  | killed (pid : Int) (signal : Signal) (failure : Option Nat)
  | recorded (record : Record) (whole : Bool)
deriving DecidableEq, Repr

/-- The answers of the system. -/
structure System where
  kill : List Event → Int → Signal → Option Nat
  write : List Event → Record → Bool
  clock : List Event → Nat

/-- The state of the harness: whether a sink is set, the error code of the last
action, and everything done so far. -/
structure Harness where
  sink : Bool
  ec : Option Nat
  trace : List Event
deriving DecidableEq, Repr

/-- One more event. -/
def Harness.log (harness : Harness) (event : Event) : Harness :=
  { harness with trace := harness.trace ++ [event] }

section Actions

variable (system : System)

/-- `send_signal`: whether the signal was delivered. -/
def sendSignal (target : Int) (signal : Signal) (harness : Harness) : Bool × Harness :=
  match system.kill harness.trace target signal with
  | none => (true, harness.log (.killed target signal none))
  | some errno =>
      (false, { harness.log (.killed target signal (some errno)) with ec := some errno })

/-- `emit_record`. -/
def emitRecord (record : Record) (harness : Harness) : Bool × Harness :=
  if harness.sink then
    (system.write harness.trace record,
      harness.log (.recorded record (system.write harness.trace record)))
  else (false, harness)

/-- `record_action`. -/
def recordAction (category : Category) (target : Int) (params : List Char) (harness : Harness) :
    Bool × Harness :=
  if harness.sink then
    emitRecord system ⟨system.clock harness.trace, category, target, params⟩ harness
  else (true, harness)

/-- The actions that send one signal and record it. -/
def signalAction (signal : Signal) (category : Category) (target : Int) (harness : Harness) :
    Bool × Harness :=
  let sent := sendSignal system target signal { harness with ec := none }
  if sent.1 then recordAction system category target [] sent.2 else (false, sent.2)

/-- `crash`: SIGKILL where SIGSEGV cannot be delivered. -/
def crash (target : Int) (harness : Harness) : Bool × Harness :=
  let sent := sendSignal system target .segv { harness with ec := none }
  if sent.1 then recordAction system .crash target [] sent.2
  else
    let again := sendSignal system target .kill sent.2
    if again.1 then recordAction system .crash target [] again.2 else (false, again.2)

/-- `stall`. -/
def stall : Int → Harness → Bool × Harness := signalAction system .stop .stall

/-- `recover_stall`. -/
def recoverStall : Int → Harness → Bool × Harness := signalAction system .cont .recoverStall

/-- `corrupt_next_slot`. -/
def corruptNextSlot : Int → Harness → Bool × Harness := signalAction system .usr2 .corrupt

/-- `double_fault`. -/
def doubleFault (first second : Int) (harness : Harness) : Bool × Harness :=
  let sent := sendSignal system first .kill { harness with ec := none }
  if sent.1 then
    let again := sendSignal system second .kill sent.2
    if again.1 then recordAction system .doubleFault first (secondParams second) again.2
    else (false, again.2)
  else (false, sent.2)

/-- `kill_supervisor`. -/
def killSupervisor : Int → Harness → Bool × Harness := signalAction system .kill .supervisorKill

/-- `exit_supervisor`. -/
def exitSupervisor : Int → Harness → Bool × Harness := signalAction system .term .supervisorExit

/-- The switch over the category, in `replay_entries` and `run_invocation`. -/
def perform (category : Category) (target second : Int) : Harness → Bool × Harness :=
  match category with
  | .crash => crash system target
  | .stall => stall system target
  | .recoverStall => recoverStall system target
  | .corrupt => corruptNextSlot system target
  | .doubleFault => doubleFault system target second
  | .supervisorKill => killSupervisor system target
  | .supervisorExit => exitSupervisor system target

/-! ### Replay -/

/-- The conversion of a signed 64-bit value to `pid_t`. -/
def toPid (value : Int) : Int := value.bmod (2 ^ 32)

/-- `resolve` of `replay_entries`. -/
def resolve (remap : List (Int × Int)) (original : Int) : Int :=
  match remap.find? fun pair => pair.1 = original with
  | some pair => pair.2
  | none => toPid original

/-- The errno of an unknown category, `EINVAL`. -/
def invalidArgument : Nat := 22

/-- The wait of `replay_entries` before an entry, from the time of the first
action. -/
def waitFor (base : Option Nat) (tsNs : Nat) (harness : Harness) : Harness :=
  match base with
  | none => harness
  | some baseTs =>
      if baseTs < tsNs then
        let ms := (tsNs - baseTs) / 1000000
        harness.log (.slept (ms / 1000) (ms % 1000 * 1000000))
      else harness

/-- The loop of `replay_entries` over an entry that is no header. -/
def replayEntry (remap : List (Int × Int)) (base : Option Nat) (entry : ReplayEntry)
    (harness : Harness) : Bool × Harness :=
  let waited := waitFor base entry.tsNs harness
  match categoryFromString entry.category with
  | none => (false, { waited with ec := some invalidArgument })
  | some category =>
      perform system category (resolve remap entry.target) (resolve remap entry.secondTarget) waited

/-- `replay_entries`, from the time of the first action once one was seen. -/
def replayFrom (remap : List (Int × Int)) :
    Option Nat → List ReplayEntry → Harness → Bool × Harness
  | _, [], harness => (true, harness)
  | base, entry :: entries, harness =>
      if entry.isHeader then replayFrom remap base entries harness
      else
        let done := replayEntry system remap base entry harness
        if done.1 then replayFrom remap (some (base.getD entry.tsNs)) entries done.2
        else (false, done.2)

/-- `replay_entries`. -/
def replayEntries (entries : List ReplayEntry) (remap : List (Int × Int)) (harness : Harness) :
    Bool × Harness :=
  replayFrom system remap none entries harness

end Actions

end SafetyCrit.Perturb
