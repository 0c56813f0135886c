import Mathlib.Data.List.Basic
import Mathlib.Data.List.Range

/-!
Owns `run_work_loop`: the tick loop of a hot worker with its retries, its stop
checks and its overrun accounting.

Everything the loop does outside itself is an event, and the `n`-th event gets
its answer from the environment at `n`. So the ring may refuse in any pattern,
either stop source may be set between any two events, and the clock may read
anything. The inner loop has no bound of its own: `fuel` bounds the pushes of
one tick, and a loop that runs out of it is still retrying.
-/

namespace SafetyCrit.Workers.WorkLoop

/-- The fields of `WorkerConfig` that the loop reads, and whether it was given
a status word. -/
structure LoopConfig where
  ticks : Nat
  cpuBudget : Int
  status : Bool
deriving DecidableEq, Repr

/-- `LoopResult`. -/
structure LoopResult where
  ticksCompleted : Nat := 0
  overruns : Nat := 0
  pendingTick : Nat := 0
  stoppedBeforePush : Bool := false
  stoppedDuringPush : Bool := false
deriving DecidableEq, Repr

/-- What the loop does outside itself, with the answer it got. -/
inductive Event (Payload : Type) where
  | stopCheck (wanted : Bool)
  | now (time : Int)
  | tickFn (tick : Nat)
  | pushFn (payload : Payload) (accepted : Bool)
  | yield
  | setOverrun
  | pacerFn
deriving DecidableEq, Repr

/-- The answers of the callbacks, the clock and the two stop sources. -/
structure Environment (Payload : Type) where
  stopRequested : Nat → Bool
  signalRequested : Nat → Bool
  pushFn : Nat → Payload → Bool
  now : Nat → Int
  tickFn : Nat → Payload

variable {Payload : Type}

/-- `stop_wanted`. -/
def Environment.stopWanted (env : Environment Payload) (index : Nat) : Bool :=
  env.stopRequested index || env.signalRequested index

/-- The calls of `push_fn`, with their answers. -/
def pushes (log : List (Event Payload)) : List (Payload × Bool) :=
  log.filterMap fun event => match event with
    | .pushFn payload accepted => some (payload, accepted)
    | _ => none

/-- What an event at `index` says was answered is what the environment answers
there. -/
def Environment.Answers (env : Environment Payload) (index : Nat) : Event Payload → Prop
  | .stopCheck wanted => wanted = env.stopWanted index
  | .now time => time = env.now index
  | .pushFn payload accepted => accepted = env.pushFn index payload
  | _ => True

/-- Every push, stop check and clock reading of a log was answered by the
environment, at its own place in the log. -/
def Answered (env : Environment Payload) (log : List (Event Payload)) : Prop :=
  ∀ index event, log[index]? = some event → env.Answers index event

/-! ### The shape of a run -/

/-- A completed tick: its readings of the clock, its payload, and how often the
payload was refused. -/
structure TickRun (Payload : Type) where
  start : Int
  payload : Payload
  refusals : Nat
  finish : Int

/-- A refused push that is to be retried. -/
def refusal (payload : Payload) : List (Event Payload) :=
  [.pushFn payload false, .stopCheck false, .yield]

def refusalsOf (payload : Payload) (count : Nat) : List (Event Payload) :=
  (List.replicate count (refusal payload)).flatten

/-- The start of a tick, up to its payload. -/
def opening (start : Int) (tick : Nat) : List (Event Payload) :=
  [.stopCheck false, .now start, .tickFn tick]

/-- The tick took longer than its budget. -/
def TickRun.Late (run : TickRun Payload) (config : LoopConfig) : Prop :=
  run.finish - run.start > config.cpuBudget

instance (run : TickRun Payload) (config : LoopConfig) : Decidable (run.Late config) :=
  inferInstanceAs (Decidable (_ > _))

/-- What follows the accepted push of a tick. -/
def TickRun.closing (run : TickRun Payload) (config : LoopConfig) (tick : Nat) :
    List (Event Payload) :=
  [.now run.finish] ++ (if run.Late config ∧ config.status = true then [.setOverrun] else []) ++
    if tick + 1 < config.ticks then [.pacerFn] else []

def TickRun.events (run : TickRun Payload) (config : LoopConfig) (tick : Nat) :
    List (Event Payload) :=
  opening run.start tick ++ refusalsOf run.payload run.refusals ++ [.pushFn run.payload true] ++
    run.closing config tick

section Shape

variable {env : Environment Payload} {config : LoopConfig}

/-- The result behind a completed tick. -/
def LoopResult.behind (r : LoopResult) (config : LoopConfig) (run : TickRun Payload) : LoopResult :=
  { r with
    overruns := r.overruns + if run.Late config then 1 else 0
    ticksCompleted := r.ticksCompleted + 1 }

section Step

variable {fuel tick : Nat} {r : LoopResult} {log : List (Event Payload)}

end Step

end Shape

/-! ### What the events of completed ticks say -/

section Projections

variable {config : LoopConfig}

end Projections

/-! ### The law of the loop -/

/-- The pushes of consecutive ticks from `tick` on: each payload is refused so
many times and then accepted. -/
def attempts (env : Environment Payload) : Nat → List Nat → List (Payload × Bool)
  | _, [] => []
  | tick, refusals :: rest =>
      List.replicate refusals (env.tickFn tick, false) ++ (env.tickFn tick, true) ::
        attempts env (tick + 1) rest

section Law

variable {env : Environment Payload} {config : LoopConfig}

theorem Answered.append_singleton {log : List (Event Payload)} (answered : Answered env log)
    {event : Event Payload} (answers : env.Answers log.length event) :
    Answered env (log ++ [event]) := by
  intro index found at_index
  rcases Nat.lt_trichotomy index log.length with earlier | last | later
  · rw [List.getElem?_append_left earlier] at at_index
    exact answered index found at_index
  · subst last
    rw [List.getElem?_concat_length, Option.some.injEq] at at_index
    exact at_index ▸ answers
  · rw [List.getElem?_eq_none (by simp; omega)] at at_index
    exact absurd at_index.symm (Option.some_ne_none found)

section Inner

variable {payload : Payload} {log : List (Event Payload)}

end Inner

section Outer

variable {fuel tick : Nat} {r : LoopResult} {log : List (Event Payload)}

end Outer

end Law

end SafetyCrit.Workers.WorkLoop
