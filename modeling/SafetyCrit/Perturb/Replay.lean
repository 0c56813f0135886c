import SafetyCrit.Perturb.Harness

/-!
Owns what one fault action and one pass of the replay loop do, and how a replay
is the passes one after the other.

`Kills` lists the signals an action can send with their answers, and
`PassEvents` everything a pass can do; both are proved once of the source
functions, and what holds of a replay is read off them.
-/

namespace SafetyCrit.Perturb

/-! ### One action -/

/-- The signals an action sends, each with its answer, and whether that carries
the action out. -/
inductive Kills (target second : Int) : Category → Bool → List Event → Prop where
  | single {category : Category} (plain : category ≠ .crash ∧ category ≠ .doubleFault)
      (signal : Signal) (failure : Option Nat) :
      Kills target second category failure.isNone [.killed target signal failure]
  | crashed : Kills target second .crash true [.killed target .segv none]
  | fallback (errno : Nat) (failure : Option Nat) :
      Kills target second .crash failure.isNone
        [.killed target .segv (some errno), .killed target .kill failure]
  | half (errno : Nat) :
      Kills target second .doubleFault false [.killed target .kill (some errno)]
  | both (failure : Option Nat) :
      Kills target second .doubleFault failure.isNone
        [.killed target .kill none, .killed second .kill failure]

theorem Kills.killed {target second : Int} {category : Category} {carried : Bool}
    {kills : List Event} (sent : Kills target second category carried kills) :
    ∀ event ∈ kills, ∃ pid signal failure, event = .killed pid signal failure := by
  intro event member
  cases sent <;> simp only [List.mem_cons, List.not_mem_nil, or_false] at member <;>
    rcases member with rfl | rfl <;> exact ⟨_, _, _, rfl⟩

/-- An action sends a signal to its target first. -/
theorem Kills.head {target second : Int} {category : Category} {carried : Bool}
    {kills : List Event} (sent : Kills target second category carried kills) :
    ∃ signal failure rest, kills = .killed target signal failure :: rest := by
  cases sent <;> exact ⟨_, _, _, rfl⟩

/-- The parameters an action records. -/
def recordParams (category : Category) (second : Int) : List Char :=
  if category = .doubleFault then secondParams second else []

section Actions

variable (system : System)

theorem sendSignal_eq (target : Int) (signal : Signal) (harness : Harness) :
    sendSignal system target signal harness =
      ((system.kill harness.trace target signal).isNone,
        ⟨harness.sink, (system.kill harness.trace target signal).or harness.ec,
          harness.trace ++ [.killed target signal (system.kill harness.trace target signal)]⟩) := by
  unfold sendSignal Harness.log
  cases system.kill harness.trace target signal <;> rfl

/-- An action that sent its signals: it records where they carry it out. -/
def settle (category : Category) (target second : Int) (carried : Bool) (harness : Harness) :
    Bool × Harness :=
  if carried then recordAction system category target (recordParams category second) harness
  else (false, harness)

theorem signalAction_cases {category : Category}
    (plain : category ≠ .crash ∧ category ≠ .doubleFault) (signal : Signal) (target second : Int) (before : Harness) :
    ∃ carried kills ec, Kills target second category carried kills ∧
      signalAction system signal category target before =
        settle system category target second carried ⟨before.sink, ec, before.trace ++ kills⟩ := by
  refine ⟨_, _, (system.kill before.trace target signal).or none,
    .single plain signal (system.kill before.trace target signal), ?_⟩
  unfold signalAction settle recordParams
  rw [if_neg plain.2, sendSignal_eq]

/-- Every action sends the signals of its category and then settles. -/
theorem perform_cases (category : Category) (target second : Int) (before : Harness) :
    ∃ carried kills ec, Kills target second category carried kills ∧
      perform system category target second before =
        settle system category target second carried ⟨before.sink, ec, before.trace ++ kills⟩ := by
  cases category with
  | stall => exact signalAction_cases system (by decide) .stop target second before
  | recoverStall => exact signalAction_cases system (by decide) .cont target second before
  | corrupt => exact signalAction_cases system (by decide) .usr2 target second before
  | supervisorKill => exact signalAction_cases system (by decide) .kill target second before
  | supervisorExit => exact signalAction_cases system (by decide) .term target second before
  | crash =>
      change ∃ carried kills ec, _ ∧ crash system target before = _
      unfold crash
      rw [sendSignal_eq]
      cases first : system.kill before.trace target .segv with
      | none => exact ⟨_, _, _, .crashed, rfl⟩
      | some errno =>
          dsimp only
          rw [sendSignal_eq, List.append_assoc]
          exact ⟨_, _, _, .fallback errno _, rfl⟩
  | doubleFault =>
      change ∃ carried kills ec, _ ∧ doubleFault system target second before = _
      unfold doubleFault
      rw [sendSignal_eq]
      cases first : system.kill before.trace target .kill with
      | none =>
          dsimp only
          rw [sendSignal_eq, List.append_assoc]
          exact ⟨_, _, _, .both _, rfl⟩
      | some errno => exact ⟨_, _, _, .half errno, rfl⟩

/-- What settling adds: a record, where the signals carry the action out and a
sink is set. -/
theorem settle_cases (category : Category) (target second : Int) (carried : Bool)
    (harness : Harness) :
    (carried = false ∧
      settle system category target second carried harness = (false, harness)) ∨
    (carried = true ∧ harness.sink = false ∧
      settle system category target second carried harness = (true, harness)) ∨
    (carried = true ∧ harness.sink = true ∧ ∃ record : Record,
      record.tsNs = system.clock harness.trace ∧ record.category = category ∧
      record.targetPid = target ∧ record.params = recordParams category second ∧
      settle system category target second carried harness =
        (system.write harness.trace record,
          harness.log (.recorded record (system.write harness.trace record)))) := by
  unfold settle recordAction emitRecord
  cases carried with
  | false => exact Or.inl ⟨rfl, rfl⟩
  | true =>
      cases set : harness.sink with
      | false => exact Or.inr (Or.inl ⟨rfl, rfl, rfl⟩)
      | true => exact Or.inr (Or.inr ⟨rfl, rfl, ⟨_, category, target, _⟩, rfl, rfl, rfl, rfl, rfl⟩)

end Actions

/-! ### One pass -/

/-- The wait in front of an action. -/
def waitEvents (base : Option Nat) (tsNs : Nat) : List Event :=
  match base with
  | none => []
  | some baseTs =>
      if baseTs < tsNs then
        [.slept ((tsNs - baseTs) / 1000000 / 1000) ((tsNs - baseTs) / 1000000 % 1000 * 1000000)]
      else []

theorem waitEvents_slept (base : Option Nat) (tsNs : Nat) :
    ∀ event ∈ waitEvents base tsNs, ∃ sec nsec, event = .slept sec nsec := by
  intro event member
  unfold waitEvents at member
  split at member
  · cases member
  · split at member
    · exact ⟨_, _, List.mem_singleton.mp member⟩
    · cases member

theorem waitFor_eq (base : Option Nat) (tsNs : Nat) (harness : Harness) :
    waitFor base tsNs harness =
      { harness with trace := harness.trace ++ waitEvents base tsNs } := by
  unfold waitFor waitEvents Harness.log
  cases base with
  | none => rw [List.append_nil]
  | some baseTs =>
      dsimp only
      split
      · rfl
      · rw [List.append_nil]

/-- A pass of the replay loop over an action: the time of the first action, the
entry, and the harness the pass finds. -/
structure Pass where
  base : Option Nat
  entry : ReplayEntry
  before : Harness

section Passes

variable (system : System) (remap : List (Int × Int))

/-- What the pass leaves, and whether the loop goes on. -/
def Pass.done (pass : Pass) : Bool × Harness :=
  replayEntry system remap pass.base pass.entry pass.before

/-- What the pass did. -/
def Pass.events (pass : Pass) : List Event :=
  (pass.done system remap).2.trace.drop pass.before.trace.length

/-- The passes of a replay. -/
def replayPasses : Option Nat → List ReplayEntry → Harness → List Pass
  | _, [], _ => []
  | base, entry :: entries, harness =>
      if entry.isHeader then replayPasses base entries harness
      else
        let pass : Pass := ⟨base, entry, harness⟩
        pass :: if (pass.done system remap).1 then
            replayPasses (some (base.getD entry.tsNs)) entries (pass.done system remap).2
          else []

/-- Everything a pass can do: stop at an unknown category; or wait, send the
signals of its category, and settle. -/
inductive PassEvents (pass : Pass) : Bool → List Event → Prop where
  | unknown (unnamed : categoryFromString pass.entry.category = none) :
      PassEvents pass false (waitEvents pass.base pass.entry.tsNs)
  | failed {category : Category} {kills : List Event}
      (named : categoryFromString pass.entry.category = some category)
      (sent : Kills (resolve remap pass.entry.target) (resolve remap pass.entry.secondTarget)
        category false kills) :
      PassEvents pass false (waitEvents pass.base pass.entry.tsNs ++ kills)
  | unrecorded {category : Category} {kills : List Event}
      (named : categoryFromString pass.entry.category = some category)
      (sent : Kills (resolve remap pass.entry.target) (resolve remap pass.entry.secondTarget)
        category true kills) (unset : pass.before.sink = false) :
      PassEvents pass true (waitEvents pass.base pass.entry.tsNs ++ kills)
  | recorded {category : Category} {kills : List Event} {past : List Event} {record : Record}
      (named : categoryFromString pass.entry.category = some category)
      (sent : Kills (resolve remap pass.entry.target) (resolve remap pass.entry.secondTarget)
        category true kills) (set : pass.before.sink = true)
      (stamped : record.tsNs = system.clock past) (same : record.category = category)
      (aimed : record.targetPid = resolve remap pass.entry.target)
      (params : record.params = recordParams category (resolve remap pass.entry.secondTarget)) :
      PassEvents pass (system.write past record)
        (waitEvents pass.base pass.entry.tsNs ++ kills ++
          [.recorded record (system.write past record)])

theorem Pass.done_cases (pass : Pass) :
    ∃ events, PassEvents system remap pass (pass.done system remap).1 events ∧
      (pass.done system remap).2.trace = pass.before.trace ++ events ∧
      (pass.done system remap).2.sink = pass.before.sink := by
  unfold Pass.done replayEntry
  rw [waitFor_eq]
  cases named : categoryFromString pass.entry.category with
  | none => exact ⟨_, .unknown named, rfl, rfl⟩
  | some category =>
      obtain ⟨carried, kills, ec, sent, performed⟩ := perform_cases system category
        (resolve remap pass.entry.target) (resolve remap pass.entry.secondTarget)
        { pass.before with
          trace := pass.before.trace ++ waitEvents pass.base pass.entry.tsNs }
      dsimp only
      rw [performed]
      rcases settle_cases system category (resolve remap pass.entry.target)
        (resolve remap pass.entry.secondTarget) carried ⟨pass.before.sink, ec,
          pass.before.trace ++ waitEvents pass.base pass.entry.tsNs ++ kills⟩ with
        ⟨rfl, settled⟩ | ⟨rfl, unset, settled⟩ |
          ⟨rfl, set, record, stamped, same, aimed, params, settled⟩
      · rw [settled]
        exact ⟨_, .failed named sent, List.append_assoc .., rfl⟩
      · rw [settled]
        exact ⟨_, .unrecorded named sent unset, List.append_assoc .., rfl⟩
      · rw [settled]
        refine ⟨_, .recorded named sent set stamped same aimed params, ?_, rfl⟩
        simp only [Harness.log, List.append_assoc]

theorem Pass.trace_done (pass : Pass) :
    (pass.done system remap).2.trace = pass.before.trace ++ pass.events system remap := by
  obtain ⟨events, -, grown, -⟩ := pass.done_cases system remap
  rw [Pass.events, grown, List.drop_left]

theorem Pass.sink_done (pass : Pass) :
    (pass.done system remap).2.sink = pass.before.sink := by
  obtain ⟨-, -, -, sink⟩ := pass.done_cases system remap
  exact sink

theorem Pass.passEvents (pass : Pass) :
    PassEvents system remap pass (pass.done system remap).1 (pass.events system remap) := by
  obtain ⟨events, did, grown, -⟩ := pass.done_cases system remap
  rw [Pass.events, grown, List.drop_left]
  exact did

/-- A pass over a known category sends a signal to the resolved target behind
its wait. -/
theorem Pass.exists_kill (pass : Pass) (known : pass.entry.category ∈ kReplayCategories) :
    ∃ signal failure rest, pass.events system remap = waitEvents pass.base pass.entry.tsNs ++
      .killed (resolve remap pass.entry.target) signal failure :: rest := by
  obtain ⟨category, found⟩ := mem_kReplayCategories_iff.mp known
  have did := pass.passEvents system remap
  generalize pass.events system remap = events at did
  generalize (pass.done system remap).1 = ok at did
  cases did with
  | unknown unnamed => cases unnamed.symm.trans found
  | failed _ sent =>
      obtain ⟨signal, failure, rest, rfl⟩ := sent.head
      exact ⟨signal, failure, rest, rfl⟩
  | unrecorded _ sent _ =>
      obtain ⟨signal, failure, rest, rfl⟩ := sent.head
      exact ⟨signal, failure, rest, rfl⟩
  | recorded _ sent _ _ _ _ _ =>
      obtain ⟨signal, failure, rest, rfl⟩ := sent.head
      exact ⟨signal, failure, _, List.append_assoc .. |>.trans rfl⟩

/-! ### A replay as its passes -/

theorem replayPasses_header {entry : ReplayEntry} (header : entry.isHeader = true)
    (base : Option Nat) (entries : List ReplayEntry) (harness : Harness) :
    replayPasses system remap base (entry :: entries) harness =
      replayPasses system remap base entries harness := by
  rw [replayPasses, if_pos header]

theorem replayPasses_action {entry : ReplayEntry} (action : ¬ entry.isHeader = true)
    (base : Option Nat) (entries : List ReplayEntry) (harness : Harness) :
    replayPasses system remap base (entry :: entries) harness =
      ⟨base, entry, harness⟩ ::
        if (Pass.done system remap ⟨base, entry, harness⟩).1 then
          replayPasses system remap (some (base.getD entry.tsNs)) entries
            (Pass.done system remap ⟨base, entry, harness⟩).2
        else [] := by
  rw [replayPasses, if_neg action]

/-- The trace of a replay is what its passes did, and it succeeds if they all
went on. -/
theorem replayFrom_eq (base : Option Nat) (entries : List ReplayEntry) (harness : Harness) :
    (replayFrom system remap base entries harness).2.trace =
        harness.trace ++ (replayPasses system remap base entries harness).flatMap
          (Pass.events system remap) ∧
      (replayFrom system remap base entries harness).1 =
        (replayPasses system remap base entries harness).all
          fun pass => (pass.done system remap).1 := by
  induction entries generalizing base harness with
  | nil => exact ⟨(List.append_nil _).symm, rfl⟩
  | cons entry entries inductionHypothesis =>
      rw [replayFrom]
      by_cases header : entry.isHeader = true
      · rw [if_pos header, replayPasses_header system remap header]
        exact inductionHypothesis base harness
      · rw [if_neg header, replayPasses_action system remap header]
        have grown := Pass.trace_done system remap ⟨base, entry, harness⟩
        change _ = harness.trace ++ _ at grown
        cases on : (Pass.done system remap ⟨base, entry, harness⟩).1 with
        | false =>
            have stopped : (replayEntry system remap base entry harness).1 = false := on
            dsimp only
            rw [stopped]
            refine ⟨?_, ?_⟩
            · rw [if_neg Bool.false_ne_true, if_neg Bool.false_ne_true, List.flatMap_singleton]
              exact grown
            · rw [if_neg Bool.false_ne_true, if_neg Bool.false_ne_true, List.all_cons, on,
                Bool.false_and]
        | true =>
            have went : (replayEntry system remap base entry harness).1 = true := on
            dsimp only
            rw [went, if_pos rfl, if_pos rfl, List.flatMap_cons, List.all_cons, on, Bool.true_and,
              ← List.append_assoc, ← grown]
            exact inductionHypothesis _ _

/-- The entries of a log that are no headers. -/
def actions (entries : List ReplayEntry) : List ReplayEntry :=
  entries.filter fun entry => !entry.isHeader

theorem actions_header {entry : ReplayEntry} (header : entry.isHeader = true)
    (entries : List ReplayEntry) : actions (entry :: entries) = actions entries :=
  List.filter_cons_of_neg (by simp [header])

theorem actions_action {entry : ReplayEntry} (action : ¬ entry.isHeader = true)
    (entries : List ReplayEntry) : actions (entry :: entries) = entry :: actions entries :=
  List.filter_cons_of_pos (by simp [action])

/-- The passes go over the actions of the log, in order, from the first. -/
theorem entries_replayPasses (base : Option Nat) (entries : List ReplayEntry)
    (harness : Harness) :
    (replayPasses system remap base entries harness).map Pass.entry <+: actions entries := by
  induction entries generalizing base harness with
  | nil => exact List.prefix_rfl
  | cons entry entries inductionHypothesis =>
      by_cases header : entry.isHeader = true
      · rw [replayPasses_header system remap header, actions_header header]
        exact inductionHypothesis base harness
      · rw [replayPasses_action system remap header, actions_action header, List.map_cons,
          List.cons_prefix_cons]
        refine ⟨rfl, ?_⟩
        split
        · exact inductionHypothesis _ _
        · exact List.nil_prefix

/-- Every pass finds the sink as the replay found it. -/
theorem sink_replayPasses {base : Option Nat} {entries : List ReplayEntry} {harness : Harness}
    {pass : Pass} (member : pass ∈ replayPasses system remap base entries harness) :
    pass.before.sink = harness.sink := by
  induction entries generalizing base harness with
  | nil => cases member
  | cons entry entries inductionHypothesis =>
      by_cases header : entry.isHeader = true
      · rw [replayPasses_header system remap header] at member
        exact inductionHypothesis member
      · rw [replayPasses_action system remap header] at member
        rcases List.mem_cons.mp member with rfl | later
        · rfl
        · split at later
          · rw [inductionHypothesis later, Pass.sink_done]
          · cases later

/-- A pass that does not go on is the last one. -/
theorem getLast?_of_stopped {base : Option Nat} {entries : List ReplayEntry} {harness : Harness}
    {pass : Pass} (member : pass ∈ replayPasses system remap base entries harness)
    (stopped : (pass.done system remap).1 = false) :
    (replayPasses system remap base entries harness).getLast? = some pass := by
  induction entries generalizing base harness with
  | nil => cases member
  | cons entry entries inductionHypothesis =>
      by_cases header : entry.isHeader = true
      · rw [replayPasses_header system remap header] at member ⊢
        exact inductionHypothesis member
      · rw [replayPasses_action system remap header] at member ⊢
        rcases List.mem_cons.mp member with rfl | later
        · rw [stopped]
          rfl
        · split at later
          · next went =>
            rw [if_pos went, List.getLast?_cons, inductionHypothesis later]
            rfl
          · cases later

end Passes

/-! ### A replay that nothing stops -/

/-- A system that delivers every signal and writes every record. -/
def System.willing : System := ⟨fun _ _ _ => none, fun _ _ => true, fun _ => 0⟩

theorem perform_willing (category : Category) (target second : Int) (harness : Harness) :
    (perform System.willing category target second harness).1 = true := by
  obtain ⟨sink, ec, trace⟩ := harness
  cases category <;> cases sink <;> rfl

theorem done_willing (remap : List (Int × Int)) {pass : Pass} {category : Category}
    (named : categoryFromString pass.entry.category = some category) :
    (pass.done System.willing remap).1 = true := by
  unfold Pass.done replayEntry
  rw [named]
  exact perform_willing _ _ _ _

/-- There a replay of known categories goes over every action. -/
theorem entries_willing (remap : List (Int × Int)) {entries : List ReplayEntry}
    (known : ∀ entry ∈ actions entries, entry.category ∈ kReplayCategories)
    (base : Option Nat) (harness : Harness) :
    (replayPasses System.willing remap base entries harness).map Pass.entry = actions entries := by
  induction entries generalizing base harness with
  | nil => rfl
  | cons entry entries inductionHypothesis =>
      by_cases header : entry.isHeader = true
      · rw [actions_header header] at known
        rw [replayPasses_header _ remap header, actions_header header]
        exact inductionHypothesis known base harness
      · rw [actions_action header, List.forall_mem_cons] at known
        have went : (Pass.done System.willing remap ⟨base, entry, harness⟩).1 = true := by
          obtain ⟨category, named⟩ := mem_kReplayCategories_iff.mp known.1
          exact done_willing remap named
        rw [replayPasses_action _ remap header, actions_action header, if_pos went, List.map_cons,
          inductionHypothesis known.2]

/-- The entries the parser returns have known categories. -/
theorem known_of_parsed {text : List Char} {entries : List ReplayEntry}
    (parsed : parseReplayLog text = .ok entries) :
    ∀ entry ∈ actions entries, entry.category ∈ kReplayCategories := by
  intro entry member
  obtain ⟨inside, action⟩ := List.mem_filter.mp member
  have reads := (parseReplayLog_eq_ok_iff.mp parsed).1
  obtain ⟨line, -, read⟩ := exists_line_of_mem reads inside
  cases read with
  | header => cases action
  | action _ _ known _ _ => exact known

end SafetyCrit.Perturb
