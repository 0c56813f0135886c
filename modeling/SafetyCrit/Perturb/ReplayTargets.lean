import SafetyCrit.Perturb.ReplaySpacing

/-!
Owns which processes a replay signals.

A target is looked up in the remap table, and one that is not there is narrowed
to `pid_t` as it stands; a double fault without a second target has target 0.
`replay_targets_iff` says for which logs every signal goes to a process that the
log or the table names.
-/

namespace SafetyCrit.Perturb

/-! ### Resolved targets -/

/-- A positive pid that is a recorded target or what the table maps it to. -/
def NamedPid (remap : List (Int × Int)) (recorded pid : Int) : Prop :=
  0 < pid ∧ (pid = recorded ∨
    (remap.find? fun pair => pair.1 = recorded).map Prod.snd = some pid)

/-- A recorded target that the table maps or that is a positive `pid_t`. -/
def Addressable (remap : List (Int × Int)) (recorded : Int) : Prop :=
  (∃ pair ∈ remap, pair.1 = recorded) ∨ 0 < recorded ∧ recorded < 2 ^ 31

instance (remap : List (Int × Int)) (recorded : Int) : Decidable (Addressable remap recorded) :=
  inferInstanceAs (Decidable (_ ∨ _))

theorem toPid_named_iff {recorded : Int} :
    (0 < toPid recorded ∧ toPid recorded = recorded) ↔ 0 < recorded ∧ recorded < 2 ^ 31 := by
  rw [toPid, Int.bmod]
  omega

/-- A resolved target is named exactly where the target is addressable. -/
theorem namedPid_resolve_iff {remap : List (Int × Int)} (positive : ∀ pair ∈ remap, 0 < pair.2)
    (recorded : Int) :
    NamedPid remap recorded (resolve remap recorded) ↔ Addressable remap recorded := by
  unfold NamedPid Addressable resolve
  cases found : remap.find? fun pair => pair.1 = recorded with
  | some pair =>
      have member := List.mem_of_find?_eq_some found
      have same : pair.1 = recorded := by simpa using List.find?_some found
      exact iff_of_true ⟨positive pair member, Or.inr rfl⟩ (Or.inl ⟨pair, member, same⟩)
  | none =>
      have absent : ¬ ∃ pair ∈ remap, pair.1 = recorded := by
        rintro ⟨pair, member, same⟩
        exact absurd same (by simpa using List.find?_eq_none.mp found pair member)
      rw [or_iff_right absent, ← toPid_named_iff, Option.map_none]
      exact and_congr_right fun _ => or_iff_left fun mapped => by cases mapped

/-! ### The signals of a pass -/

/-- The process an event signals. -/
def Event.pid? : Event → Option Int
  | .killed pid _ _ => some pid
  | _ => none

/-- The processes that events signal, in order. -/
def signalled (events : List Event) : List Int := events.filterMap Event.pid?

/-- The recorded target that a signal of an entry is meant for: the second one
for the second signal of a double fault. -/
def aimedAt (entry : ReplayEntry) (index : Nat) : Int :=
  if entry.category = Category.doubleFault.name ∧ index = 1 then entry.secondTarget
  else entry.target

theorem signalled_append (first second : List Event) :
    signalled (first ++ second) = signalled first ++ signalled second :=
  List.filterMap_append

theorem signalled_waitEvents (base : Option Nat) (tsNs : Nat) :
    signalled (waitEvents base tsNs) = [] := by
  refine List.filterMap_eq_nil_iff.mpr fun event member => ?_
  obtain ⟨sec, nsec, rfl⟩ := waitEvents_slept base tsNs event member
  rfl

/-- The signals of an action go to its target, but the second one of a double
fault. -/
theorem Kills.signalled_cases {target second : Int} {category : Category} {carried : Bool}
    {kills : List Event} (sent : Kills target second category carried kills) :
    signalled kills = [target] ∨
      category = .crash ∧ signalled kills = [target, target] ∨
      category = .doubleFault ∧ signalled kills = [target, second] := by
  cases sent with
  | single _ _ _ => exact Or.inl rfl
  | crashed => exact Or.inl rfl
  | fallback _ _ => exact Or.inr (Or.inl ⟨rfl, rfl⟩)
  | half _ => exact Or.inl rfl
  | both _ => exact Or.inr (Or.inr ⟨rfl, rfl⟩)

theorem aimedAt_first (entry : ReplayEntry) : aimedAt entry 0 = entry.target :=
  if_neg fun both => absurd both.2 (by decide)

theorem aimedAt_plain {entry : ReplayEntry} (plain : entry.category ≠ Category.doubleFault.name)
    (index : Nat) : aimedAt entry index = entry.target :=
  if_neg fun both => plain both.1

theorem aimedAt_second {entry : ReplayEntry}
    (double : entry.category = Category.doubleFault.name) :
    aimedAt entry 1 = entry.secondTarget :=
  if_pos ⟨double, rfl⟩

theorem Kills.aimed {entry : ReplayEntry} {category : Category}
    (named : categoryFromString entry.category = some category) {resolved : Int → Int}
    {carried : Bool} {kills : List Event}
    (sent : Kills (resolved entry.target) (resolved entry.secondTarget) category carried kills)
    {index : Nat} {pid : Int} (at_ : (signalled kills)[index]? = some pid) :
    pid = resolved (aimedAt entry index) ∧
      (aimedAt entry index = entry.target ∨
        entry.category = Category.doubleFault.name ∧
          aimedAt entry index = entry.secondTarget) := by
  have same := categoryFromString_eq_some_iff.mp named
  rcases sent.signalled_cases with one | ⟨rfl, two⟩ | ⟨rfl, two⟩
  · rw [one] at at_
    obtain ⟨within, rfl⟩ := List.getElem?_eq_some_iff.mp at_
    obtain rfl : index = 0 := Nat.lt_one_iff.mp within
    rw [aimedAt_first]
    exact ⟨rfl, Or.inl rfl⟩
  · rw [two] at at_
    obtain ⟨within, rfl⟩ := List.getElem?_eq_some_iff.mp at_
    rw [aimedAt_plain (fun double => absurd (same.symm.trans double) (by decide))]
    change index < 2 at within
    obtain rfl | rfl : index = 0 ∨ index = 1 := by omega
    · exact ⟨rfl, Or.inl rfl⟩
    · exact ⟨rfl, Or.inl rfl⟩
  · rw [two] at at_
    obtain ⟨within, rfl⟩ := List.getElem?_eq_some_iff.mp at_
    change index < 2 at within
    obtain rfl | rfl : index = 0 ∨ index = 1 := by omega
    · rw [aimedAt_first]
      exact ⟨rfl, Or.inl rfl⟩
    · rw [aimedAt_second same]
      exact ⟨rfl, Or.inr ⟨same, rfl⟩⟩

section Passes

variable {system : System} {remap : List (Int × Int)}

/-- A pass signals what the signals of its category are sent to. -/
theorem PassEvents.signalled_cases {pass : Pass} {ok : Bool} {events : List Event}
    (did : PassEvents system remap pass ok events) :
    signalled events = [] ∨
      ∃ category carried kills, categoryFromString pass.entry.category = some category ∧
        Kills (resolve remap pass.entry.target) (resolve remap pass.entry.secondTarget) category
          carried kills ∧
        signalled events = signalled kills := by
  cases did with
  | unknown _ => exact Or.inl (signalled_waitEvents _ _)
  | failed named sent =>
      refine Or.inr ⟨_, _, _, named, sent, ?_⟩
      rw [signalled_append, signalled_waitEvents, List.nil_append]
  | unrecorded named sent _ =>
      refine Or.inr ⟨_, _, _, named, sent, ?_⟩
      rw [signalled_append, signalled_waitEvents, List.nil_append]
  | recorded named sent _ _ _ _ _ =>
      refine Or.inr ⟨_, _, _, named, sent, ?_⟩
      rw [signalled_append, signalled_append, signalled_waitEvents, List.nil_append]
      exact List.append_nil _

/-- A double fault that is carried out signals both of its targets. -/
theorem Kills.signalled_double {target second : Int} {category : Category} {carried : Bool}
    {kills : List Event} (sent : Kills target second category carried kills)
    (double : category = .doubleFault) (out : carried = true) :
    signalled kills = [target, second] := by
  cases sent with
  | single plain _ _ => exact absurd double plain.2
  | crashed => cases double
  | fallback _ _ => cases double
  | half _ => cases out
  | both _ => rfl

/-- What a pass that goes on signals. -/
theorem signalled_of_done {pass : Pass} {category : Category}
    (named : categoryFromString pass.entry.category = some category)
    (went : (pass.done system remap).1 = true) :
    (signalled (pass.events system remap))[0]? = some (resolve remap pass.entry.target) ∧
      (category = .doubleFault → (signalled (pass.events system remap))[1]? =
        some (resolve remap pass.entry.secondTarget)) := by
  have both {other : Category} {kills : List Event}
      (also_ : categoryFromString pass.entry.category = some other)
      (sent : Kills (resolve remap pass.entry.target) (resolve remap pass.entry.secondTarget)
        other true kills) :
      (signalled kills)[0]? = some (resolve remap pass.entry.target) ∧
        (category = .doubleFault →
          (signalled kills)[1]? = some (resolve remap pass.entry.secondTarget)) := by
    obtain rfl : category = other := Option.some.inj (named.symm.trans also_)
    refine ⟨?_, fun double => ?_⟩
    · obtain ⟨signal, failure, rest, rfl⟩ := sent.head
      rfl
    · rw [sent.signalled_double double rfl]
      rfl
  have did := pass.passEvents system remap
  generalize pass.events system remap = events at did
  generalize (pass.done system remap).1 = ok at did went
  cases did with
  | unknown _ => cases went
  | failed _ _ => cases went
  | unrecorded also_ sent _ =>
      rw [signalled_append, signalled_waitEvents, List.nil_append]
      exact both also_ sent
  | recorded also_ sent _ _ _ _ _ =>
      rw [signalled_append, signalled_append, signalled_waitEvents, List.nil_append,
        show signalled [Event.recorded _ _] = [] from rfl, List.append_nil]
      exact both also_ sent

end Passes

/-! ### Named targets -/

/-- Whatever the system answers, every signal of the replay goes to a process
that its entry or the table names. -/
def TargetsNamed (entries : List ReplayEntry) (remap : List (Int × Int)) : Prop :=
  ∀ (system : System) (start : Harness),
  ∀ pass ∈ replayPasses system remap none entries start,
  ∀ (index : Nat) (pid : Int), (signalled (pass.events system remap))[index]? = some pid →
    NamedPid remap (aimedAt pass.entry index) pid

/-- The targets of all actions are addressable, and the second targets of the
double faults. -/
def TargetsAddressable (entries : List ReplayEntry) (remap : List (Int × Int)) : Prop :=
  ∀ entry ∈ actions entries, Addressable remap entry.target ∧
    (entry.category = Category.doubleFault.name → Addressable remap entry.secondTarget)

instance (entries : List ReplayEntry) (remap : List (Int × Int)) :
    Decidable (TargetsAddressable entries remap) :=
  inferInstanceAs (Decidable (∀ entry ∈ actions entries, _ ∧ _))

theorem targetsNamed_of_addressable {entries : List ReplayEntry} {remap : List (Int × Int)}
    (positive : ∀ pair ∈ remap, 0 < pair.2) (addressable : TargetsAddressable entries remap) :
    TargetsNamed entries remap := by
  intro system start pass member index pid at_
  have inside := (entries_replayPasses system remap none entries start).subset
    (List.mem_map_of_mem member)
  obtain ⟨target, second⟩ := addressable pass.entry inside
  rcases (pass.passEvents system remap).signalled_cases with
    silent | ⟨category, carried, kills, named, sent, same⟩
  · rw [silent] at at_
    cases at_
  · rw [same] at at_
    obtain ⟨rfl, aimed | ⟨double, aimed⟩⟩ := sent.aimed named at_
    · rw [namedPid_resolve_iff positive, aimed]
      exact target
    · rw [namedPid_resolve_iff positive, aimed]
      exact second double

theorem addressable_of_targetsNamed {entries : List ReplayEntry} {remap : List (Int × Int)}
    (positive : ∀ pair ∈ remap, 0 < pair.2)
    (known : ∀ entry ∈ actions entries, entry.category ∈ kReplayCategories)
    (targets : TargetsNamed entries remap) : TargetsAddressable entries remap := by
  intro entry member
  rw [← entries_willing remap known none ⟨false, none, []⟩] at member
  obtain ⟨pass, passed, rfl⟩ := List.mem_map.mp member
  obtain ⟨category, named⟩ := mem_kReplayCategories_iff.mp (known _ (by
    rw [← entries_willing remap known none ⟨false, none, []⟩]
    exact member))
  obtain ⟨first, second⟩ := signalled_of_done named (done_willing remap named)
  have kept := targets System.willing ⟨false, none, []⟩ pass passed
  refine ⟨?_, fun double => ?_⟩
  · rw [← namedPid_resolve_iff positive]
    have aimed := kept 0 _ first
    rwa [aimedAt_first] at aimed
  · have twice : category = .doubleFault := Category.name_injective
      ((categoryFromString_eq_some_iff.mp named).symm.trans double)
    rw [← namedPid_resolve_iff positive]
    have aimed := kept 1 _ (second twice)
    rwa [aimedAt_second double] at aimed

/-- Over a parsed log and a table of positive pids, a replay signals named
processes only exactly when all targets of the log are addressable. -/
theorem replay_targets_iff {text : List Char} {entries : List ReplayEntry}
    (parsed : parseReplayLog text = .ok entries) {remap : List (Int × Int)}
    (positive : ∀ pair ∈ remap, 0 < pair.1 ∧ 0 < pair.2) :
    TargetsNamed entries remap ↔ TargetsAddressable entries remap :=
  ⟨addressable_of_targetsNamed (fun pair member => (positive pair member).2)
      (known_of_parsed parsed),
    targetsNamed_of_addressable fun pair member => (positive pair member).2⟩

/-- A header and a double fault of process 7 without a second target. -/
def halfLog : List Char :=
  headerLine 0 ++ formatRecordLine ⟨0, .doubleFault, 7, []⟩

theorem replay_targets_iff_stallLog : TargetsNamed (stallEntries [1]) [(7, 9)] := by
  have parsed : parseReplayLog (stallLog [1]) = .ok (stallEntries [1]) := by
    rw [parseReplayLog_eq]
    decide +kernel
  exact (replay_targets_iff parsed (by decide)).mpr (by decide)

/-- The second signal of such a double fault goes to process 0. -/
theorem halfLog_signals_group :
    ∃ entries, parseReplayLog halfLog = .ok entries ∧ ¬ TargetsNamed entries [] := by
  refine ⟨[⟨0, [], 0, 0, true⟩, ⟨0, "double-fault".toList, 7, 0, false⟩], ?_, fun targets => ?_⟩
  · rw [parseReplayLog_eq]
    decide +kernel
  · have addressable := addressable_of_targetsNamed (by simp) (by decide) targets
    exact absurd addressable (by decide)

end SafetyCrit.Perturb
