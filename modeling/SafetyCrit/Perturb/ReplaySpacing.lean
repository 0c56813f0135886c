import Mathlib.Algebra.BigOperators.Ring.List
import Mathlib.Algebra.Order.Ring.Abs
import SafetyCrit.Perturb.Replay

/-!
Owns how long a replay sleeps in front of each action.

Every sleep is the whole milliseconds of the entry's offset from the first
action, so that in front of an action the replay has slept the sum of all
offsets up to its own, not the last of them. `replay_spacing_iff` says for which
logs the spacing is kept all the same.
-/

namespace SafetyCrit.Perturb

/-! ### Time slept -/

/-- How long an event takes, in nanoseconds. -/
def Event.duration : Event → Nat
  | .slept sec nsec => sec * 1000000000 + nsec
  | _ => 0

/-- The time slept over events. -/
def sleptNs (events : List Event) : Nat := (events.map Event.duration).sum

@[simp] theorem sleptNs_nil : sleptNs [] = 0 := rfl

theorem sleptNs_append (first second : List Event) :
    sleptNs (first ++ second) = sleptNs first + sleptNs second := by
  rw [sleptNs, List.map_append, List.sum_append]
  rfl

/-- The fields of a `timespec` make up whole milliseconds. -/
theorem whole_ms (ms : Nat) :
    ms / 1000 * 1000000000 + ms % 1000 * 1000000 = ms * 1000000 := by
  have parts := Nat.div_add_mod ms 1000
  omega

/-- The wait in front of an entry is the whole milliseconds of its offset. -/
theorem sleptNs_waitEvents (baseTs tsNs : Nat) :
    sleptNs (waitEvents (some baseTs) tsNs) = (tsNs - baseTs) / 1000000 * 1000000 := by
  unfold waitEvents
  dsimp only
  split
  · rw [sleptNs, List.map_cons, List.map_nil, List.sum_cons, List.sum_nil, Nat.add_zero,
      Event.duration, whole_ms]
  · next early =>
    rw [Nat.sub_eq_zero_of_le (Nat.le_of_not_lt early), Nat.zero_div, Nat.zero_mul, sleptNs_nil]

theorem sleptNs_eq_zero {events : List Event}
    (awake : ∀ event ∈ events, event.duration = 0) : sleptNs events = 0 := by
  refine List.sum_eq_zero fun duration member => ?_
  obtain ⟨event, inside, rfl⟩ := List.mem_map.mp member
  exact awake event inside

section Passes

variable {system : System} {remap : List (Int × Int)}

/-- A pass sleeps first; what it does then takes no time. -/
theorem PassEvents.split {pass : Pass} {ok : Bool} {events : List Event}
    (did : PassEvents system remap pass ok events) :
    ∃ rest, events = waitEvents pass.base pass.entry.tsNs ++ rest ∧
      ∀ event ∈ rest, event.duration = 0 := by
  have awake {category : Category} {carried : Bool} {kills : List Event}
      (sent : Kills (resolve remap pass.entry.target) (resolve remap pass.entry.secondTarget)
        category carried kills) : ∀ event ∈ kills, event.duration = 0 := by
    intro event member
    obtain ⟨pid, signal, failure, rfl⟩ := sent.killed event member
    rfl
  cases did with
  | unknown _ => exact ⟨[], (List.append_nil _).symm, by simp⟩
  | failed _ sent => exact ⟨_, rfl, awake sent⟩
  | unrecorded _ sent _ => exact ⟨_, rfl, awake sent⟩
  | recorded _ sent _ _ _ _ _ =>
      refine ⟨_, List.append_assoc .., ?_⟩
      rw [List.forall_mem_append, List.forall_mem_singleton]
      exact ⟨awake sent, rfl⟩

theorem sleptNs_done (pass : Pass) :
    sleptNs (pass.done system remap).2.trace =
      sleptNs pass.before.trace + sleptNs (waitEvents pass.base pass.entry.tsNs) := by
  obtain ⟨rest, split, awake⟩ := (pass.passEvents system remap).split
  rw [pass.trace_done, sleptNs_append, split, sleptNs_append, sleptNs_eq_zero awake, Nat.add_zero]

/-- Wherever in a pass a signal is sent, its wait is over. -/
theorem sleptNs_at_kill {pass : Pass} {front back : List Event} {pid : Int} {signal : Signal}
    {failure : Option Nat}
    (sent : (pass.done system remap).2.trace = front ++ .killed pid signal failure :: back)
    (inside : pass.before.trace.length ≤ front.length) :
    sleptNs front = sleptNs (pass.done system remap).2.trace := by
  obtain ⟨rest, split, awake⟩ := (pass.passEvents system remap).split
  have whole := pass.trace_done system remap
  rw [sent, split, ← List.append_assoc] at whole
  rw [sleptNs_done, ← sleptNs_append]
  rcases List.append_eq_append_iff.mp whole with ⟨middle, waits, behind⟩ | ⟨middle, waits, behind⟩
  · cases middle with
    | nil => rw [waits, List.append_nil]
    | cons event middle =>
        -- the signal would be one of the waits
        exfalso
        have same := (List.cons.inj behind).1
        obtain ⟨begun, -, tail⟩ : ∃ begun, front = pass.before.trace ++ begun ∧
            waitEvents pass.base pass.entry.tsNs = begun ++ event :: middle := by
          rcases List.append_eq_append_iff.mp waits with ⟨begun, start, tail⟩ | ⟨begun, start, tail⟩
          · exact ⟨begun, start, tail⟩
          · have short : begun = [] := by
              rw [start, List.length_append] at inside
              exact List.eq_nil_of_length_eq_zero (by omega)
            rw [short, List.append_nil] at start
            rw [short, List.nil_append] at tail
            exact ⟨[], by rw [start, List.append_nil], tail.symm⟩
        obtain ⟨sec, nsec, slept⟩ := waitEvents_slept pass.base pass.entry.tsNs event
          (by rw [tail]; simp)
        rw [← same] at slept
        cases slept
  · have nothing : sleptNs middle = 0 :=
      sleptNs_eq_zero fun event member => awake event (by rw [behind]; simp [member])
    rw [waits, sleptNs_append, nothing, Nat.add_zero]

/-- A replay that knows the time of its first action: the passes go over the
actions, and in front of each the sleeps so far are their offsets. -/
theorem slept_before (baseTs : Nat) (entries : List ReplayEntry) (harness : Harness)
    (index : Nat) (pass : Pass)
    (at_ : (replayPasses system remap (some baseTs) entries harness)[index]? = some pass) :
    pass.base = some baseTs ∧ (actions entries)[index]? = some pass.entry ∧
      sleptNs pass.before.trace = sleptNs harness.trace +
        (((actions entries).take index).map
          fun entry => (entry.tsNs - baseTs) / 1000000 * 1000000).sum := by
  induction entries generalizing harness index with
  | nil => cases at_
  | cons entry entries inductionHypothesis =>
      by_cases header : entry.isHeader = true
      · rw [replayPasses_header system remap header] at at_
        rw [actions_header header]
        exact inductionHypothesis harness index at_
      · rw [replayPasses_action system remap header] at at_
        rw [actions_action header]
        cases index with
        | zero =>
            cases at_
            exact ⟨rfl, rfl, rfl⟩
        | succ index =>
            rw [List.getElem?_cons_succ] at at_
            split at at_
            · obtain ⟨base, found, slept⟩ := inductionHypothesis _ index at_
              refine ⟨base, found, ?_⟩
              rw [slept, sleptNs_done, sleptNs_waitEvents, List.take_succ_cons, List.map_cons,
                List.sum_cons, Nat.add_assoc]
            · cases at_

end Passes

/-! ### Offsets -/

/-- The times of the actions of a log. -/
def actionTimes (entries : List ReplayEntry) : List Nat :=
  (actions entries).map ReplayEntry.tsNs

/-- How far behind the first action each action is. -/
def offsets (entries : List ReplayEntry) : List Nat :=
  (actionTimes entries).map (· - (actionTimes entries).headD 0)

/-- The whole milliseconds of the offsets in front of an action, together. -/
def earlyMs (entries : List ReplayEntry) (index : Nat) : Nat :=
  (((offsets entries).take index).map (· / 1000000)).sum

theorem earlyMs_succ {entries : List ReplayEntry} {index offset : Nat}
    (at_ : (offsets entries)[index]? = some offset) :
    earlyMs entries (index + 1) = earlyMs entries index + offset / 1000000 := by
  rw [earlyMs, earlyMs, List.take_add_one, at_, Option.toList_some, List.map_append,
    List.sum_append, List.map_singleton, List.sum_singleton]

/-- In front of an action the replay has slept the whole milliseconds of all
offsets up to its own. -/
theorem slept_at {system : System} {remap : List (Int × Int)} {entries : List ReplayEntry}
    {harness : Harness} {index : Nat} {pass : Pass}
    (at_ : (replayPasses system remap none entries harness)[index]? = some pass) :
    (actions entries)[index]? = some pass.entry ∧
      sleptNs (pass.done system remap).2.trace =
        sleptNs harness.trace + earlyMs entries (index + 1) * 1000000 := by
  induction entries with
  | nil => cases at_
  | cons entry entries inductionHypothesis =>
      by_cases header : entry.isHeader = true
      · rw [replayPasses_header system remap header] at at_
        have same : offsets (entry :: entries) = offsets entries := by
          rw [offsets, actionTimes, actions_header header]
          rfl
        rw [actions_header header, earlyMs, same]
        exact inductionHypothesis at_
      · have spread : offsets (entry :: entries) =
            (actions (entry :: entries)).map (fun other => other.tsNs - entry.tsNs) := by
          rw [offsets, actionTimes, actions_action header, List.map_cons, List.headD_cons,
            List.map_cons, List.map_map]
          rfl
        have sum (taken : List ReplayEntry) :
            (taken.map fun other => (other.tsNs - entry.tsNs) / 1000000 * 1000000).sum =
              ((taken.map fun other => other.tsNs - entry.tsNs).map (· / 1000000)).sum *
                1000000 := by
          rw [List.map_map, ← List.sum_map_mul_right]
          rfl
        rw [earlyMs, spread, ← List.map_take, ← sum]
        rw [replayPasses_action system remap header] at at_
        rw [actions_action header]
        cases index with
        | zero =>
            cases at_
            refine ⟨rfl, ?_⟩
            rw [sleptNs_done]
            change sleptNs harness.trace + sleptNs [] = _
            simp
        | succ index =>
            rw [List.getElem?_cons_succ] at at_
            split at at_
            · obtain ⟨base, found, slept⟩ := slept_before entry.tsNs entries _ index pass at_
              refine ⟨found, ?_⟩
              have first : sleptNs (Pass.done system remap ⟨none, entry, harness⟩).2.trace =
                  sleptNs harness.trace := by
                rw [sleptNs_done]
                rfl
              rw [sleptNs_done, base, sleptNs_waitEvents, slept, first, List.take_succ_cons,
                List.map_cons, List.sum_cons, List.take_add_one, found, Option.toList_some,
                List.map_append, List.sum_append, List.map_singleton, List.sum_singleton,
                Nat.sub_self]
              omega
            · cases at_

/-! ### Kept spacing -/

/-- Whatever the system answers, wherever the signals of the `index`-th action
are sent, the time slept differs from the recorded offset by less than one
millisecond for each action up to it. -/
def SpacingKept (entries : List ReplayEntry) : Prop :=
  ∀ (system : System) (remap : List (Int × Int)) (start : Harness), start.trace = [] →
  ∀ (index : Nat) (pass : Pass),
    (replayPasses system remap none entries start)[index]? = some pass →
  ∀ (front back : List Event) (pid : Int) (signal : Signal) (failure : Option Nat),
    (pass.done system remap).2.trace = front ++ .killed pid signal failure :: back →
    pass.before.trace.length ≤ front.length →
  ∀ first last : Nat, (actionTimes entries)[0]? = some first →
    (actionTimes entries)[index]? = some last →
    |(sleptNs front : Int) - ((last : Int) - first)| < (index + 1) * 1000000

/-- The whole milliseconds of the offsets in front of each action sum up to less
than its number, or to just its number where its own offset is no whole number
of milliseconds. -/
def OffsetsSmall (entries : List ReplayEntry) : Prop :=
  ∀ index offset : Nat, (offsets entries)[index]? = some offset →
    earlyMs entries index ≤ index ∨
      earlyMs entries index = index + 1 ∧ offset % 1000000 ≠ 0

theorem near_iff (early offset index : Nat) :
    |(((early + offset / 1000000) * 1000000 : Nat) : Int) - offset| < (index + 1) * 1000000 ↔
      early ≤ index ∨ early = index + 1 ∧ offset % 1000000 ≠ 0 := by
  rw [abs_lt]
  omega

theorem getElem?_offsets {entries : List ReplayEntry} {index first last : Nat}
    (head : (actionTimes entries)[0]? = some first)
    (at_ : (actionTimes entries)[index]? = some last) :
    (offsets entries)[index]? = some (last - first) := by
  have base : (actionTimes entries).headD 0 = first := by
    rw [← List.head?_eq_getElem?] at head
    rw [List.headD_eq_head?_getD, head]
    rfl
  rw [offsets, List.getElem?_map, at_, base]
  rfl

theorem times_of_offsets {entries : List ReplayEntry} {index offset : Nat}
    (at_ : (offsets entries)[index]? = some offset) :
    ∃ first last, (actionTimes entries)[0]? = some first ∧
      (actionTimes entries)[index]? = some last ∧ offset = last - first := by
  rw [offsets, List.getElem?_map, Option.map_eq_some_iff] at at_
  obtain ⟨last, here, rfl⟩ := at_
  obtain ⟨within, -⟩ := List.getElem?_eq_some_iff.mp here
  have head : (actionTimes entries)[0]? = some ((actionTimes entries).headD 0) := by
    cases times : actionTimes entries with
    | nil =>
        rw [times] at within
        cases within
    | cons first rest => rfl
  exact ⟨_, last, head, here, rfl⟩

theorem first_le {times : List Nat} (ordered : times.Pairwise (· ≤ ·)) {index first last : Nat}
    (head : times[0]? = some first) (here : times[index]? = some last) : first ≤ last := by
  cases index with
  | zero => exact (Option.some.inj (head.symm.trans here)).le
  | succ index =>
      obtain ⟨_, rfl⟩ := List.getElem?_eq_some_iff.mp head
      obtain ⟨_, rfl⟩ := List.getElem?_eq_some_iff.mp here
      exact List.pairwise_iff_getElem.mp ordered _ _ _ _ (Nat.succ_pos index)

section Ordered

variable {entries : List ReplayEntry} (ordered : (actionTimes entries).Pairwise (· ≤ ·))
include ordered

/-- The sum of the waits up to a pass, against the offset of its entry. -/
theorem near_offset_iff {system : System} {remap : List (Int × Int)} {start : Harness}
    {index first last : Nat} {pass : Pass} (fresh : start.trace = [])
    (at_ : (replayPasses system remap none entries start)[index]? = some pass)
    (head : (actionTimes entries)[0]? = some first)
    (here : (actionTimes entries)[index]? = some last) :
    |(sleptNs (pass.done system remap).2.trace : Int) - ((last : Int) - first)| <
        (index + 1) * 1000000 ↔
      earlyMs entries index ≤ index ∨
        earlyMs entries index = index + 1 ∧ (last - first) % 1000000 ≠ 0 := by
  have offset := getElem?_offsets head here
  obtain ⟨-, slept⟩ := slept_at at_
  rw [fresh, sleptNs_nil, Nat.zero_add, earlyMs_succ offset] at slept
  rw [slept, ← near_iff, Nat.cast_sub (first_le ordered head here)]

theorem spacingKept_of_small (small : OffsetsSmall entries) : SpacingKept entries := by
  intro system remap start fresh index pass at_ front back pid signal failure sent inside
    first last head here
  rw [sleptNs_at_kill sent inside, near_offset_iff ordered fresh at_ head here]
  exact small index _ (getElem?_offsets head here)

/-- Where nothing stops the replay, every action is reached. -/
theorem small_of_spacingKept
    (known : ∀ entry ∈ actions entries, entry.category ∈ kReplayCategories)
    (kept : SpacingKept entries) : OffsetsSmall entries := by
  intro index offset at_
  obtain ⟨first, last, head, here, rfl⟩ := times_of_offsets at_
  have found := here
  rw [actionTimes, List.getElem?_map, Option.map_eq_some_iff] at found
  obtain ⟨entry, found, rfl⟩ := found
  have named := known entry (List.mem_of_getElem? found)
  rw [← entries_willing [] known none ⟨false, none, []⟩, List.getElem?_map,
    Option.map_eq_some_iff] at found
  obtain ⟨pass, passed, rfl⟩ := found
  obtain ⟨signal, failure, rest, sent⟩ := pass.exists_kill System.willing [] named
  have split := pass.trace_done System.willing []
  rw [sent, ← List.append_assoc] at split
  have spaced := kept System.willing [] ⟨false, none, []⟩ rfl index pass passed _ _ _ _ _ split
    (by simp) first _ head here
  rw [sleptNs_at_kill split (by simp)] at spaced
  exact (near_offset_iff ordered rfl passed head here).mp spaced

end Ordered

/-- Over a parsed log with times that do not go back, a replay keeps the
recorded spacing exactly when the offsets are small. -/
theorem replay_spacing_iff {text : List Char} {entries : List ReplayEntry}
    (parsed : parseReplayLog text = .ok entries)
    (ordered : (actionTimes entries).Pairwise (· ≤ ·)) :
    SpacingKept entries ↔ OffsetsSmall entries :=
  ⟨small_of_spacingKept ordered (known_of_parsed parsed), spacingKept_of_small ordered⟩

/-- A header and a stall of process 7 at each second given. -/
def stallLog (seconds : List Nat) : List Char :=
  headerLine 0 ++ seconds.flatMap fun second =>
    formatRecordLine ⟨second * 1000000000, .stall, 7, []⟩

/-- The entries of such a log. -/
def stallEntries (seconds : List Nat) : List ReplayEntry :=
  ⟨0, [], 0, 0, true⟩ ::
    seconds.map fun second => ⟨second * 1000000000, "stall".toList, 7, 0, false⟩

theorem replay_spacing_iff_stallLog : SpacingKept (stallEntries [1, 6]) := by
  have parsed : parseReplayLog (stallLog [1, 6]) = .ok (stallEntries [1, 6]) := by
    rw [parseReplayLog_eq]
    decide +kernel
  refine (replay_spacing_iff parsed (by decide)).mpr fun index offset at_ => Or.inl ?_
  obtain ⟨within, -⟩ := List.getElem?_eq_some_iff.mp at_
  change index < 2 at within
  obtain rfl | rfl : index = 0 ∨ index = 1 := by omega
  · decide
  · decide

/-- Three stalls, 5 seconds apart: in front of the third the replay has slept 15
seconds, not 10. -/
theorem third_stall_late :
    parseReplayLog (stallLog [1, 6, 11]) = .ok (stallEntries [1, 6, 11]) ∧
      (actionTimes (stallEntries [1, 6, 11])).Pairwise (· ≤ ·) ∧
      ¬ SpacingKept (stallEntries [1, 6, 11]) := by
  refine ⟨?_, by decide, fun kept => ?_⟩
  · rw [parseReplayLog_eq]
    decide +kernel
  · have small := small_of_spacingKept (by decide) (by decide) kept 2 10000000000 (by decide)
    exact absurd small (by decide)

end SafetyCrit.Perturb
