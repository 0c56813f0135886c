import SafetyCrit.Perturb.Invocation

/-!
Owns a campaign: command lines of the harness run one after the other, each appending to the
replay log it names, and the replay of such a log.

Whatever the command lines are and whichever of them fail, a log reads back as the invocations
that were carried out with it, in their order, and a replay that succeeds carries out the same
faults in that order and no other.
-/

namespace SafetyCrit.Perturb

open SafetyCrit.Library.Lines

/-! ### Running command lines -/

/-- A command line of the harness, and whether the replay log it names can be opened. -/
structure Command where
  argv : List (List Char)
  opens : Bool

/-- What the harness has done over a campaign, the text of the replay logs by path, and the
invocations that were carried out, the oldest first. -/
structure Campaign where
  trace : List Event
  logs : List Char → List Char
  carried : List Invocation

/-- Before the first command line. -/
def Campaign.start : Campaign := ⟨[], fun _ => [], []⟩

/-- The `perturb` subcommand; a command line that is no invocation runs nothing. -/
def Campaign.run (system : System) (campaign : Campaign) (command : Command) : Campaign :=
  match parseInvocation command.argv with
  | .error _ => campaign
  | .ok invocation =>
      let outcome := runInvocation system command.opens invocation ⟨false, none, campaign.trace⟩
      { trace := outcome.harness.trace
        logs := if invocation.outPath = [] then campaign.logs
          else Function.update campaign.logs invocation.outPath
            (campaign.logs invocation.outPath ++ outcome.text)
        carried := if outcome.code = 0 then campaign.carried ++ [invocation]
          else campaign.carried }

/-- The invocations that were carried out with a replay log. -/
def Campaign.carriedWith (campaign : Campaign) (path : List Char) : List Invocation :=
  campaign.carried.filter fun invocation => invocation.outPath = path

/-! ### One invocation -/

/-- A system that writes every record whole, at times below 2 ^ 63. -/
structure System.Recording (system : System) : Prop where
  whole : ∀ past record, system.write past record = true
  stamped : ∀ past, system.clock past < 2 ^ 63

/-- A fault that is that of an invocation. -/
structure Fault.Of (invocation : Invocation) (fault : Fault) : Prop where
  category : fault.category = invocation.category
  target : fault.target = invocation.target
  second : invocation.category = .doubleFault → fault.second = invocation.target2

theorem writtenLines_kills {target second : Int} {category : Category} {carried : Bool}
    {kills : List Event} (sent : Kills target second category carried kills) :
    writtenLines kills = [] := by
  refine List.flatMap_eq_nil_iff.mpr fun event member => ?_
  obtain ⟨pid, signal, failure, rfl⟩ := sent.killed event member
  rfl

section Invocations

variable {system : System} (recording : system.Recording)

include recording

/-- An invocation that runs appends a header, and behind it its fault where it exits with 0. -/
theorem runInvocation_logged {invocation : Invocation} (valid : invocation.Valid) {opens : Bool}
    (runs : ¬ (invocation.outPath ≠ [] ∧ ¬ opens)) (before : Harness) :
    ∃ logged : LoggedInvocation,
      (runInvocation system opens invocation before).text = logged.text ∧
      ((runInvocation system opens invocation before).code = 0 ∧
          (∃ fault, fault.Of invocation ∧ logged.faults = [fault]) ∨
        (runInvocation system opens invocation before).code = 1 ∧ logged.faults = []) := by
  unfold runInvocation
  rw [if_neg runs]
  obtain ⟨carried, kills, ec, sent, performed⟩ := perform_cases system invocation.category
    invocation.target invocation.target2 { before with sink := true }
  dsimp only
  rw [performed]
  rcases settle_cases system invocation.category invocation.target invocation.target2 carried
    ⟨true, ec, before.trace ++ kills⟩ with
    ⟨rfl, settled⟩ | ⟨-, unset, -⟩ |
      ⟨rfl, -, ⟨tsNs, category, target, params⟩, rfl, rfl, rfl, rfl, settled⟩
  · rw [settled]
    refine ⟨⟨system.clock before.trace, []⟩, ?_, Or.inr ⟨rfl, rfl⟩⟩
    dsimp only [LoggedInvocation.text]
    rw [if_pos Bool.false_ne_true, List.drop_left, writtenLines_kills sent]
    rfl
  · cases unset
  · let fault : Fault := ⟨system.clock (before.trace ++ kills), invocation.category,
      invocation.target, invocation.target2, recording.stamped _, valid.aimed, valid.aimedSecond⟩
    rw [settled, recording.whole]
    refine ⟨⟨system.clock before.trace, [fault]⟩, ?_,
      Or.inl ⟨rfl, fault, ⟨rfl, rfl, fun _ => rfl⟩, rfl⟩⟩
    dsimp only [LoggedInvocation.text, Harness.log]
    rw [if_neg (not_not.mpr rfl), List.append_assoc, List.drop_left, writtenLines,
      List.flatMap_append]
    have unwritten : writtenLines kills = [] := writtenLines_kills sent
    rw [writtenLines] at unwritten
    rw [unwritten]
    rfl

/-! ### A campaign -/

/-- A log holds what invocations logged, and their faults are those of the invocations that
were carried out with it. -/
def Campaign.Logged (campaign : Campaign) (path : List Char) : Prop :=
  ∃ logged : List LoggedInvocation, campaign.logs path = logged.flatMap LoggedInvocation.text ∧
    List.Forall₂ Fault.Of (campaign.carriedWith path) (logged.flatMap LoggedInvocation.faults)

/-- Every command line keeps every log so. -/
theorem Campaign.Logged.run {campaign : Campaign} {path : List Char} (named : path ≠ [])
    (kept : campaign.Logged path) (command : Command) :
    (campaign.run system command).Logged path := by
  unfold Campaign.run
  split
  · exact kept
  · next invocation parsed =>
    obtain ⟨logged, text, faults⟩ := kept
    by_cases runs : invocation.outPath ≠ [] ∧ ¬ command.opens
    · -- the log cannot be opened: nothing is appended and nothing is sent
      refine ⟨logged, ?_, ?_⟩
      · dsimp only [runInvocation]
        rw [if_pos runs, if_neg runs.1, List.append_nil, Function.update_eq_self]
        exact text
      · dsimp only [runInvocation, Campaign.carriedWith]
        rw [if_pos runs, if_neg Nat.one_ne_zero]
        exact faults
    · obtain ⟨more, appended, ended⟩ := runInvocation_logged recording
        (complete_of_parseInvocation parsed).toValid runs ⟨false, none, campaign.trace⟩
      by_cases own : invocation.outPath = path
      · subst own
        refine ⟨logged ++ [more], ?_, ?_⟩
        · dsimp only
          rw [if_neg named, Function.update_self, text, appended, List.flatMap_append,
            List.flatMap_singleton]
        · dsimp only [Campaign.carriedWith]
          rw [List.flatMap_append, List.flatMap_singleton]
          rcases ended with ⟨code, fault, isOf, single⟩ | ⟨code, none⟩
          · rw [if_pos code, List.filter_append, List.filter_cons_of_pos (by simp),
              List.filter_nil, single]
            exact List.rel_append faults (.cons isOf .nil)
          · rw [if_neg (by omega), none, List.append_nil]
            exact faults
      · refine ⟨logged, ?_, ?_⟩
        · dsimp only
          split
          · exact text
          · rw [Function.update_of_ne (Ne.symm own)]
            exact text
        · dsimp only [Campaign.carriedWith]
          split
          · rw [List.filter_append, List.filter_cons_of_neg (by simpa using own), List.filter_nil,
              List.append_nil]
            exact faults
          · exact faults

/-- Every run of command lines keeps every log so. -/
theorem Campaign.logged_of_runs (commands : List Command) {path : List Char} (named : path ≠ []) :
    (commands.foldl (Campaign.run system) .start).Logged path := by
  have start : Campaign.start.Logged path := ⟨[], rfl, .nil⟩
  generalize Campaign.start = campaign at start
  induction commands generalizing campaign with
  | nil => exact start
  | cons command commands inductionHypothesis =>
      exact inductionHypothesis _ (start.run recording named command)

end Invocations

/-! ### Reading a log back -/

/-- What invocations logged is read back as their faults, where there is any. -/
theorem parseReplayLog_logged (logged : List LoggedInvocation) (some : logged ≠ []) :
    ∃ entries, parseReplayLog (logged.flatMap LoggedInvocation.text) = .ok entries ∧
      actions entries = (logged.flatMap LoggedInvocation.faults).map Fault.entry := by
  have text : logged.flatMap LoggedInvocation.text =
      unlines (logged.flatMap LoggedInvocation.lines) := by
    clear some
    induction logged with
    | nil => rfl
    | cons invocation logged inductionHypothesis =>
        rw [List.flatMap_cons, List.flatMap_cons, inductionHypothesis, invocation.text_eq,
          unlines_append]
  have whole : ∀ line ∈ logged.flatMap LoggedInvocation.lines, line ≠ [] ∧ '\n' ∉ line := by
    intro line member
    obtain ⟨invocation, -, inside⟩ := List.mem_flatMap.mp member
    exact LoggedInvocation.mem_lines inside
  have read : ∃ entries,
      List.Forall₂ EntryFor (logged.flatMap LoggedInvocation.lines) entries ∧
      (logged ≠ [] → ∃ entry ∈ entries, entry.isHeader = true) ∧
      actions entries = (logged.flatMap LoggedInvocation.faults).map Fault.entry := by
    clear some text whole
    induction logged with
    | nil => exact ⟨[], .nil, fun none => absurd rfl none, rfl⟩
    | cons invocation logged inductionHypothesis =>
        obtain ⟨entries, read, ⟨header, member, marked⟩, faults⟩ := invocation.entries
        obtain ⟨others, readOthers, -, otherFaults⟩ := inductionHypothesis
        refine ⟨entries ++ others, List.rel_append read readOthers,
          fun _ => ⟨header, List.mem_append_left _ member, marked⟩, ?_⟩
        rw [actions] at otherFaults ⊢
        rw [List.filter_append, faults, otherFaults, List.flatMap_cons, List.map_append]
  obtain ⟨entries, lines, header, faults⟩ := read
  refine ⟨entries, parseReplayLog_eq_ok_iff.mpr ⟨?_, header some⟩, faults⟩
  rw [text, recordLines_unlines whole]
  exact lines

/-! ### Replaying a log -/

/-- A replay that succeeds passes over every action of the log. -/
theorem entries_of_replayed (system : System) (remap : List (Int × Int)) {base : Option Nat}
    {entries : List ReplayEntry} {harness : Harness}
    (replayed : (replayFrom system remap base entries harness).1 = true) :
    (replayPasses system remap base entries harness).map Pass.entry = actions entries := by
  induction entries generalizing base harness with
  | nil => rfl
  | cons entry entries inductionHypothesis =>
      rw [replayFrom] at replayed
      by_cases header : entry.isHeader = true
      · rw [if_pos header] at replayed
        rw [replayPasses_header system remap header, actions_header header]
        exact inductionHypothesis replayed
      · rw [if_neg header] at replayed
        rw [replayPasses_action system remap header, actions_action header, List.map_cons]
        dsimp only at replayed
        split_ifs at replayed with went
        have on : (Pass.done system remap ⟨base, entry, harness⟩).1 = true := went
        rw [if_pos on]
        exact congrArg _ (inductionHypothesis replayed)

/-- Whether an event is a signal. -/
def Event.isKill : Event → Bool
  | .killed _ _ _ => true
  | _ => false

/-- The signals among events, with their answers. -/
def signalsOf (events : List Event) : List Event := events.filter Event.isKill

theorem signalsOf_waitEvents (base : Option Nat) (tsNs : Nat) :
    signalsOf (waitEvents base tsNs) = [] := by
  refine List.filter_eq_nil_iff.mpr fun event member => ?_
  obtain ⟨sec, nsec, rfl⟩ := waitEvents_slept base tsNs event member
  exact Bool.false_ne_true

theorem Kills.signalsOf {target second : Int} {category : Category} {carried : Bool}
    {kills : List Event} (sent : Kills target second category carried kills) :
    signalsOf kills = kills := by
  refine List.filter_eq_self.mpr fun event member => ?_
  obtain ⟨pid, signal, failure, rfl⟩ := sent.killed event member
  rfl

/-- A pass that went on carried its entry out. -/
theorem Pass.carried (system : System) (remap : List (Int × Int)) (pass : Pass)
    (went : (pass.done system remap).1 = true) :
    ∃ category, categoryFromString pass.entry.category = some category ∧
      Kills (resolve remap pass.entry.target) (resolve remap pass.entry.secondTarget) category true
        (signalsOf (pass.events system remap)) := by
  have did := pass.passEvents system remap
  rw [went] at did
  generalize pass.events system remap = events at did
  generalize onward : true = ok at did
  cases did with
  | unknown _ => cases onward
  | failed _ _ => cases onward
  | @unrecorded category kills named sent _ =>
      refine ⟨category, named, ?_⟩
      rw [Perturb.signalsOf, List.filter_append]
      change Kills _ _ _ _ (signalsOf _ ++ signalsOf kills)
      rw [signalsOf_waitEvents, sent.signalsOf]
      exact sent
  | @recorded category kills _ _ named sent _ _ _ _ _ =>
      refine ⟨category, named, ?_⟩
      rw [Perturb.signalsOf, List.filter_append, List.filter_append]
      change Kills _ _ _ _ (signalsOf _ ++ signalsOf kills ++ [])
      rw [signalsOf_waitEvents, sent.signalsOf, List.nil_append, List.append_nil, ← onward]
      exact sent

/-- Only a double fault signals a second target. -/
theorem Kills.of_second {target second other : Int} {category : Category} {carried : Bool}
    {kills : List Event} (same : category = .doubleFault → second = other)
    (sent : Kills target second category carried kills) :
    Kills target other category carried kills := by
  cases sent with
  | single plain signal failure => exact .single plain signal failure
  | crashed => exact .crashed
  | fallback errno failure => exact .fallback errno failure
  | half errno => exact .half errno
  | both failure =>
      cases same rfl
      exact .both failure

/-- The signals of a replay are, one group behind the other, those that carry the invocations
out on the targets that theirs are mapped to. -/
def CarriesOut (remap : List (Int × Int)) (invocations : List Invocation) (events : List Event) :
    Prop :=
  ∃ groups, signalsOf events = groups.flatten ∧
    List.Forall₂ (fun (invocation : Invocation) kills =>
      Kills (resolve remap invocation.target) (resolve remap invocation.target2)
        invocation.category true kills) invocations groups

/-- The passes of a replay over the entries of invocations carry these out. -/
theorem carriesOut_of_passes (system : System) (remap : List (Int × Int)) {passes : List Pass}
    (went : ∀ pass ∈ passes, (pass.done system remap).1 = true) {invocations : List Invocation}
    {faults : List Fault} (entries : passes.map Pass.entry = faults.map Fault.entry)
    (isOf : List.Forall₂ Fault.Of invocations faults) :
    CarriesOut remap invocations (passes.flatMap (Pass.events system remap)) := by
  induction isOf generalizing passes with
  | nil =>
      obtain rfl := List.map_eq_nil_iff.mp entries
      exact ⟨[], rfl, .nil⟩
  | @cons invocation fault invocations faults isOf _ inductionHypothesis =>
      obtain ⟨pass, passes, rfl, entry, rest⟩ := List.map_eq_cons_iff.mp entries
      rw [List.forall_mem_cons] at went
      obtain ⟨groups, signals, kills⟩ := inductionHypothesis went.2 rest
      obtain ⟨category, named, sent⟩ := pass.carried system remap went.1
      rw [entry] at named sent
      obtain rfl : fault.category = category :=
        (Category.name_injective (categoryFromString_eq_some_iff.mp named))
      refine ⟨signalsOf (pass.events system remap) :: groups, ?_, .cons ?_ kills⟩
      · rw [List.flatMap_cons, signalsOf, List.filter_append, List.flatten_cons]
        exact congrArg _ signals
      · have aimed : fault.entry.target = invocation.target := isOf.target
        rw [isOf.category, aimed] at sent
        refine sent.of_second fun double => ?_
        have second : fault.entry.secondTarget = fault.second :=
          if_pos (isOf.category.trans double)
        rw [second, isOf.second double]

/-- After any campaign whose headers and records were written whole, at times below 2 ^ 63, a
log that holds anything reads back, and each replay of it that succeeds carries out the
invocations that were carried out with the log, in their order, and nothing else. -/
theorem campaign_replayed {system : System} (recording : system.Recording)
    (commands : List Command) {path : List Char} (named : path ≠ [])
    (written : (commands.foldl (Campaign.run system) .start).logs path ≠ []) :
    ∃ entries,
      parseReplayLog ((commands.foldl (Campaign.run system) .start).logs path) = .ok entries ∧
      ∀ other remap,
        (replayEntries other entries remap ⟨false, none, []⟩).1 = true →
          CarriesOut remap ((commands.foldl (Campaign.run system) .start).carriedWith path)
            (replayEntries other entries remap ⟨false, none, []⟩).2.trace := by
  obtain ⟨logged, text, isOf⟩ := Campaign.logged_of_runs recording commands named
  rw [text] at written ⊢
  have some : logged ≠ [] := by
    rintro rfl
    exact written rfl
  obtain ⟨entries, parsed, faults⟩ := parseReplayLog_logged logged some
  refine ⟨entries, parsed, fun other remap replayed => ?_⟩
  obtain ⟨trace, all⟩ := replayFrom_eq other remap none entries ⟨false, none, []⟩
  have reached := entries_of_replayed other remap replayed
  rw [replayEntries] at replayed ⊢
  rw [all, List.all_eq_true] at replayed
  rw [trace]
  exact carriesOut_of_passes other remap replayed (reached.trans faults) isOf

/-- A system that nothing stops records. -/
theorem recording_willing : System.willing.Recording :=
  ⟨fun _ _ => rfl, fun _ => Nat.two_pow_pos 63⟩

/-- A crash, a command line without a target, a stall with another log, and a double fault. -/
def threeFaults : List Command :=
  [⟨["crash".toList, targetOption, "7".toList, outOption, "log".toList], true⟩,
    ⟨["stall".toList, outOption, "log".toList], true⟩,
    ⟨["stall".toList, targetOption, "7".toList, outOption, "other".toList], true⟩,
    ⟨["double-fault".toList, targetOption, "7".toList, target2Option, "9".toList, outOption,
      "log".toList], true⟩]

theorem campaign_replayed_threeFaults :
    (threeFaults.foldl (Campaign.run .willing) .start).carriedWith "log".toList =
      [⟨.crash, 7, -1, "log".toList, []⟩, ⟨.doubleFault, 7, 9, "log".toList, []⟩] ∧
    ∃ entries, parseReplayLog
        ((threeFaults.foldl (Campaign.run .willing) .start).logs "log".toList) = .ok entries ∧
      ∀ other remap,
        (replayEntries other entries remap ⟨false, none, []⟩).1 = true →
          CarriesOut remap
            ((threeFaults.foldl (Campaign.run .willing) .start).carriedWith "log".toList)
            (replayEntries other entries remap ⟨false, none, []⟩).2.trace :=
  ⟨by decide, campaign_replayed recording_willing threeFaults (by decide) (by decide)⟩

end SafetyCrit.Perturb
