import SafetyCrit.Observability.EventFields
import SafetyCrit.Perturb.ReplayRoundTrip

/-!
Owns one invocation of the harness: `parse_invocation` over the arguments of the command
line, and `run_invocation`, with the text it appends to the replay log and the record it
appends to the event log.
-/

namespace SafetyCrit.Perturb

open SafetyCrit.Library.Decimal SafetyCrit.Library.FlatFields
open SafetyCrit.Observability (Report ExtraFields)

/-! ### The command line -/

/-- `Invocation`. -/
structure Invocation where
  category : Category
  target : Int
  target2 : Int
  outPath : List Char
  eventLogPath : List Char
deriving DecidableEq, Repr

/-- The range of `pid_t`, above zero. -/
def IsPidT (pid : Int) : Prop := 0 < pid ∧ pid < 2 ^ 31

instance (pid : Int) : Decidable (IsPidT pid) := inferInstanceAs (Decidable (_ ∧ _))

/-- `parse_pid`: the whole text is a number that is a positive `pid_t`. -/
def parsePid (text : List Char) : Option Int :=
  match fromChars text with
  | some (value, []) => if IsPidT value then some value else none
  | _ => none

/-- The options, by name. -/
def targetOption : List Char := "--target".toList
def target2Option : List Char := "--target2".toList
def outOption : List Char := "--out".toList
def eventLogOption : List Char := "--event-log".toList

/-- The variables of the loop of `parse_invocation`. -/
structure Parsing where
  out : Invocation
  targetSeen : Bool
  target2Seen : Bool
deriving DecidableEq, Repr

/-- The loop of `parse_invocation`. -/
def parseOptions : List (List Char) → Parsing → Except (List Char) Parsing
  | [], parsing => .ok parsing
  | arg :: rest, parsing =>
      if arg = targetOption then
        match rest with
        | [] => .error "perturb: --target requires a positive integer pid".toList
        | value :: rest =>
            match parsePid value with
            | none => .error "perturb: --target requires a positive integer pid".toList
            | some pid =>
                parseOptions rest
                  { parsing with out := { parsing.out with target := pid }, targetSeen := true }
      else if arg = target2Option then
        match rest with
        | [] => .error "perturb: --target2 requires a positive integer pid".toList
        | value :: rest =>
            match parsePid value with
            | none => .error "perturb: --target2 requires a positive integer pid".toList
            | some pid =>
                parseOptions rest
                  { parsing with out := { parsing.out with target2 := pid }, target2Seen := true }
      else if arg = outOption then
        match rest with
        | [] => .error "perturb: --out requires a file path".toList
        | [] :: _ => .error "perturb: --out requires a file path".toList
        | value :: rest =>
            parseOptions rest { parsing with out := { parsing.out with outPath := value } }
      else if arg = eventLogOption then
        match rest with
        | [] => .error "perturb: --event-log requires a file path".toList
        | [] :: _ => .error "perturb: --event-log requires a file path".toList
        | value :: rest =>
            parseOptions rest { parsing with out := { parsing.out with eventLogPath := value } }
      else .error ("perturb: unknown argument: ".toList ++ arg)

/-- The error of a first argument that is no category. -/
def unknownCategory : List Char :=
  ("perturb: unknown or missing category (crash|stall|recover-stall|corrupt|" ++
    "double-fault|supervisor-kill|supervisor-exit)").toList

/-- `parse_invocation`. -/
def parseInvocation : List (List Char) → Except (List Char) Invocation
  | [] => .error unknownCategory
  | name :: options =>
      match categoryFromString name with
      | none => .error unknownCategory
      | some category =>
          match parseOptions options ⟨⟨category, -1, -1, [], []⟩, false, false⟩ with
          | .error message => .error message
          | .ok parsing =>
              if ¬ parsing.targetSeen then .error "perturb: --target is required".toList
              else if parsing.out.category = .doubleFault ∧ ¬ parsing.target2Seen then
                .error "perturb: double-fault requires --target2".toList
              else .ok parsing.out

/-! ### What is accepted -/

/-- An invocation that the parser can return. -/
structure Invocation.Valid (invocation : Invocation) : Prop where
  aimed : IsPidT invocation.target
  aimedSecond : invocation.category = .doubleFault → IsPidT invocation.target2

/-- A second target is a positive `pid_t` or missing, and a double fault has one. -/
structure Invocation.Complete (invocation : Invocation) : Prop extends invocation.Valid where
  given : invocation.target2 = -1 ∨ IsPidT invocation.target2

/-- What was seen was a positive `pid_t`, and what was not is as it began. -/
structure Parsing.Sound (parsing : Parsing) : Prop where
  target : parsing.targetSeen = true → IsPidT parsing.out.target
  target2 : parsing.target2Seen = true → IsPidT parsing.out.target2
  unseen : parsing.target2Seen = false → parsing.out.target2 = -1

theorem isPidT_of_parsePid {text : List Char} {pid : Int} (read : parsePid text = some pid) :
    IsPidT pid := by
  unfold parsePid at read
  split at read
  · next value _ =>
    split at read
    · next inRange =>
      obtain rfl := Option.some.inj read
      exact inRange
    · cases read
  · cases read

theorem Parsing.Sound.parseOptions {parsing result : Parsing} (sound : parsing.Sound)
    (options : List (List Char)) (parsed : parseOptions options parsing = .ok result) :
    result.Sound := by
  fun_induction Perturb.parseOptions options parsing with
  | case1 parsing =>
      cases parsed
      exact sound
  | case4 parsing value rest pid read inductionHypothesis =>
      exact inductionHypothesis
        ⟨fun _ => isPidT_of_parsePid read, sound.target2, sound.unseen⟩ parsed
  | case7 parsing value rest pid read _ inductionHypothesis =>
      exact inductionHypothesis
        ⟨sound.target, fun _ => isPidT_of_parsePid read, fun unseen => Bool.noConfusion unseen⟩
        parsed
  | case10 parsing value rest _ _ _ inductionHypothesis =>
      exact inductionHypothesis ⟨sound.target, sound.target2, sound.unseen⟩ parsed
  | case13 parsing value rest _ _ _ _ inductionHypothesis =>
      exact inductionHypothesis ⟨sound.target, sound.target2, sound.unseen⟩ parsed
  | _ => cases parsed

theorem complete_of_parseInvocation {argv : List (List Char)} {invocation : Invocation}
    (parsed : parseInvocation argv = .ok invocation) : invocation.Complete := by
  unfold parseInvocation at parsed
  split at parsed
  · cases parsed
  · split at parsed
    · cases parsed
    · next category named =>
      split at parsed
      · cases parsed
      · next parsing read =>
        have unseen : Parsing.Sound ⟨⟨category, -1, -1, [], []⟩, false, false⟩ :=
          ⟨fun seen => Bool.noConfusion seen, fun seen => Bool.noConfusion seen, fun _ => rfl⟩
        have sound : parsing.Sound := unseen.parseOptions _ read
        split_ifs at parsed with targetSeen target2Seen
        cases parsed
        refine ⟨⟨sound.target (by simpa using targetSeen), fun double => ?_⟩, ?_⟩
        · exact sound.target2 (by simpa [double] using target2Seen)
        · cases seen : parsing.target2Seen with
          | false => exact Or.inl (sound.unseen seen)
          | true => exact Or.inr (sound.target2 seen)

/-! ### The command line of an invocation -/

/-- An option with a path, where there is one. -/
def pathArguments (option path : List Char) : List (List Char) :=
  if path = [] then [] else [option, path]

/-- The arguments that stand for an invocation. -/
def Invocation.arguments (invocation : Invocation) : List (List Char) :=
  invocation.category.name :: targetOption :: printInt invocation.target ::
    ((if invocation.target2 = -1 then [] else [target2Option, printInt invocation.target2]) ++
      (pathArguments outOption invocation.outPath ++
        (pathArguments eventLogOption invocation.eventLogPath ++ [])))

theorem parsePid_printInt {pid : Int} (isPid : IsPidT pid) :
    parsePid (printInt pid) = some pid := by
  have range : Int64Range pid := by
    obtain ⟨low, high⟩ := isPid
    exact ⟨by omega, by omega⟩
  have read : fromChars (printInt pid ++ []) = some (pid, []) :=
    fromChars_printInt range fun symbol head => by cases head
  rw [List.append_nil] at read
  unfold parsePid
  rw [read]
  exact if_pos isPid

section Options

variable {pid : Int} (rest : List (List Char)) (parsing : Parsing)

theorem parseOptions_target (isPid : IsPidT pid) :
    parseOptions (targetOption :: printInt pid :: rest) parsing =
      parseOptions rest
        { parsing with out := { parsing.out with target := pid }, targetSeen := true } := by
  rw [parseOptions, if_pos rfl]
  simp only [parsePid_printInt isPid]

theorem parseOptions_target2 (isPid : IsPidT pid) :
    parseOptions (target2Option :: printInt pid :: rest) parsing =
      parseOptions rest
        { parsing with out := { parsing.out with target2 := pid }, target2Seen := true } := by
  rw [parseOptions, if_neg (by decide), if_pos rfl]
  simp only [parsePid_printInt isPid]

theorem parseOptions_out (path : List Char) :
    parseOptions (pathArguments outOption path ++ rest) parsing =
      parseOptions rest { parsing with out := { parsing.out with
        outPath := if path = [] then parsing.out.outPath else path } } := by
  cases path with
  | nil => rfl
  | cons symbol path =>
      rw [pathArguments, if_neg (List.cons_ne_nil symbol path), List.cons_append, List.cons_append,
        parseOptions.eq_def]
      dsimp only
      rw [if_neg (by decide), if_neg (by decide), if_pos rfl,
        if_neg (List.cons_ne_nil symbol path)]
      rfl

theorem parseOptions_eventLog (path : List Char) :
    parseOptions (pathArguments eventLogOption path ++ rest) parsing =
      parseOptions rest { parsing with out := { parsing.out with
        eventLogPath := if path = [] then parsing.out.eventLogPath else path } } := by
  cases path with
  | nil => rfl
  | cons symbol path =>
      rw [pathArguments, if_neg (List.cons_ne_nil symbol path), List.cons_append, List.cons_append,
        parseOptions.eq_def]
      dsimp only
      rw [if_neg (by decide), if_neg (by decide), if_neg (by decide), if_pos rfl,
        if_neg (List.cons_ne_nil symbol path)]
      rfl

end Options

theorem ite_nil_self (path : List Char) : (if path = [] then [] else path) = path := by
  split
  · next empty => exact empty.symm
  · rfl

/-- Every complete invocation has a command line. -/
theorem parseInvocation_arguments {invocation : Invocation} (complete : invocation.Complete) :
    parseInvocation invocation.arguments = .ok invocation := by
  obtain ⟨category, target, target2, out, eventLog⟩ := invocation
  obtain ⟨⟨aimed, aimedSecond⟩, given⟩ := complete
  change IsPidT target at aimed
  change category = .doubleFault → IsPidT target2 at aimedSecond
  change target2 = -1 ∨ IsPidT target2 at given
  have named : categoryFromString category.name = some category :=
    categoryFromString_eq_some_iff.mpr rfl
  unfold Invocation.arguments parseInvocation
  dsimp only
  rw [named]
  dsimp only
  rw [parseOptions_target _ _ aimed]
  by_cases missing : target2 = -1
  · have single : category ≠ .doubleFault := fun double => by
      have := (aimedSecond double).1
      omega
    rw [if_pos missing, List.nil_append, parseOptions_out, parseOptions_eventLog, parseOptions]
    dsimp only
    rw [if_neg (not_not.mpr rfl), if_neg fun both => single both.1, ite_nil_self, ite_nil_self,
      missing]
  · have isPid : IsPidT target2 := given.resolve_left missing
    rw [if_neg missing, List.cons_append, List.singleton_append, parseOptions_target2 _ _ isPid,
      parseOptions_out, parseOptions_eventLog, parseOptions]
    dsimp only
    rw [if_neg (not_not.mpr rfl), if_neg fun both => both.2 rfl, ite_nil_self, ite_nil_self]

/-- The parser returns the complete invocations and no other, and it returns one for the
command line that spells it out. -/
theorem parseInvocation_ok_iff_complete (invocation : Invocation) :
    ((∃ argv, parseInvocation argv = .ok invocation) ↔ invocation.Complete) ∧
      (parseInvocation invocation.arguments = .ok invocation ↔ invocation.Complete) := by
  refine ⟨⟨fun some_ => ?_, fun complete => ?_⟩, complete_of_parseInvocation,
    parseInvocation_arguments⟩
  · obtain ⟨argv, parsed⟩ := some_
    exact complete_of_parseInvocation parsed
  · exact ⟨invocation.arguments, parseInvocation_arguments complete⟩

/-! ### Running an invocation -/

/-- The categories that `perturbation_count_total` counts. -/
def counted (category : Category) : Bool :=
  category = .crash ∨ category = .stall ∨ category = .corrupt ∨ category = .doubleFault

/-- The record of `run_invocation` for the event log. -/
def Invocation.report (invocation : Invocation) : Report :=
  ⟨.info, "perturbation_applied".toList,
    "\"category\":\"".toList ++ invocation.category.name ++ "\",\"target\":".toList ++
      printInt invocation.target,
    [⟨true, "category".toList, invocation.category.name⟩,
      ⟨false, "target".toList, printInt invocation.target⟩]⟩

/-- The lines of the records that were written whole. -/
def writtenLines (events : List Event) : List Char :=
  events.flatMap fun event =>
    match event with
    | .recorded record true => formatRecordLine record
    | _ => []

/-- What `run_invocation` leaves: its exit code, the harness, what it appended to the replay
log, and what it appends to the event log. -/
structure Outcome where
  code : Nat
  harness : Harness
  text : List Char
  report : Option Report

/-- `run_invocation`; `opens` is whether the replay log can be opened, and its header is
written whole. -/
def runInvocation (system : System) (opens : Bool) (invocation : Invocation) (before : Harness) :
    Outcome :=
  if invocation.outPath ≠ [] ∧ ¬ opens then ⟨1, before, [], none⟩
  else
    let header := headerLine (system.clock before.trace)
    let done := perform system invocation.category invocation.target invocation.target2
      { before with sink := true }
    let harness := { done.2 with sink := false }
    let text := header ++ writtenLines (done.2.trace.drop before.trace.length)
    if ¬ done.1 then ⟨1, harness, text, none⟩
    else
      ⟨0, harness, text,
        if invocation.eventLogPath ≠ [] ∧ counted invocation.category then some invocation.report
        else none⟩

theorem Invocation.extraFields (invocation : Invocation) :
    ExtraFields invocation.report.fields := by
  have named : invocation.report.fields.map Field.name =
      ["category".toList, "target".toList] := rfl
  refine .of_plain _ named (by decide) ?_
  have name : invocation.category.name.all Observability.isPlain = true := by
    cases invocation.category <;> decide
  simp only [report, List.forall_mem_cons, List.not_mem_nil, false_implies, implies_true, and_true]
  exact ⟨name, Observability.plain_printInt _⟩

/-- The event log takes the record of every valid invocation. -/
theorem Invocation.Valid.report {invocation : Invocation} (valid : invocation.Valid) :
    invocation.report.Sound where
  event := (by decide : Observability.isValidComponent "perturbation_applied".toList = true)
  short := (by decide : "perturbation_applied".toList.length ≤ 32)
  built := by
    have opening : "\"category\":\"".toList = key true "category".toList := by decide
    have middle : "\",\"target\":".toList = '"' :: ',' :: key false "target".toList := by decide
    change _ ++ _ ++ _ ++ _ = joined [_, _] []
    rw [opening, middle]
    simp [joined, Field.text, Field.body]
  narrow := by
    have range : Int64Range invocation.target := by
      obtain ⟨low, high⟩ := valid.aimed
      exact ⟨by omega, by omega⟩
    have digits := length_printInt_word range
    have name : invocation.category.name.length ≤ 15 := by cases invocation.category <;> decide
    have literals : "\"category\":\"".toList.length = 12 ∧ "\",\"target\":".toList.length = 11 := by
      decide
    change (_ ++ _ ++ _ ++ _ : List Char).length ≤ 512
    rw [List.length_append, List.length_append, List.length_append, literals.1, literals.2]
    omega
  fields := invocation.extraFields

end SafetyCrit.Perturb
