import Mathlib.Data.List.Induction
import SafetyCrit.Library.History
import SafetyCrit.SharedMemory.Ownership

/-!
Owns linearizability of the ownership cells. `Justified earlier event` says
what must already be in the history when an entry is added; `Sound` asks it of
every entry. Soundness is kept by every step, and the linearizability facts are
read off a sound history alone.
-/

namespace SafetyCrit.SharedMemory.RegionMachine

open SafetyCrit.Library
open SafetyCrit.Library.History
open SafetyCrit.Library.Run
open SafetyCrit.Library.Claims

/-! ### Sound histories -/

/-- When an entry may follow a history. -/
def Justified (earlier : List Event) : Event → Prop
  | .transferReturned call ring (some token) =>
      ∃ args, .published call args ∈ earlier ∧ args.logicalRing = ring ∧ args.replacement = token
  | .transferReturned call _ none => ∀ event ∈ earlier, event.call ≠ call
  | .ownerStored call _ => ∀ event ∈ earlier, event.call ≠ call
  | .published call args =>
      (∀ event ∈ earlier, event.call = call → event = .ownerStored call args) ∧
        args.expected = currentToken earlier args.logicalRing ∧ args.Valid
  | .readReturned _ ring (some token) => token = currentToken earlier ring
  | .validReturned _ token true => token = currentToken earlier token.logicalRing
  | _ => True

/-- Every entry was justified when it was added. -/
abbrev Sound (log : List Event) : Prop := EachJustified Justified log

/-- The successful transfers of a ring form one chain from its first token. -/
theorem Sound.chained {log : List Event} (sound : Sound log) (ring : Nat) :
    Chained (homeToken ring) (publishedOn ring log) := by
  induction log using List.reverseRecOn with
  | nil => trivial
  | append_singleton log event inductionHypothesis =>
      obtain ⟨before, justified⟩ := sound.last
      have chained := inductionHypothesis before
      rw [publishedOn_append]
      cases event with
      | published call args =>
          by_cases same : args.logicalRing = ring
          · subst same
            have last : publishedOn args.logicalRing [.published call args] = [args] := by
              simp [publishedOn]
            rw [last]
            exact chained_append chained justified.2.1 justified.2.2.replacement_epoch rfl
          · simpa [publishedOn, same] using chained
      | _ => simpa [publishedOn] using chained

/-- A call that returned false published and stored nothing. -/
theorem Sound.failed {log : List Event} (sound : Sound log) {call ring : Nat}
    (returned : .transferReturned call ring none ∈ log) (args : TransferArgs) :
    .ownerStored call args ∉ log ∧ .published call args ∉ log := by
  induction log using List.reverseRecOn with
  | nil => simp at returned
  | append_singleton log event inductionHypothesis =>
      obtain ⟨before, justified⟩ := sound.last
      simp only [List.mem_append, List.mem_singleton] at returned ⊢
      rcases returned with old | rfl
      · obtain ⟨notStored, notPublished⟩ := inductionHypothesis before old
        refine ⟨?_, ?_⟩
        · rintro (stored | rfl)
          · exact notStored stored
          · exact justified _ old rfl
        · rintro (published | rfl)
          · exact notPublished published
          · cases justified.1 _ old rfl
      · have fresh : ∀ event ∈ log, event.call ≠ call := justified
        refine ⟨?_, ?_⟩
        · rintro (stored | impossible)
          · exact fresh _ stored rfl
          · cases impossible
        · rintro (published | impossible)
          · exact fresh _ published rfl
          · cases impossible

/-- A call that returned a token published it. -/
theorem Sound.succeeded {log : List Event} (sound : Sound log) {call ring : Nat}
    {token : OwnershipToken} (returned : .transferReturned call ring (some token) ∈ log) :
    ∃ args, .published call args ∈ log ∧ args.logicalRing = ring ∧ args.replacement = token := by
  obtain ⟨earlier, later, rfl⟩ := List.append_of_mem returned
  have justified := sound earlier (.transferReturned call ring (some token)) ⟨later, by simp⟩
  obtain ⟨args, published, same⟩ := justified
  exact ⟨args, List.mem_append_left _ published, same⟩

/-- The calls that published, in order. -/
def publishedCalls (log : List Event) : List Nat :=
  log.filterMap fun
    | .published call _ => some call
    | _ => none

theorem mem_publishedCalls {log : List Event} {call : Nat} :
    call ∈ publishedCalls log ↔ ∃ args, .published call args ∈ log := by
  simp only [publishedCalls, List.mem_filterMap]
  constructor
  · rintro ⟨event, member, same⟩
    cases event with
    | published other args =>
        cases same
        exact ⟨args, member⟩
    | _ => cases same
  · rintro ⟨args, member⟩
    exact ⟨_, member, rfl⟩

@[simp] theorem publishedCalls_append (log events : List Event) :
    publishedCalls (log ++ events) = publishedCalls log ++ publishedCalls events := by
  simp [publishedCalls]

/-- A call publishes at most once. -/
theorem Sound.publishedCalls_nodup {log : List Event} (sound : Sound log) :
    (publishedCalls log).Nodup := by
  induction log using List.reverseRecOn with
  | nil => exact List.nodup_nil
  | append_singleton log event inductionHypothesis =>
      obtain ⟨before, justified⟩ := sound.last
      have nodup := inductionHypothesis before
      rw [publishedCalls_append]
      cases event with
      | published call args =>
          have last : publishedCalls [.published call args] = [call] := rfl
          rw [last, List.nodup_append_comm, List.singleton_append, List.nodup_cons]
          refine ⟨fun member => ?_, nodup⟩
          obtain ⟨other, published⟩ := mem_publishedCalls.mp member
          cases justified.1 _ published rfl
      | _ => simpa [publishedCalls] using nodup

/-! ### Progress of a transfer -/

/-- What the history says about a transfer that has not returned. -/
def Progress (log : List Event) (id : Nat) (args : TransferArgs) : TransferPc → Prop
  | .loadEpoch => ∀ event ∈ log, event.call ≠ id
  | .casEpoch => ∀ event ∈ log, event.call ≠ id
  | .casOwner => ∀ event ∈ log, event.call ≠ id
  | .restoreEpoch => ∀ event ∈ log, event.call ≠ id
  | .publishEpoch => ∀ event ∈ log, event.call = id → event = .ownerStored id args
  | .returned _ => True
  | _ => .published id args ∈ log

/-- A process's call, seen from the history. -/
def CallProgress (log : List Event) : Option Call → Prop
  | some ⟨id, .transfer args pc⟩ => Progress log id args pc
  | _ => True

/-- The entries of other calls do not matter. -/
theorem CallProgress.grow {log : List Event} {call : Option Call}
    (progress : CallProgress log call) {recorded : Option Event}
    (other : ∀ event ∈ recorded, callId call ≠ some event.call) :
    CallProgress (log ++ recorded.toList) call := by
  cases call with
  | none => trivial
  | some call =>
      obtain ⟨id, operation⟩ := call
      cases operation with
      | transfer args pc =>
          have fresh : ∀ event ∈ recorded.toList, event.call ≠ id := by
            intro event member same
            exact other event (Option.mem_toList.mp member) (congrArg some same.symm)
          have untouched : (∀ event ∈ log, event.call ≠ id) →
              ∀ event ∈ log ++ recorded.toList, event.call ≠ id := by
            intro absent event member
            rcases List.mem_append.mp member with old | new
            · exact absent event old
            · exact fresh event new
          cases pc with
          | loadEpoch => exact untouched progress
          | casEpoch => exact untouched progress
          | casOwner => exact untouched progress
          | restoreEpoch => exact untouched progress
          | publishEpoch =>
              intro event member same
              rcases List.mem_append.mp member with old | new
              · exact progress event old same
              · exact absurd same (fresh event new)
          | returned result => trivial
          | _ => exact List.mem_append_left _ progress
      | _ => trivial

/-- The history of a state is sound and in step with its calls. -/
structure History (state : State) : Prop where
  sound : Sound state.log
  progress : ∀ thread, CallProgress state.log (state.threads thread)

theorem history_start (storage : SharedRegion) : History (start storage) where
  sound := EachJustified.nil
  progress := fun _ => trivial

/-- One action of a transfer is justified and keeps its progress. -/
theorem transfer_justified {state : State} (cells : state.Cells) {thread id : Nat} (weak : Bool)
    {args : TransferArgs} {pc : TransferPc}
    (running : state.threads thread = some ⟨id, .transfer args pc⟩)
    (progress : Progress state.log id args pc) (unfinished : ∀ result, pc ≠ .returned result) :
    (∀ event ∈ (Operation.transfer args pc).event id state.region
        (.transfer args (transferStep args weak state.region pc).2), Justified state.log event) ∧
      Progress
        (state.log ++ ((Operation.transfer args pc).event id state.region
          (.transfer args (transferStep args weak state.region pc).2)).toList)
        id args (transferStep args weak state.region pc).2 := by
  -- a refusal is justified while the call has left no entry
  have refused : (∀ event ∈ state.log, event.call ≠ id) →
      ∀ event ∈ some (Event.transferReturned id args.logicalRing none),
        Justified state.log event := by
    intro fresh event member
    cases member
    exact fresh
  have silent : ∀ event ∈ (none : Option Event), Justified state.log event := by simp
  have unchanged : state.log ++ (none : Option Event).toList = state.log := by simp
  cases pc with
  | loadEpoch =>
      simp only [transferStep]
      split
      · exact ⟨refused progress, trivial⟩
      · exact ⟨silent, by
          simp only [Operation.event, Operation.outcome, unchanged]
          exact progress⟩
  | casEpoch =>
      simp only [transferStep]
      split
      · exact ⟨silent, by
          simp only [Operation.event, Operation.outcome, unchanged]
          exact progress⟩
      · exact ⟨refused progress, trivial⟩
  | casOwner =>
      simp only [transferStep]
      split
      · refine ⟨?_, ?_⟩
        · intro event member
          cases member
          exact progress
        · intro event member same
          rcases List.mem_append.mp member with old | new
          · exact absurd same (progress event old)
          · simpa [Operation.event] using new
      · exact ⟨silent, by
          simp only [Operation.event, unchanged]
          exact progress⟩
  | restoreEpoch => exact ⟨refused progress, trivial⟩
  | publishEpoch =>
      obtain ⟨expected, valid, -⟩ := RegionMachine.Cells.publish cells running
      refine ⟨?_, List.mem_append_right _ (by simp [Operation.event])⟩
      intro event member
      cases member
      exact ⟨progress, expected, valid⟩
  | returned result => exact absurd rfl (unfinished result)
  | refresh pc =>
      simp only [transferStep]
      cases (refreshStep weak state.region pc).2 with
      | returned =>
          refine ⟨?_, trivial⟩
          intro event member
          cases member
          exact ⟨args, progress, rfl, rfl⟩
      | _ => exact ⟨silent, List.mem_append_left _ progress⟩
  | loadTail => exact ⟨silent, List.mem_append_left _ progress⟩
  | loadHead tail =>
      simp only [transferStep]
      split <;> exact ⟨silent, List.mem_append_left _ progress⟩
  | loadSequence tail =>
      simp only [transferStep]
      split <;> exact ⟨silent, List.mem_append_left _ progress⟩
  | casTail tail =>
      simp only [transferStep]
      split <;> exact ⟨silent, List.mem_append_left _ progress⟩

/-- What a reader returns is justified. -/
theorem read_justified {state : State} (cells : state.Cells) {ring : Nat} {pc : ReadPc}
    (facts : ReaderFacts ring (currentToken state.log ring)
      (Claimed publishingOf state.threads ring) pc)
    (unfinished : ∀ result, pc ≠ .returned result) {result : Option OwnershipToken}
    (returned : readStep ring state.region pc = .returned result) :
    ∀ token, result = some token → token = currentToken state.log ring ∧
      token.logicalRing = ring := by
  rintro token rfl
  have current := (RegionMachine.Cells.read cells rfl facts).2 token unfinished returned
  have below : ring < kMaxWorkers := by
    cases pc with
    | loadEpoch => exact facts
    | loadOwner epoch => exact facts.1
    | recheck epoch ownerWord => exact facts.1
    | returned other => exact absurd rfl (unfinished other)
  exact ⟨current, by rw [current, (RegionMachine.Cells.wellFormed cells ring below).ring]⟩

theorem callProgress_update {threads : Nat → Option Call} {log : List Event} {thread : Nat}
    {next : Option Call} (others : ∀ other, other ≠ thread → CallProgress log (threads other))
    (mine : CallProgress log next) (any : Nat) :
    CallProgress log (Function.update threads thread next any) := by
  by_cases same : any = thread
  · subst same
    simpa using mine
  · simpa [same] using others any same

theorem History.enter {state : State} (history : History state) (numbered : Numbered state)
    (thread : Nat) (request : Request) : History (state.enter thread request) where
  sound := by
    refine history.sound.append fun event recorded => ?_
    rcases Request.enter_outcome recorded with rfl | ⟨ring, rfl⟩ | ⟨ring, rfl⟩ | ⟨token, rfl⟩
    · trivial
    · exact fun event member => Nat.ne_of_lt (numbered.past event member)
    · trivial
    · trivial
  progress := by
    refine callProgress_update (fun other _ => ?_) ?_
    · refine (history.progress other).grow fun event recorded same => ?_
      rw [outcome_call recorded] at same
      exact absurd (numbered.used other _ same) (Nat.lt_irrefl _)
    · cases request with
      | transfer args =>
          by_cases valid : args.Valid
          · have entered : (Request.transfer args).enter = .transfer args .loadEpoch := by
              simp only [Request.enter, TransferPc.enter, if_pos valid]
            simp only [State.enter, entered]
            intro event member
            refine Nat.ne_of_lt (numbered.past event ?_)
            simpa [Operation.outcome] using member
          · have refused : (Request.transfer args).enter = .transfer args (.returned none) := by
              simp only [Request.enter, TransferPc.enter, if_neg valid]
            rw [refused]
            trivial
      | _ => trivial

theorem History.advance {state : State} (history : History state) (cells : state.Cells)
    (numbered : Numbered state) {thread : Nat} {call : Call} (weak : Bool)
    (running : state.threads thread = some call) (unfinished : call.operation.done = false) :
    History (state.advance thread weak call) := by
  have facts := RegionMachine.Cells.facts cells thread
  have progress := history.progress thread
  rw [running] at facts progress
  -- entries of this call concern no other process
  have others : ∀ other, other ≠ thread →
      CallProgress (state.advance thread weak call).log (state.threads other) := by
    intro other different
    refine (history.progress other).grow fun event recorded same => ?_
    rw [event_call recorded] at same
    exact different (numbered.distinct other thread _ same (by rw [running]; rfl))
  obtain ⟨id, operation⟩ := call
  cases operation with
  | push workerIdx args pc =>
      refine ⟨history.sound.append fun event recorded => ?_, callProgress_update others trivial⟩
      rcases event_cases recorded with
        ⟨_, _, _, -, rfl⟩ | ⟨_, _, -, rfl⟩ | ⟨_, impossible, -⟩ | ⟨_, impossible, -⟩ | returned
      · trivial
      · trivial
      · cases impossible
      · cases impossible
      · simp only [Operation.step, Operation.outcome] at returned
        split at returned <;> first | trivial | cases returned
        trivial
  | pop workerIdx size pc =>
      refine ⟨history.sound.append fun event recorded => ?_, callProgress_update others trivial⟩
      cases recorded
  | transfer args pc =>
      obtain ⟨justified, kept⟩ := transfer_justified cells weak running progress (by
        rintro result rfl
        cases unfinished)
      exact ⟨history.sound.append justified, callProgress_update others kept⟩
  | read ring pc =>
      refine ⟨history.sound.append fun event recorded => ?_, callProgress_update others trivial⟩
      cases next : readStep ring state.region pc with
      | returned result =>
          simp only [Operation.step, Operation.event, Operation.outcome, next] at recorded
          cases recorded
          have returned := read_justified cells facts (by
            rintro other rfl
            cases unfinished) next
          cases result with
          | none => trivial
          | some token => exact (returned token rfl).1
      | _ =>
          simp only [Operation.step, Operation.event, Operation.outcome, next] at recorded
          cases recorded
  | valid token pc =>
      refine ⟨history.sound.append fun event recorded => ?_, callProgress_update others trivial⟩
      cases next : readStep token.logicalRing state.region pc with
      | returned result =>
          simp only [Operation.step, Operation.event, Operation.outcome, next] at recorded
          cases recorded
          have returned := read_justified cells facts (by
            rintro other rfl
            cases unfinished) next
          cases result with
          | none => trivial
          | some current =>
              obtain ⟨same, ring⟩ := returned current rfl
              cases agrees : tokenMatches token (some current) with
              | false => trivial
              | true =>
                  simp only [tokenMatches, decide_eq_true_eq] at agrees
                  obtain ⟨owner, generation, epoch⟩ := agrees
                  cases token
                  cases current
                  simp_all [Justified]
      | _ =>
          simp only [Operation.step, Operation.event, Operation.outcome, next] at recorded
          cases recorded

theorem History.finish {state : State} (history : History state) (thread : Nat) :
    History (state.finish thread) :=
  ⟨history.sound, callProgress_update (fun other _ => history.progress other) trivial⟩

/-! ### Runs -/

/-- What every reachable state satisfies. -/
structure Invariant (state : State) : Prop where
  numbered : Numbered state
  cells : state.Cells
  history : History state

theorem cells_start (storage : SharedRegion) : (start storage).Cells where
  oneWindow := by
    intro left right ring window
    cases window
  wellFormed := fun _ below => wellFormed_homeToken below
  named := by
    intro ring below
    simp only [start, freshRegion_ringOwnership storage below]
    rfl
  free := by
    intro ring below _
    simp only [start, freshRegion_ringOwnership storage below]
    exact ⟨rfl, rfl⟩
  facts := fun _ => trivial

theorem invariant_apply {state : State} (invariant : Invariant state) (label : Label) :
    Invariant (apply state label) where
  numbered := numbered_apply invariant.numbered label
  cells := cells_apply invariant.cells label
  history := apply_induction (motive := History) label invariant.history
    (fun thread request _ => invariant.history.enter invariant.numbered thread request)
    (fun _ weak _ running unfinished =>
      invariant.history.advance invariant.cells invariant.numbered weak running unfinished)
    (fun thread _ _ _ => invariant.history.finish thread)

theorem reachable_invariant {storage : SharedRegion} {state : State}
    (reach : Reachable (ByLabel apply) (start storage) state) : Invariant state := by
  refine reach.invariant ⟨numbered_start storage, cells_start storage, history_start storage⟩ ?_
  rintro before after - invariant ⟨label, rfl⟩
  exact invariant_apply invariant label

/-- The ownership cell of a ring, read off one state and its history. -/
structure Linearizable (ring : Nat) (state : State) : Prop where
  /-- The successful transfers form one chain. -/
  chain : Chained (homeToken ring) (publishedOn ring state.log)
  /-- At most one transfer succeeds per token. -/
  oncePerToken : ((publishedOn ring state.log).map TransferArgs.expected).Nodup
  /-- A transfer that returns a token is one link of the chain. -/
  succeeded : ∀ call token, .transferReturned call ring (some token) ∈ state.log →
    (publishedCalls state.log).count call = 1 ∧
      ∃ args, .published call args ∈ state.log ∧ args.logicalRing = ring ∧
        args.replacement = token
  /-- A transfer that returns false stored no owner word and published no
  epoch. -/
  failed : ∀ call, .transferReturned call ring none ∈ state.log → ∀ args,
    .ownerStored call args ∉ state.log ∧ .published call args ∉ state.log
  /-- With nobody in the window, the cell holds the last link of the chain: the
  transfers that failed have left no trace in either word. -/
  settled : ¬ Claimed windowOf state.threads ring →
    state.region.ringOwnership ring = cellOf (currentToken state.log ring)
  /-- Somebody in the window is alone there, and the epoch is one above the
  chain's. -/
  locked : ∀ left right, windowOf (state.threads left) = some ring →
    windowOf (state.threads right) = some ring → left = right ∧
      (state.region.ringOwnership ring).epoch = (currentToken state.log ring).epoch + 1
  /-- A token `read_ownership` returns is current at its last load. -/
  reads : ∀ earlier call token, earlier ++ [.readReturned call ring (some token)] <+: state.log →
    token = currentToken earlier ring
  /-- `ownership_valid` says yes to no token that a transfer has superseded. -/
  stale : ∀ earlier call token superseder args, token.logicalRing = ring →
    earlier ++ [.validReturned call token true] <+: state.log →
      .published superseder args ∈ earlier → args.expected ≠ token

theorem mem_publishedOn {ring : Nat} {log : List Event} {args : TransferArgs} :
    args ∈ publishedOn ring log ↔
      args.logicalRing = ring ∧ ∃ call, .published call args ∈ log := by
  simp only [publishedOn, List.mem_filterMap]
  constructor
  · rintro ⟨event, member, same⟩
    cases event with
    | published call other =>
        simp only [Option.ite_none_right_eq_some] at same
        obtain ⟨onRing, equal⟩ := same
        cases equal
        exact ⟨onRing, call, member⟩
    | _ => cases same
  · rintro ⟨onRing, call, member⟩
    exact ⟨_, member, by simp [onRing]⟩

/-- Any number of processes transfer and read the ownership of a ring; its cell
is linearizable. -/
theorem ownership_linearizable (storage : SharedRegion) (state : State)
    (reach : Reachable (ByLabel apply) (start storage) state) (ring : Nat)
    (below : ring < kMaxWorkers) : Linearizable ring state := by
  have invariant := reachable_invariant reach
  have sound := invariant.history.sound
  have cells := invariant.cells
  have chained := sound.chained ring
  exact
  { chain := chained
    oncePerToken := by
      have distinct : ((publishedOn ring state.log).map fun args => args.expected.epoch).Nodup :=
        (chained_epochs chained).2.2.imp fun less => Nat.ne_of_lt less
      have split : ((publishedOn ring state.log).map fun args => args.expected.epoch) =
          ((publishedOn ring state.log).map TransferArgs.expected).map OwnershipToken.epoch := by
        rw [List.map_map]
        rfl
      rw [split] at distinct
      exact distinct.of_map _
    succeeded := by
      intro call token returned
      obtain ⟨args, published, same⟩ := sound.succeeded returned
      exact ⟨List.count_eq_one_of_mem sound.publishedCalls_nodup
        (mem_publishedCalls.mpr ⟨args, published⟩), args, published, same⟩
    failed := fun call returned => sound.failed returned
    settled := RegionMachine.Cells.settled cells below
    locked := by
      intro left right leftWindow rightWindow
      exact ⟨RegionMachine.Cells.oneWindow cells left right ring leftWindow rightWindow,
        (RegionMachine.Cells.odd cells ⟨left, leftWindow⟩).2.1⟩
    reads := fun earlier call token inside => sound earlier _ inside
    stale := by
      intro earlier call token superseder args onRing inside published equal
      have current : token = currentToken earlier token.logicalRing := sound earlier _ inside
      have before : Sound earlier := sound.initial ((List.prefix_append _ _).trans inside)
      -- the superseding transfer is in the chain of the ring its token names
      have member : args ∈ publishedOn args.logicalRing earlier :=
        mem_publishedOn.mpr ⟨rfl, superseder, published⟩
      obtain ⟨-, tokenRing, passed⟩ :=
        (chained_epochs (before.chained args.logicalRing)).1 args member
      have sameRing : args.logicalRing = token.logicalRing := by
        rw [← equal]
        exact tokenRing.symm
      rw [sameRing, equal] at passed
      change token.epoch < (currentToken earlier token.logicalRing).epoch at passed
      rw [← current] at passed
      exact absurd passed (Nat.lt_irrefl _) }

/-- Two transfers race for the first token of ring 0 while a reader looks on.
The reader meets the odd epoch, the second transfer loses at its
compare-exchange. -/
def racingTransfers : List Label :=
  [.start 0 (.transfer ⟨0, homeToken 0, 2#32, 1#32⟩),
    .start 1 (.transfer ⟨0, homeToken 0, 1#32, 5#32⟩), .start 2 (.read 0),
    .advance 0 false, .advance 1 false, .advance 0 false, .advance 2 false, .advance 1 false,
    .advance 0 false, .advance 0 false, .finish 2, .start 2 (.valid (homeToken 0)),
    .advance 2 false, .advance 2 false, .advance 2 false]

theorem ownership_linearizable_racingTransfers :
    let state := racingTransfers.foldl apply (start zeroed)
    publishedOn 0 state.log = [⟨0, homeToken 0, 2#32, 1#32⟩] ∧
      .transferReturned 1 0 none ∈ state.log ∧ .readReturned 2 0 none ∈ state.log ∧
      .validReturned 3 (homeToken 0) false ∈ state.log ∧ Linearizable 0 state := by
  intro state
  have entries : publishedOn 0 state.log = [⟨0, homeToken 0, 2#32, 1#32⟩] ∧
      .transferReturned 1 0 none ∈ state.log ∧ .readReturned 2 0 none ∈ state.log ∧
      .validReturned 3 (homeToken 0) false ∈ state.log := by
    simp only [state, start_zeroed]
    decide +kernel
  obtain ⟨published, lost, unread, superseded⟩ := entries
  exact ⟨published, lost, unread, superseded,
    ownership_linearizable zeroed state (reachable_foldl _ _) 0 (by decide)⟩

end SafetyCrit.SharedMemory.RegionMachine
