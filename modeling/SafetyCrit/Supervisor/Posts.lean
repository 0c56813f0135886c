import SafetyCrit.SharedMemory.OwnershipHistory
import SafetyCrit.Supervisor.Staffing

/-!
Owns what holds between the tokens, the calls of the processes and the
supervisor's thread along a run.

A token changes only while nobody of the physical worker it names is alive, so
what a live process has acknowledged stays true until it ends.
-/

namespace SafetyCrit.Supervisor.MainLoop

open SafetyCrit.Library.Run
open SafetyCrit.Library.Claims
open SafetyCrit.SharedMemory
open SafetyCrit.SharedMemory.RegionMachine (Operation Call currentToken tokens_apply tokens_start
  tokens_finish threads_start threads_finish cells_apply apply_threads apply_call apply_request
  windowOf windowOf_transfer WellFormed)
open SafetyCrit.Workers

/-! ### Who owns what -/

/-- Rings stay with their home worker until they go to the standby, and at most
one of them does. -/
structure Assigned (tokens : Nat → OwnershipToken) : Prop where
  home : ∀ ring, ring < kStandbyPhysical → (tokens ring).physicalOwner.toNat = ring ∨
    (tokens ring).physicalOwner.toNat = kStandbyPhysical
  standby : (tokens kStandbyPhysical).physicalOwner.toNat = kStandbyPhysical
  once : ∀ left right, left < kStandbyPhysical → right < kStandbyPhysical →
    (tokens left).physicalOwner.toNat = kStandbyPhysical →
    (tokens right).physicalOwner.toNat = kStandbyPhysical → left = right

/-- The transfers recovery makes: a crashed worker's home ring goes to the
standby while no other ring is there. -/
structure Promotes (tokens : Nat → OwnershipToken) (physicalWorker : Nat) (args : TransferArgs) :
    Prop where
  ring : args.logicalRing = physicalWorker
  hot : physicalWorker < kStandbyPhysical
  expected : args.expected.physicalOwner.toNat = physicalWorker
  owner : args.newPhysicalOwner = BitVec.ofNat 32 kStandbyPhysical
  generation : args.newProcessGeneration = 1#32
  free : ∀ other, other < kStandbyPhysical → other ≠ physicalWorker →
    (tokens other).physicalOwner.toNat ≠ kStandbyPhysical
  pending : tokens physicalWorker = args.expected ∨ tokens physicalWorker = args.replacement

section Tokens

variable {region : SharedRegion} {tokens : Nat → OwnershipToken}

theorem standbyBusy_iff
    (reads : ∀ ring, ring < kMaxWorkers → readOwnership region ring = some (tokens ring)) :
    standbyBusy region = true ↔ ∃ ring, ring < kStandbyPhysical ∧
      (tokens ring).physicalOwner.toNat = kStandbyPhysical := by
  have three : List.range kMaxWorkers = [0, 1, 2] := rfl
  unfold standbyBusy
  rw [ownedLogicalRing_tokens reads, three]
  by_cases zero : (tokens 0).physicalOwner.toNat = kStandbyPhysical
  · simp only [List.find?_cons, zero, decide_true]
    exact ⟨fun _ => ⟨0, by decide, zero⟩, fun _ => by decide⟩
  · by_cases one : (tokens 1).physicalOwner.toNat = kStandbyPhysical
    · simp only [List.find?_cons, zero, one, decide_true, decide_false]
      exact ⟨fun _ => ⟨1, by decide, one⟩, fun _ => by decide⟩
    · have none' : ¬ ∃ ring, ring < kStandbyPhysical ∧
          (tokens ring).physicalOwner.toNat = kStandbyPhysical := by
        rintro ⟨ring, hot, owner⟩
        unfold kStandbyPhysical at hot
        interval_cases ring
        · exact zero owner
        · exact one owner
      simp only [List.find?_cons, List.find?_nil, zero, one, decide_false, none', iff_false]
      cases decide ((tokens 2).physicalOwner.toNat = kStandbyPhysical) <;> decide

theorem ownedLogicalRing_lt {physicalWorker logical : Nat}
    (owned : ownedLogicalRing region physicalWorker = some logical) : logical < kMaxWorkers :=
  List.mem_range.mp (List.mem_of_find?_eq_some owned)

/-- The ring a worker that is not the standby owns is its home ring. -/
theorem Assigned.owned_home (assigned : Assigned tokens) {logical physicalWorker : Nat}
    (below : logical < kMaxWorkers) (owner : (tokens logical).physicalOwner.toNat = physicalWorker)
    (other : physicalWorker ≠ kStandbyPhysical) :
    logical = physicalWorker ∧ physicalWorker < kStandbyPhysical := by
  have hot : logical < kStandbyPhysical := by
    have notLast : logical ≠ kStandbyPhysical := by
      rintro rfl
      exact other (owner.symm.trans assigned.standby)
    unfold kMaxWorkers at below
    unfold kStandbyPhysical at notLast ⊢
    omega
  rcases assigned.home logical hot with home | moved
  · rw [home] at owner
    exact ⟨owner, owner ▸ hot⟩
  · exact absurd (owner.symm.trans moved) other

/-- What recovery's decision to transfer says. -/
theorem promotes_of_plan
    (reads : ∀ ring, ring < kMaxWorkers → readOwnership region ring = some (tokens ring))
    (assigned : Assigned tokens) {roster : Roster} {physicalWorker : Nat} {args : TransferArgs}
    (vacant : servers roster.children physicalWorker = [])
    (plan : planRecovery region roster physicalWorker = .transfer args) :
    Promotes tokens physicalWorker args := by
  rcases planRecovery_cases region roster physicalWorker with
    ⟨-, other⟩ | other | ⟨logical, expected, owned, read, owner, decided⟩
  · rw [other] at plan
    cases plan
  · rw [other] at plan
    cases plan
  rw [decided] at plan
  split at plan
  · next ready =>
    cases plan
    have below := ownedLogicalRing_lt owned
    obtain rfl : tokens logical = expected := Option.some.inj ((reads logical below).symm.trans read)
    have notStandby : physicalWorker ≠ kStandbyPhysical := by
      rintro rfl
      have nobody : findWorker roster.children kStandbyPhysical = none := by
        rw [findWorker_eq_head?, vacant]
        rfl
      simp only [standbyReady, nobody] at ready
      cases ready
    obtain ⟨rfl, hot⟩ := assigned.owned_home below owner notStandby
    have idle : standbyBusy region = false := by
      unfold standbyReady at ready
      split at ready
      · cases ready
      · simp only [Bool.and_eq_true, Bool.not_eq_true'] at ready
        exact ready.2
    refine ⟨rfl, hot, owner, rfl, rfl, fun other hot' _ taken => ?_, Or.inl rfl⟩
    have busy := (standbyBusy_iff reads).mpr ⟨other, hot', taken⟩
    rw [idle] at busy
    cases busy
  · split at plan <;> cases plan

end Tokens

/-! ### What processes know -/

/-- The token a worker's program runs on. -/
def held : WorkerPc → Option OwnershipToken
  | .checking token => some token
  | .publishing token => some token
  | _ => none

/-- The token is current and names the process. -/
structure Entitled (tokens : Nat → OwnershipToken) (config : WorkerConfig)
    (token : OwnershipToken) : Prop where
  named : config.named token = true
  below : token.logicalRing < kMaxWorkers
  current : tokens token.logicalRing = token

/-- A token survives as long as the worker it names does. -/
theorem Entitled.publish {tokens : Nat → OwnershipToken} {config : WorkerConfig}
    {token : OwnershipToken} (entitled : Entitled tokens config token) {physicalWorker : Nat}
    {args : TransferArgs} (promotes : Promotes tokens physicalWorker args)
    (replaces : args.expected = tokens args.logicalRing)
    (other : config.workerIdx ≠ physicalWorker) :
    Entitled (Function.update tokens args.logicalRing args.replacement) config token := by
  refine ⟨entitled.named, entitled.below, ?_⟩
  have different : token.logicalRing ≠ args.logicalRing := by
    intro same
    have named := entitled.named
    simp only [WorkerConfig.named, decide_eq_true_eq] at named
    have owner := promotes.expected
    rw [replaces, ← same, entitled.current] at owner
    exact other (named.1.symm.trans owner)
  rw [Function.update_of_ne different]
  exact entitled.current

/-- What holds between the calls of the processes, the tokens and the
supervisor's thread. -/
structure Posts (state : State) : Prop where
  cells : state.machine.Cells
  posted : Posted state
  calls : ∀ pid call, pid ≠ supervisorThread → state.machine.threads pid = some call →
    ∃ process args, state.processes pid = some process ∧
      process.pc.request args = some call.operation.request
  assigned : Assigned (currentToken state.machine.log)
  promoting : ∀ index physicalWorker id args pc, state.loop.pc = .promote index physicalWorker →
    state.machine.threads supervisorThread = some ⟨id, .transfer args pc⟩ →
    Promotes (currentToken state.machine.log) physicalWorker args
  holders : ∀ pid process, state.processes pid = some process → process.ended = none →
    ∀ token, held process.pc = some token →
      Entitled (currentToken state.machine.log) process.config token
  readers : ∀ pid process, state.processes pid = some process → process.ended = none →
    ∀ id ring token, state.machine.threads pid = some ⟨id, .read ring (.returned (some token))⟩ →
      process.config.named token = true →
      Entitled (currentToken state.machine.log) process.config token

theorem request_not_transfer {pc : WorkerPc} {args : PushArgs kRing} {transfer : TransferArgs} :
    pc.request args ≠ some (.transfer transfer) := by
  cases pc <;> simp [WorkerPc.request]

/-- Only the supervisor transfers, and only while it promotes. -/
theorem Posts.transfers {state : State} (posts : Posts state) {thread id : Nat}
    {args : TransferArgs} {pc : TransferPc}
    (running : state.machine.threads thread = some ⟨id, .transfer args pc⟩) :
    thread = supervisorThread ∧
      ∃ index physicalWorker, state.loop.pc = .promote index physicalWorker := by
  have mine : thread = supervisorThread := by
    by_contra other
    obtain ⟨process, pushed, -, request⟩ := posts.calls thread _ other running
    exact request_not_transfer request
  subst mine
  refine ⟨rfl, ?_⟩
  have posted := posts.posted
  unfold Posted at posted
  split at posted
  · next index physicalWorker at' => exact ⟨index, physicalWorker, at'⟩
  · obtain ⟨id', ring, size, pc', other⟩ := posted
    rw [running] at other
    cases other
  · rw [running] at posted
    cases posted

/-- A token can be read unless its promotion is inside its window. -/
theorem Posts.reads_outside {state : State} (posts : Posts state) {ring : Nat}
    (below : ring < kMaxWorkers)
    (outside : windowOf (state.machine.threads supervisorThread) ≠ some ring) :
    readOwnership state.machine.region ring = some (currentToken state.machine.log ring) := by
  have cells := posts.cells
  refine readOwnership_published below (RegionMachine.Cells.settled cells below ?_)
    (RegionMachine.Cells.wellFormed cells ring below)
  rintro ⟨thread, window⟩
  obtain ⟨id, args, pc, running, -, -⟩ := windowOf_transfer window
  obtain ⟨rfl, -⟩ := posts.transfers running
  exact outside window

/-- Outside a promotion every token can be read. -/
theorem Posts.reads {state : State} (posts : Posts state)
    (settled : ∀ index physicalWorker, state.loop.pc ≠ .promote index physicalWorker)
    {ring : Nat} (below : ring < kMaxWorkers) :
    readOwnership state.machine.region ring = some (currentToken state.machine.log ring) := by
  refine posts.reads_outside below fun window => ?_
  obtain ⟨id, args, pc, running, -, -⟩ := windowOf_transfer window
  obtain ⟨-, index, physicalWorker, at'⟩ := posts.transfers running
  exact settled index physicalWorker at'

/-- So it can when the transfer has returned. -/
theorem Posts.reads_returned {state : State} (posts : Posts state) {id : Nat} {args : TransferArgs}
    {result : Option OwnershipToken}
    (returned : state.machine.threads supervisorThread =
      some ⟨id, .transfer args (.returned result)⟩) {ring : Nat} (below : ring < kMaxWorkers) :
    readOwnership state.machine.region ring = some (currentToken state.machine.log ring) := by
  refine posts.reads_outside below ?_
  rw [returned]
  simp [windowOf, TransferPc.inWindow]

/-- The invariant looks at the processes, the machine and the loop's place; it
survives a step that keeps the tokens, the other threads and the processes. -/
theorem Posts.keep {before after : State} (posts : Posts before)
    (processes : after.processes = before.processes)
    (cells : after.machine.Cells)
    (tokens : currentToken after.machine.log = currentToken before.machine.log)
    (threads : ∀ thread, thread ≠ supervisorThread →
      after.machine.threads thread = before.machine.threads thread)
    (supervisor : before.processes supervisorThread = none)
    (posted : Posted after)
    (promoting : ∀ index physicalWorker id args pc,
      after.loop.pc = .promote index physicalWorker →
      after.machine.threads supervisorThread = some ⟨id, .transfer args pc⟩ →
      Promotes (currentToken before.machine.log) physicalWorker args) : Posts after where
  cells := cells
  posted := posted
  calls := by
    intro pid call other running
    rw [threads pid other] at running
    rw [processes]
    exact posts.calls pid call other running
  assigned := by rw [tokens]; exact posts.assigned
  promoting := by rw [tokens]; exact promoting
  holders := by rw [processes, tokens]; exact posts.holders
  readers := by
    intro pid process here alive id ring token running
    rw [processes] at here
    have other : pid ≠ supervisorThread := by
      rintro rfl
      rw [supervisor] at here
      cases here
    rw [threads pid other] at running
    rw [tokens]
    exact posts.readers pid process here alive id ring token running

/-- What a finished read returned is the current token. -/
theorem read_entitled {machine : RegionMachine.State} (cells : machine.Cells) {thread : Nat}
    {weak : Bool} {before : Call} {id ring : Nat} {token : OwnershipToken}
    (running : machine.threads thread = some before) (unfinished : before.operation.done = false)
    (returned : (⟨before.id, (before.operation.step weak machine.region).2⟩ : Call) =
      ⟨id, .read ring (.returned (some token))⟩) {config : WorkerConfig}
    (named : config.named token = true) :
    Entitled (currentToken machine.log) config token := by
  have facts := RegionMachine.Cells.facts cells thread
  rw [running] at facts
  obtain ⟨callId, operation⟩ := before
  simp only [RegionMachine.Call.mk.injEq] at returned
  obtain ⟨-, returned⟩ := returned
  cases operation with
  | read ring' pc =>
      simp only [Operation.step, Operation.read.injEq] at returned
      obtain ⟨rfl, returned⟩ := returned
      have running' : ∀ result, pc ≠ .returned result := by
        rintro result rfl
        cases unfinished
      have current := (RegionMachine.Cells.read cells rfl facts).2 token running' returned
      have below : ring' < kMaxWorkers := by
        cases pc with
        | loadEpoch => exact facts
        | loadOwner epoch => exact facts.1
        | recheck epoch ownerWord => exact facts.1
        | returned result => exact absurd rfl (running' result)
      have ring := (RegionMachine.Cells.wellFormed cells ring' below).ring
      rw [← current] at ring
      exact ⟨named, by rw [ring]; exact below, by rw [ring, ← current]⟩
  | push workerIdx args pc => cases returned
  | pop workerIdx size pc => cases returned
  | transfer args pc => cases returned
  | valid token' pc => cases returned

/-! ### Steps of calls -/

/-- The supervisor's call goes on as the call it is. -/
theorem posted_advance {state : State} (posted : Posted state) (thread : Nat) (weak : Bool) :
    Posted (state.withMachine (.advance thread weak)) := by
  -- the thread's call afterwards is the same call, one action further at most
  have onward : ∀ call, state.machine.threads supervisorThread = some call →
      (state.withMachine (.advance thread weak)).machine.threads supervisorThread = some call ∨
        (state.withMachine (.advance thread weak)).machine.threads supervisorThread =
          some ⟨call.id, (call.operation.step weak state.machine.region).2⟩ := by
    intro call running
    by_cases mine : thread = supervisorThread
    · subst mine
      simp only [State.withMachine, RegionMachine.apply, running]
      split
      · exact Or.inl running
      · exact Or.inr (RegionMachine.State.advance_self ..)
    · exact Or.inl ((apply_threads _ (.advance thread weak) mine).trans running)
  unfold Posted at posted ⊢
  have place : (state.withMachine (.advance thread weak)).loop.pc = state.loop.pc := rfl
  rw [place]
  split
  · next at' =>
    rw [at'] at posted
    obtain ⟨id, args, pc, running⟩ := posted
    rcases onward _ running with same | moved
    · exact ⟨id, args, pc, same⟩
    · exact ⟨id, args, _, moved⟩
  · next at' =>
    rw [at'] at posted
    obtain ⟨id, ring, size, pc, running⟩ := posted
    rcases onward _ running with same | moved
    · exact ⟨id, ring, size, pc, same⟩
    · exact ⟨id, ring, size, _, moved⟩
  · next notPromote notPopping =>
    split at posted
    · next at' => exact absurd at' (notPromote _ _)
    · next at' => exact absurd at' (notPopping _ _ _)
    · by_cases mine : thread = supervisorThread
      · subst mine
        simp only [State.withMachine, RegionMachine.apply, posted]
      · exact (apply_threads _ (.advance thread weak) mine).trans posted

/-- A published promotion leaves the rings assigned. -/
theorem Assigned.publish {tokens : Nat → OwnershipToken} (assigned : Assigned tokens)
    {physicalWorker : Nat} {args : TransferArgs} (promotes : Promotes tokens physicalWorker args) :
    Assigned (Function.update tokens args.logicalRing args.replacement) := by
  have hot := promotes.hot
  have moved : (args.replacement.physicalOwner).toNat = kStandbyPhysical := by
    rw [TransferArgs.replacement, promotes.owner]
    rfl
  rw [promotes.ring]
  refine ⟨fun ring below => ?_, ?_, fun left right first second one two => ?_⟩
  · by_cases same : ring = physicalWorker
    · subst same
      rw [Function.update_self]
      exact Or.inr moved
    · rw [Function.update_of_ne same]
      exact assigned.home ring below
  · rw [Function.update_of_ne (by omega)]
    exact assigned.standby
  · -- the other ring was free, so both are the promoted one
    have mine : ∀ ring, ring < kStandbyPhysical →
        (Function.update tokens physicalWorker args.replacement ring).physicalOwner.toNat =
          kStandbyPhysical → ring = physicalWorker := by
      intro ring below owner
      by_contra other
      rw [Function.update_of_ne other] at owner
      exact promotes.free ring below other owner
    rw [mine left first one, mine right second two]

/-- What an atomic action of a call does to the tokens. -/
theorem Posts.tokens_advance {state : State} (posts : Posts state) (staffing : Staffing state)
    (thread : Nat) (weak : Bool) :
    Assigned (currentToken (state.withMachine (.advance thread weak)).machine.log) ∧
      (∀ index physicalWorker id args pc, state.loop.pc = .promote index physicalWorker →
        state.machine.threads supervisorThread = some ⟨id, .transfer args pc⟩ →
        Promotes (currentToken (state.withMachine (.advance thread weak)).machine.log)
          physicalWorker args) ∧
      ∀ pid process token, state.processes pid = some process → process.ended = none →
        Entitled (currentToken state.machine.log) process.config token →
        Entitled (currentToken (state.withMachine (.advance thread weak)).machine.log)
          process.config token := by
  rcases tokens_apply state.machine (.advance thread weak) with
    same | ⟨actor, _, id, args, -, running, changed⟩
  · simp only [State.withMachine, same]
    exact ⟨posts.assigned, posts.promoting, fun _ _ _ _ _ entitled => entitled⟩
  · simp only [State.withMachine, changed]
    obtain ⟨rfl, index, physicalWorker, at'⟩ := posts.transfers running
    have promotes := posts.promoting index physicalWorker id args _ at' running
    have facts := RegionMachine.Cells.facts posts.cells supervisorThread
    rw [running] at facts
    have replaces : args.expected = currentToken state.machine.log args.logicalRing := facts.2.1
    refine ⟨posts.assigned.publish promotes, ?_, ?_⟩
    · intro index' physicalWorker' id' args' pc' at'' running'
      rw [at'] at at''
      cases at''
      rw [running] at running'
      cases running'
      refine { promotes with free := fun other hot different => ?_, pending := Or.inr ?_ }
      · rw [Function.update_of_ne (by rw [promotes.ring]; exact different)]
        exact promotes.free other hot different
      · rw [promotes.ring, Function.update_self]
    · intro pid process token here alive entitled
      refine entitled.publish promotes replaces ?_
      rintro rfl
      exact staffing.ended_of_vacant here (staffing.vacant _ (by rw [at']; rfl)) alive

theorem Posts.advance {state : State} (posts : Posts state) (staffing : Staffing state)
    (thread : Nat) (weak : Bool) : Posts (state.withMachine (.advance thread weak)) := by
  obtain ⟨assigned, promoted, entitled⟩ := posts.tokens_advance staffing thread weak
  refine ⟨cells_apply posts.cells _, posted_advance posts.posted thread weak, ?_, assigned, ?_, ?_,
    ?_⟩
  · intro pid call other running
    rcases apply_request running with ⟨before, earlier, same⟩ | started
    · rw [← same]
      exact posts.calls pid before other earlier
    · cases started
  · intro index physicalWorker id args pc at' running
    rcases apply_request running with ⟨⟨id', operation⟩, earlier, same⟩ | started
    · cases operation with
      | transfer args' pc' =>
          simp only [Operation.request, RegionMachine.Request.transfer.injEq] at same
          subst same
          exact promoted index physicalWorker id' args' pc' at' earlier
      | _ => cases same
    · cases started
  · intro pid process here alive token holds
    exact entitled pid process token here alive (posts.holders pid process here alive token holds)
  · intro pid process here alive id ring token running named
    refine entitled pid process token here alive ?_
    rcases apply_call running with kept | ⟨_, started, -⟩ | ⟨weak', before, -, earlier, going, moved⟩
    · exact posts.readers pid process here alive id ring token kept named
    · cases started
    · exact read_entitled posts.cells earlier going moved.symm named

/-- A process makes its next call. -/
theorem Posts.call {state : State} (posts : Posts state) (staffing : Staffing state) {pid : Nat}
    {process : Process} (here : state.processes pid = some process) {args : PushArgs kRing}
    {request : RegionMachine.Request} (next : process.pc.request args = some request) :
    Posts (state.withMachine (.start pid request)) := by
  have other : pid ≠ supervisorThread := by
    rintro rfl
    rw [staffing.supervisor] at here
    cases here
  have tokens : currentToken (state.withMachine (.start pid request)).machine.log =
      currentToken state.machine.log := tokens_start ..
  have supervisor : (state.withMachine (.start pid request)).machine.threads supervisorThread =
      state.machine.threads supervisorThread := apply_threads _ _ other
  refine ⟨cells_apply posts.cells _, ?_, ?_, ?_, ?_, ?_, ?_⟩
  · have posted := posts.posted
    unfold Posted at posted ⊢
    rw [supervisor]
    exact posted
  · intro pid' call different running
    rcases apply_request running with ⟨before, earlier, same⟩ | started
    · rw [← same]
      exact posts.calls pid' before different earlier
    · cases started
      exact ⟨process, args, here, next⟩
  · rw [tokens]
    exact posts.assigned
  · rw [tokens, supervisor]
    exact posts.promoting
  · rw [tokens]
    exact posts.holders
  · intro pid' process' here' alive id ring token running named
    rw [tokens]
    rcases apply_call running with kept | ⟨request', -, -, entered⟩ | ⟨_, _, started, -⟩
    · exact posts.readers pid' process' here' alive id ring token kept named
    · -- a call that was just entered has returned no token
      cases request' with
      | read ring' =>
          simp only [RegionMachine.Request.enter, ReadPc.enter, RegionMachine.Call.mk.injEq,
            Operation.read.injEq] at entered
          obtain ⟨-, -, entered⟩ := entered
          split at entered <;> cases entered
      | _ => cases entered
    · cases started

/-- A process that goes on keeps or takes up only a token it is entitled to. -/
theorem held_resume {config : WorkerConfig} {pc : WorkerPc} {operation : Operation}
    {token : OwnershipToken} (holds : held (pc.resume config operation) = some token) :
    held pc = some token ∨ ∃ ring, operation = .read ring (.returned (some token)) ∧
      config.named token = true := by
  unfold WorkerPc.resume at holds
  split at holds
  · split at holds <;> cases holds
  · next result =>
    split at holds
    · next accepted acceptedEq =>
      cases holds
      obtain ⟨rfl, named⟩ := accept_some acceptedEq
      exact Or.inr ⟨_, rfl, named⟩
    · cases holds
  · split at holds
    · exact Or.inl holds
    · cases holds
  · exact Or.inl holds
  · exact Or.inl holds

theorem Posts.resume {state : State} (posts : Posts state) (staffing : Staffing state) {pid : Nat}
    {process : Process} {call : Call} (here : state.processes pid = some process)
    (running : state.machine.threads pid = some call) (alive : process.ended = none)
    (done : call.operation.done = true) :
    Posts ((state.withMachine (.finish pid)).setProcess pid
      { process with pc := process.pc.resume process.config call.operation }) := by
  have other : pid ≠ supervisorThread := by
    rintro rfl
    rw [staffing.supervisor] at here
    cases here
  have tokens : currentToken (RegionMachine.apply state.machine (.finish pid)).log =
      currentToken state.machine.log := tokens_finish ..
  have left : (RegionMachine.apply state.machine (.finish pid)).threads pid = none :=
    threads_finish running done
  have others : ∀ thread, thread ≠ pid →
      (RegionMachine.apply state.machine (.finish pid)).threads thread =
        state.machine.threads thread := fun thread different =>
    apply_threads _ (.finish pid) (Ne.symm different)
  refine ⟨cells_apply posts.cells _, ?_, ?_, ?_, ?_, ?_, ?_⟩
  · have posted := posts.posted
    unfold Posted at posted ⊢
    simp only [State.setProcess, State.withMachine, others _ (Ne.symm other)]
    exact posted
  · intro pid' call' different running'
    simp only [State.setProcess, State.withMachine] at running' ⊢
    have away : pid' ≠ pid := by
      rintro rfl
      rw [left] at running'
      cases running'
    rw [others pid' away] at running'
    rw [Function.update_of_ne away]
    exact posts.calls pid' call' different running'
  · simp only [State.setProcess, State.withMachine, tokens]
    exact posts.assigned
  · simp only [State.setProcess, State.withMachine, tokens, others _ (Ne.symm other)]
    exact posts.promoting
  · intro pid' process' here' alive' token holds
    simp only [State.setProcess, State.withMachine, tokens] at here' ⊢
    by_cases same : pid' = pid
    · subst same
      rw [Function.update_self, Option.some.injEq] at here'
      subst here'
      rcases held_resume holds with already | ⟨ring, returned, named⟩
      · exact posts.holders pid' process here alive token already
      · obtain ⟨id, operation⟩ := call
        obtain rfl : operation = _ := returned
        exact posts.readers pid' process here alive id ring token running named
    · rw [Function.update_of_ne same] at here'
      exact posts.holders pid' process' here' alive' token holds
  · intro pid' process' here' alive' id ring token running' named
    simp only [State.setProcess, State.withMachine, tokens] at here' running' ⊢
    have away : pid' ≠ pid := by
      rintro rfl
      rw [left] at running'
      cases running'
    rw [others pid' away] at running'
    rw [Function.update_of_ne away] at here'
    exact posts.readers pid' process' here' alive' id ring token running' named

/-- A process ends. -/
theorem Posts.finish {state : State} (posts : Posts state) {pid : Nat} {process : Process}
    (here : state.processes pid = some process) (status : WaitStatus) :
    Posts (state.setProcess pid { process with ended := some status }) := by
  -- the live processes are the ones before, the ended one excepted
  have origin : ∀ pid' process', Function.update state.processes pid
      (some { process with ended := some status }) pid' = some process' →
      process'.ended = none → state.processes pid' = some process' := by
    intro pid' process' here' alive
    by_cases same : pid' = pid
    · subst same
      rw [Function.update_self, Option.some.injEq] at here'
      subst here'
      cases alive
    · rwa [Function.update_of_ne same] at here'
  refine ⟨posts.cells, posts.posted, ?_, posts.assigned, posts.promoting, ?_, ?_⟩
  · intro pid' call different running
    obtain ⟨process', args, here', request⟩ := posts.calls pid' call different running
    simp only [State.setProcess]
    by_cases same : pid' = pid
    · subst same
      rw [here, Option.some.injEq] at here'
      subst here'
      exact ⟨_, args, Function.update_self .., request⟩
    · exact ⟨process', args, by rw [Function.update_of_ne same]; exact here', request⟩
  · intro pid' process' here' alive
    exact posts.holders pid' process' (origin pid' process' here' alive) alive
  · intro pid' process' here' alive
    exact posts.readers pid' process' (origin pid' process' here' alive) alive

/-! ### Steps of the supervisor -/

/-- New processes have made no call and hold no token. -/
theorem Posts.grow {before after : State} (posts : Posts before) (machine : after.machine =
      before.machine) (posted : Posted after) (resting : after.loop.pc.calling = false)
    (old : ∀ pid process, before.processes pid = some process →
      after.processes pid = some process)
    (new : ∀ pid process, after.processes pid = some process → process.ended = none →
      before.processes pid = some process ∨
        before.processes pid = none ∧ held process.pc = none ∧ pid ≠ supervisorThread) :
    Posts after := by
  have silent : ∀ pid, before.processes pid = none → pid ≠ supervisorThread →
      before.machine.threads pid = none := by
    intro pid unborn different
    cases running : before.machine.threads pid with
    | none => rfl
    | some call =>
        obtain ⟨process, args, here, -⟩ := posts.calls pid call different running
        rw [unborn] at here
        cases here
  refine ⟨by rw [machine]; exact posts.cells, posted, ?_, by rw [machine]; exact posts.assigned, ?_,
    ?_, ?_⟩
  · intro pid call different running
    rw [machine] at running
    obtain ⟨process, args, here, request⟩ := posts.calls pid call different running
    exact ⟨process, args, old pid process here, request⟩
  · intro index physicalWorker id args pc at'
    rw [at'] at resting
    cases resting
  · intro pid process here alive token holds
    rw [machine]
    rcases new pid process here alive with earlier | ⟨-, nothing, -⟩
    · exact posts.holders pid process earlier alive token holds
    · rw [nothing] at holds
      cases holds
  · intro pid process here alive id ring token running
    rw [machine] at running ⊢
    rcases new pid process here alive with earlier | ⟨unborn, -, different⟩
    · exact posts.readers pid process earlier alive id ring token running
    · rw [silent pid unborn different] at running
      cases running

theorem held_entry (config : WorkerConfig) : held config.entry = none := by
  unfold WorkerConfig.entry
  split <;> rfl

/-- The supervisor is between its calls, and may be in none afterwards. -/
theorem Posts.rest {before after : State} (posts : Posts before) (staffing : Staffing before)
    (processes : after.processes = before.processes)
    (memory : after.machine.region.ringOwnership = before.machine.region.ringOwnership)
    (threads : after.machine.threads = before.machine.threads)
    (log : after.machine.log = before.machine.log)
    (resting : before.loop.pc.calling = false) (still : after.loop.pc.calling = false) :
    Posts after := by
  refine posts.keep processes ?_ (by rw [log]) (by rw [threads]; exact fun _ _ => rfl)
    staffing.supervisor ?_ ?_
  · have cells := posts.cells
    unfold RegionMachine.State.Cells at cells ⊢
    rw [memory, threads, log]
    exact cells
  · rw [posted_of_resting still, threads]
    exact (posted_of_resting resting).mp posts.posted
  · intro index physicalWorker id args pc at'
    rw [at'] at still
    cases still

/-- After the reaped child is dismissed nobody serves its worker. -/
theorem crashRoster_vacant {state : State} (staffing : Staffing state) {index : Nat}
    {child : Child} {status : WaitStatus} (reaps : Reaps state index child status) :
    servers (state.crashRoster index child).children child.physicalWorker = [] := by
  rw [crashRoster_children staffing reaps,
    servers_dismiss reaps.found reaps.serves (staffing.single child.physicalWorker), if_pos rfl]

theorem Reaps.resting {state : State} {index : Nat} {child : Child} {status : WaitStatus}
    (reaps : Reaps state index child status) : state.loop.pc.calling = false := by
  rw [reaps.pc]
  rfl

theorem Posts.reads_reaping {state : State} (posts : Posts state) {index : Nat} {child : Child}
    {status : WaitStatus} (reaps : Reaps state index child status) :
    ∀ ring, ring < kMaxWorkers →
      readOwnership state.machine.region ring = some (currentToken state.machine.log ring) := by
  intro ring below
  refine posts.reads (fun index' physicalWorker at' => ?_) below
  rw [reaps.pc] at at'
  cases at'

/-- Recovery's transfer is a promotion. -/
theorem Posts.promotes {state : State} (posts : Posts state) (staffing : Staffing state)
    {index : Nat} {child : Child} {status : WaitStatus} (reaps : Reaps state index child status)
    {args : TransferArgs} (plan : state.crashPlan index child = .transfer args) :
    Promotes (currentToken state.machine.log) child.physicalWorker args :=
  promotes_of_plan (posts.reads_reaping reaps) posts.assigned (crashRoster_vacant staffing reaps)
    plan

theorem Posts.proceed {state : State} (posts : Posts state) (staffing : Staffing state)
    {index : Nat} {child : Child} {status : WaitStatus} (reaps : Reaps state index child status)
    (now : Int) {plan : Plan} (decided : state.crashPlan index child = plan) :
    Posts (((state.crashObserved now child.physicalWorker).withRoster
      (state.crashRoster index child)).proceed index child.physicalWorker plan) := by
  have idle := (posted_of_resting reaps.resting).mp posts.posted
  cases plan with
  | fail => exact posts.rest staffing rfl rfl rfl rfl reaps.resting rfl
  | degrade logical => exact posts.rest staffing rfl rfl rfl rfl reaps.resting rfl
  | restart => exact posts.rest staffing rfl rfl rfl rfl reaps.resting rfl
  | transfer args =>
      have entered : (RegionMachine.apply state.machine (.start supervisorThread
          (.transfer args))).threads supervisorThread =
            some ⟨state.machine.calls, .transfer args (TransferPc.enter args)⟩ :=
        threads_start idle _
      refine posts.keep rfl (cells_apply posts.cells _) (tokens_start ..)
        (fun thread other => apply_threads _ (.start supervisorThread (.transfer args))
          (Ne.symm other)) staffing.supervisor ⟨_, args, _, entered⟩ ?_
      intro index' physicalWorker id args' pc at' running
      cases at'
      obtain ⟨-, same⟩ : _ ∧ Operation.transfer args (TransferPc.enter args) =
          .transfer args' pc := by
        simpa using entered.symm.trans running
      cases same
      exact posts.promotes staffing reaps decided

theorem Posts.promote {state : State} (posts : Posts state) (staffing : Staffing state)
    (index physicalWorker : Nat) : Posts (state.promote index physicalWorker) := by
  -- whatever the transfer returned, the call is left
  have leaves : ∀ {call : Call} (after : State),
      state.machine.threads supervisorThread = some call → call.operation.done = true →
      after.machine = RegionMachine.apply state.machine (.finish supervisorThread) →
      after.processes = state.processes → after.loop.pc.calling = false → Posts after := by
    intro call after running done machine processes still
    refine posts.keep processes ?_ ?_ ?_ staffing.supervisor ?_ ?_
    · rw [machine]
      exact cells_apply posts.cells _
    · rw [machine]
      exact tokens_finish ..
    · rw [machine]
      exact fun thread other => apply_threads _ (.finish supervisorThread) (Ne.symm other)
    · rw [posted_of_resting still, machine]
      exact threads_finish running done
    · intro index' physicalWorker' id args pc at''
      rw [at''] at still
      cases still
  unfold State.promote
  split
  · next running => exact leaves _ running rfl rfl rfl rfl
  · next running => exact leaves _ running rfl rfl rfl rfl
  · exact posts

theorem Posts.restart {state : State} (posts : Posts state) (staffing : Staffing state)
    (forked : Bool) {index physicalWorker : Nat}
    (at' : state.loop.pc = .restart index physicalWorker) :
    Posts (state.restart forked index physicalWorker) := by
  have resting : state.loop.pc.calling = false := by
    rw [at']
    rfl
  have idle := (posted_of_resting resting).mp posts.posted
  cases forked with
  | false => exact posts.rest staffing rfl rfl rfl rfl resting rfl
  | true =>
      have forks : ¬ ((state.nextPid : Int) < 0) := by omega
      have fresh := staffing.unborn state.nextPid le_rfl
      simp only [State.restart, if_true, Roster.restart, if_neg forks]
      refine posts.grow rfl idle rfl ?_ ?_
      · intro pid process here
        have different : pid ≠ state.nextPid := by
          rintro rfl
          rw [fresh] at here
          cases here
        exact (Function.update_of_ne different ..).trans here
      · intro pid process here alive
        change Function.update state.processes state.nextPid _ pid = some process at here
        by_cases same : pid = state.nextPid
        · subst same
          rw [Function.update_self, Option.some.injEq] at here
          subst here
          exact Or.inr ⟨fresh, held_entry ⟨physicalWorker, none,
            state.loop.roster.nextGeneration + 1#32, .standby⟩, Nat.ne_of_gt staffing.positive⟩
        · rw [Function.update_of_ne same] at here
          exact Or.inl here

theorem Posts.supervise {state : State} (posts : Posts state) (staffing : Staffing state)
    (input : Input) : Posts (state.supervise input) := by
  cases supervise_cases state input with
  | kept kept =>
      refine posts.keep kept.processes (kept.cells posts.cells) (by rw [kept.log])
        kept.threads staffing.supervisor (kept.posted posts.posted) ?_
      intro index physicalWorker id args pc at'
      have quiet := kept.pc
      rw [at'] at quiet
      cases quiet
  | retired index child status reaps after =>
      rw [after]
      exact posts.rest staffing rfl rfl rfl rfl reaps.resting rfl
  | crashed index child crash =>
      obtain ⟨status, reaps, -⟩ := reaps_of_crash crash
      rw [supervise_crash crash]
      exact posts.proceed staffing reaps input.now rfl
  | promoted index physicalWorker at' =>
      simp only [State.supervise, at']
      exact posts.promote staffing index physicalWorker
  | restarted index physicalWorker at' =>
      simp only [State.supervise, at']
      exact posts.restart staffing input.forked at'

theorem Posts.relaunch {state : State} (posts : Posts state) (staffing : Staffing state)
    (settings : Settings) (exited : state.loop.pc = .exited) (all : state.allEnded = true) :
    Posts (launchAll settings state.machine state.processes state.nextPid) := by
  have idle := (posted_of_resting (by rw [exited]; rfl)).mp posts.posted
  refine posts.grow rfl idle rfl ?_ ?_
  · intro pid process here
    have outside : ¬ (state.nextPid < pid ∧ pid ≤ state.nextPid + 3) := by
      rintro ⟨above, -⟩
      rw [staffing.unborn pid (by omega)] at here
      cases here
    exact (if_neg outside).trans here
  · intro pid process here alive
    change launched state.processes state.nextPid pid = some process at here
    unfold launched at here
    split at here
    · next inside =>
      rw [Option.some.injEq] at here
      subst here
      refine Or.inr ⟨staffing.unborn pid (by omega), held_entry _, ?_⟩
      unfold supervisorThread
      omega
    · exact absurd alive (staffing.ended_of_allEnded all here)

theorem posts_apply {state : State} (posts : Posts state) (staffing : Staffing state)
    (label : Label) : Posts (apply state label) := by
  cases label with
  | call pid args =>
      simp only [apply, State.call]
      split
      · exact posts
      · next process here =>
        split
        · next alive next => exact posts.call staffing here next
        · exact posts
  | advance thread weak =>
      simp only [apply, State.advance]
      split
      · exact posts.advance staffing thread weak
      · exact posts
  | resume pid =>
      simp only [apply, State.resume]
      split
      · next process call here running =>
        split
        · next ready => exact posts.resume staffing here running ready.1 ready.2
        · exact posts
      · exact posts
  | store pid word =>
      simp only [apply, State.store]
      split
      · exact posts
      · split
        · exact posts.keep rfl posts.cells rfl (fun _ _ => rfl) staffing.supervisor posts.posted
            posts.promoting
        · exact posts
  | finish pid status =>
      simp only [apply, State.finish]
      split
      · exact posts
      · next process here =>
        split
        · exact posts.finish here status
        · exact posts
  | supervise input => exact posts.supervise staffing input
  | relaunch settings =>
      simp only [apply, State.relaunch]
      split
      · next closed => exact posts.relaunch staffing settings closed.1 closed.2
      · exact posts

theorem assigned_start (storage : SharedRegion) :
    Assigned (currentToken (RegionMachine.start storage).log) := by
  have home : ∀ ring, ring < kMaxWorkers →
      (currentToken (RegionMachine.start storage).log ring).physicalOwner.toNat = ring := by
    intro ring below
    unfold kMaxWorkers at below
    interval_cases ring <;> rfl
  refine ⟨fun ring hot => Or.inl (home ring (hot.trans (by decide))), home _ (by decide), ?_⟩
  intro left right first second one
  rw [home left (first.trans (by decide))] at one
  omega

/-- Everything the later results need of a reachable state. -/
structure Invariant (state : State) : Prop where
  staffing : Staffing state
  posts : Posts state

theorem invariant_start (settings : Settings) (storage : SharedRegion) :
    Invariant (start settings storage) := by
  refine ⟨staffing_start settings storage, RegionMachine.cells_start storage, rfl, ?_,
    assigned_start storage, ?_, ?_, ?_⟩
  · rintro pid call - ⟨⟩
  · rintro index physicalWorker id args pc ⟨⟩
  · intro pid process here alive token holds
    change launched (fun _ => none) 1 pid = some process at here
    unfold launched at here
    split at here
    · rw [Option.some.injEq] at here
      subst here
      rw [held_entry] at holds
      cases holds
    · cases here
  · rintro pid process - - id ring token ⟨⟩

theorem invariant_apply {state : State} (invariant : Invariant state) (label : Label) :
    Invariant (apply state label) :=
  ⟨staffing_apply invariant.staffing label, posts_apply invariant.posts invariant.staffing label⟩

theorem reachable_invariant {settings : Settings} {storage : SharedRegion} {state : State}
    (reach : Reachable (ByLabel apply) (start settings storage) state) : Invariant state := by
  refine reach.invariant (invariant_start settings storage) ?_
  rintro before after - invariant ⟨label, rfl⟩
  exact invariant_apply invariant label

end SafetyCrit.Supervisor.MainLoop
