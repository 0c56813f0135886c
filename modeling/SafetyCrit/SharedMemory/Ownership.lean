import SafetyCrit.SharedMemory.RegionMachine

/-!
Owns the ownership cells under any interleaving of `transfer_ownership`,
`read_ownership` and `ownership_valid`.

An odd epoch is a lock: between its epoch compare-exchange and its epoch store
a transfer is alone in its *window*. `Cells` says what the cells hold in terms
of the tokens published so far; a failed transfer leaves no trace in it.
-/

namespace SafetyCrit.SharedMemory.RegionMachine

open SafetyCrit.Library
open SafetyCrit.Library.Run
open SafetyCrit.Library.Claims

/-! ### Windows and tokens -/

/-- The ring whose window a process is in. -/
def windowOf : Option Call → Option Nat
  | some ⟨_, .transfer args pc⟩ => if pc.inWindow then some args.logicalRing else none
  | _ => none

/-- The ring whose owner word a process has replaced without publishing it. -/
def publishingOf : Option Call → Option Nat
  | some ⟨_, .transfer args .publishEpoch⟩ => some args.logicalRing
  | _ => none

/-- What `initialize` and every transfer install. -/
structure WellFormed (ring : Nat) (token : OwnershipToken) : Prop where
  ring : token.logicalRing = ring
  owner : token.physicalOwner.toNat < kMaxWorkers
  generation : token.processGeneration ≠ 0#32
  even : token.epoch % 2 = 0
  positive : 2 ≤ token.epoch
  word : token.epoch < 2 ^ 64

/-- What a transfer's progress says about its cell. -/
def TransferFacts (cell : RingOwnershipCell) (token : OwnershipToken) (args : TransferArgs) :
    TransferPc → Prop
  | .casOwner => args.Valid ∧ args.expected.epoch = token.epoch ∧
      cell.epoch = token.epoch + 1 ∧ cell.ownerWord = token.word
  | .restoreEpoch => args.Valid ∧ args.expected.epoch = token.epoch ∧
      cell.epoch = token.epoch + 1 ∧ cell.ownerWord = token.word
  | .publishEpoch => args.Valid ∧ args.expected = token ∧
      cell.epoch = token.epoch + 1 ∧ cell.ownerWord = args.replacement.word
  | .returned _ => True
  | _ => args.Valid

/-- What a reader's local variables say about the token. -/
def ReaderFacts (ring : Nat) (token : OwnershipToken) (publishing : Prop) : ReadPc → Prop
  | .loadEpoch => ring < kMaxWorkers
  | .loadOwner epoch => ring < kMaxWorkers ∧ epoch % 2 = 0 ∧ epoch ≤ token.epoch
  | .recheck epoch ownerWord => ring < kMaxWorkers ∧ epoch % 2 = 0 ∧
      (epoch < token.epoch ∨ epoch = token.epoch ∧ (ownerWord = token.word ∨ publishing))
  | .returned _ => True

section Cells

variable {cells : Nat → RingOwnershipCell} {threads : Nat → Option Call}
  {tokens : Nat → OwnershipToken}

/-- What a process's call says about the cell it works on. -/
def CallFacts (cells : Nat → RingOwnershipCell) (threads : Nat → Option Call)
    (tokens : Nat → OwnershipToken) : Option Call → Prop
  | some ⟨_, .transfer args pc⟩ =>
      TransferFacts (cells args.logicalRing) (tokens args.logicalRing) args pc
  | some ⟨_, .read ring pc⟩ => ReaderFacts ring (tokens ring) (Claimed publishingOf threads ring) pc
  | some ⟨_, .valid token pc⟩ => ReaderFacts token.logicalRing (tokens token.logicalRing)
      (Claimed publishingOf threads token.logicalRing) pc
  | _ => True

/-- The cells, while `tokens` are the tokens published last. -/
structure Cells (cells : Nat → RingOwnershipCell) (threads : Nat → Option Call)
    (tokens : Nat → OwnershipToken) : Prop where
  oneWindow : Exclusive windowOf threads
  wellFormed : ∀ ring, ring < kMaxWorkers → WellFormed ring (tokens ring)
  named : ∀ ring, ring < kMaxWorkers → (cells ring).logicalRing = ring
  free : ∀ ring, ring < kMaxWorkers → ¬ Claimed windowOf threads ring →
    (cells ring).epoch = (tokens ring).epoch ∧ (cells ring).ownerWord = (tokens ring).word
  facts : ∀ thread, CallFacts cells threads tokens (threads thread)

theorem wellFormed_homeToken {ring : Nat} (below : ring < kMaxWorkers) :
    WellFormed ring (homeToken ring) := by
  unfold kMaxWorkers at below
  refine ⟨rfl, ?_, by simp [homeToken], by simp [homeToken], le_rfl, by simp [homeToken]⟩
  interval_cases ring <;> decide

theorem wellFormed_replacement {args : TransferArgs} (valid : args.Valid)
    (positive : 2 ≤ args.expected.epoch) : WellFormed args.logicalRing args.replacement := by
  have epoch := valid.replacement_epoch
  obtain ⟨-, -, owner, generation, even, room⟩ := valid
  refine ⟨rfl, owner, generation, ?_, ?_, ?_⟩
  all_goals
    rw [epoch]
    omega

theorem windowOf_transfer {call : Option Call} {ring : Nat} (window : windowOf call = some ring) :
    ∃ id args pc, call = some ⟨id, .transfer args pc⟩ ∧ args.logicalRing = ring ∧
      pc.inWindow = true := by
  unfold windowOf at window
  split at window
  · next id args pc =>
    split at window
    · next inside => exact ⟨id, args, pc, rfl, Option.some.inj window, inside⟩
    · cases window
  · cases window

theorem publishingOf_window {call : Option Call} {ring : Nat}
    (publishing : publishingOf call = some ring) : windowOf call = some ring := by
  unfold publishingOf at publishing
  split at publishing
  · cases publishing
    rfl
  · cases publishing

theorem publishing_claimed {ring : Nat} (publishing : Claimed publishingOf threads ring) :
    Claimed windowOf threads ring := by
  obtain ⟨thread, holds⟩ := publishing
  exact ⟨thread, publishingOf_window holds⟩

/-- Inside a window the epoch is the odd successor of the token's. -/
theorem Cells.odd (cells' : Cells cells threads tokens) {ring : Nat}
    (window : Claimed windowOf threads ring) :
    ring < kMaxWorkers ∧ (cells ring).epoch = (tokens ring).epoch + 1 ∧
      ((cells ring).ownerWord = (tokens ring).word ∨ Claimed publishingOf threads ring) := by
  obtain ⟨thread, holds⟩ := window
  obtain ⟨id, args, pc, running, rfl, inside⟩ := windowOf_transfer holds
  have facts := cells'.facts thread
  rw [running] at facts
  cases pc with
  | casOwner => exact ⟨facts.1.1, facts.2.2.1, Or.inl facts.2.2.2⟩
  | restoreEpoch => exact ⟨facts.1.1, facts.2.2.1, Or.inl facts.2.2.2⟩
  | publishEpoch => exact ⟨facts.1.1, facts.2.2.1, Or.inr ⟨thread, by rw [running]; rfl⟩⟩
  | _ => cases inside

/-- With nobody in its window a cell holds the token published last. -/
theorem Cells.settled (cells' : Cells cells threads tokens) {ring : Nat}
    (below : ring < kMaxWorkers) (unclaimed : ¬ Claimed windowOf threads ring) :
    cells ring = cellOf (tokens ring) := by
  obtain ⟨epoch, owner⟩ := cells'.free ring below unclaimed
  have named := cells'.named ring below
  have tokenRing := (cells'.wellFormed ring below).ring
  cases held : cells ring with
  | mk cellEpoch cellOwner cellRing =>
      rw [held] at epoch owner named
      simp only [cellOf, RingOwnershipCell.mk.injEq]
      exact ⟨epoch, owner, named.trans tokenRing.symm⟩

/-- An even epoch is the token's, and nobody is in the window. -/
theorem Cells.of_even (cells' : Cells cells threads tokens) {ring : Nat}
    (below : ring < kMaxWorkers) (even : (cells ring).epoch % 2 = 0) :
    ¬ Claimed windowOf threads ring ∧ (cells ring).epoch = (tokens ring).epoch ∧
      (cells ring).ownerWord = (tokens ring).word := by
  have unclaimed : ¬ Claimed windowOf threads ring := by
    intro window
    have odd := (cells'.odd window).2.1
    have tokenEven := (cells'.wellFormed ring below).even
    omega
  exact ⟨unclaimed, cells'.free ring below unclaimed⟩

/-- What a published token looks like to `read_ownership`. -/
theorem acceptPair_wellFormed {cell : RingOwnershipCell} {ring : Nat} {token : OwnershipToken}
    (wellFormed : WellFormed ring token) (named : cell.logicalRing = ring) :
    acceptPair cell ring token.epoch token.word = some token := by
  obtain ⟨ringEq, owner, generation, even, positive, -⟩ := wellFormed
  unfold acceptPair
  rw [if_neg]
  · simp only [OwnershipToken.word, unpackOwner_packOwner, unpackGeneration_packOwner, ← ringEq]
  · simp only [OwnershipToken.word, unpackOwner_packOwner, unpackGeneration_packOwner, not_or]
    exact ⟨not_not.mpr named, by omega, by omega, by omega, generation⟩

/-! ### Readers -/

/-- One action of a reader keeps its facts, and what it returns is the current
token. -/
theorem Cells.read (cells' : Cells cells threads tokens) {region : SharedRegion}
    (memory : region.ringOwnership = cells) {ring : Nat} {pc : ReadPc}
    (facts : ReaderFacts ring (tokens ring) (Claimed publishingOf threads ring) pc) :
    ReaderFacts ring (tokens ring) (Claimed publishingOf threads ring) (readStep ring region pc) ∧
      ∀ token, (∀ result, pc ≠ .returned result) →
        readStep ring region pc = .returned (some token) → token = tokens ring := by
  subst memory
  cases pc with
  | loadEpoch =>
      simp only [readStep]
      split
      · exact ⟨trivial, by simp⟩
      · next even =>
        have at' := cells'.of_even facts (by omega)
        exact ⟨⟨facts, by omega, by omega⟩, by simp⟩
  | loadOwner epoch =>
      obtain ⟨below, even, low⟩ := facts
      refine ⟨⟨below, even, ?_⟩, by simp [readStep]⟩
      have owner : (region.ringOwnership ring).ownerWord = (tokens ring).word ∨
          Claimed publishingOf threads ring := by
        by_cases window : Claimed windowOf threads ring
        · exact (cells'.odd window).2.2
        · exact Or.inl (cells'.free ring below window).2
      rcases Nat.lt_or_eq_of_le low with older | same
      · exact Or.inl older
      · exact Or.inr ⟨same, owner⟩
  | recheck epoch ownerWord =>
      obtain ⟨below, even, seen⟩ := facts
      simp only [readStep]
      split
      · exact ⟨below, by simp⟩
      · next stable =>
        refine ⟨trivial, fun token _ returned => ?_⟩
        have equal : epoch = (region.ringOwnership ring).epoch := not_not.mp stable
        obtain ⟨unclaimed, current, -⟩ := cells'.of_even below (equal ▸ even)
        -- the epoch did not move and nobody is in the window, so the pair is the token's
        have owner : ownerWord = (tokens ring).word := by
          rcases seen with older | ⟨-, same | publishing⟩
          · omega
          · exact same
          · exact absurd (publishing_claimed publishing) unclaimed
        rw [owner, equal, current,
          acceptPair_wellFormed (cells'.wellFormed ring below) (cells'.named ring below)] at returned
        simpa using returned.symm
  | returned result => exact ⟨trivial, fun _ running => absurd rfl (running result)⟩

/-! ### Framing -/

/-- A process's facts survive what other processes do to a cell, as long as it
is not in that cell's window and the token's epoch does not go back. -/
theorem CallFacts.frame {cells' : Nat → RingOwnershipCell} {threads' : Nat → Option Call}
    {tokens' : Nat → OwnershipToken} {call : Option Call}
    (facts : CallFacts cells threads tokens call)
    (same : ∀ ring, windowOf call = some ring →
      cells' ring = cells ring ∧ tokens' ring = tokens ring)
    (readers : ∀ ring, ring < kMaxWorkers → (tokens ring).epoch < (tokens' ring).epoch ∨
      tokens' ring = tokens ring ∧
        (Claimed publishingOf threads ring → Claimed publishingOf threads' ring)) :
    CallFacts cells' threads' tokens' call := by
  have reader : ∀ ring pc, ReaderFacts ring (tokens ring) (Claimed publishingOf threads ring) pc →
      ReaderFacts ring (tokens' ring) (Claimed publishingOf threads' ring) pc := by
    intro ring pc seen
    cases pc with
    | loadEpoch => exact seen
    | loadOwner epoch =>
        obtain ⟨below, even, low⟩ := seen
        rcases readers ring below with later | ⟨equal, -⟩
        · exact ⟨below, even, by omega⟩
        · exact ⟨below, even, by rw [equal]; exact low⟩
    | recheck epoch ownerWord =>
        obtain ⟨below, even, known⟩ := seen
        rcases readers ring below with later | ⟨equal, more⟩
        · exact ⟨below, even, Or.inl (by omega)⟩
        · rw [ReaderFacts, equal]
          refine ⟨below, even, known.imp_right fun ⟨current, owner⟩ => ⟨current, ?_⟩⟩
          exact owner.imp_right more
    | returned result => trivial
  cases call with
  | none => trivial
  | some call =>
      obtain ⟨id, operation⟩ := call
      cases operation with
      | transfer args pc =>
          cases pc with
          | casOwner =>
              obtain ⟨cellEq, tokenEq⟩ := same args.logicalRing rfl
              simpa only [CallFacts, TransferFacts, cellEq, tokenEq] using facts
          | restoreEpoch =>
              obtain ⟨cellEq, tokenEq⟩ := same args.logicalRing rfl
              simpa only [CallFacts, TransferFacts, cellEq, tokenEq] using facts
          | publishEpoch =>
              obtain ⟨cellEq, tokenEq⟩ := same args.logicalRing rfl
              simpa only [CallFacts, TransferFacts, cellEq, tokenEq] using facts
          | _ => exact facts
      | read ring pc => exact reader ring pc facts
      | valid token pc => exact reader token.logicalRing pc facts
      | push workerIdx args pc => trivial
      | pop workerIdx size pc => trivial

theorem callFacts_update {cells' : Nat → RingOwnershipCell} {threads' : Nat → Option Call}
    {tokens' : Nat → OwnershipToken} {thread : Nat} {next : Option Call}
    (others : ∀ other, other ≠ thread → CallFacts cells' threads' tokens' (threads other))
    (mine : CallFacts cells' threads' tokens' next) (any : Nat) :
    CallFacts cells' threads' tokens' (Function.update threads thread next any) := by
  by_cases same : any = thread
  · subst same
    simpa using mine
  · simpa [same] using others any same

/-- A process moves without touching a cell or a window. -/
theorem Cells.move (cells' : Cells cells threads tokens) {thread : Nat} (next : Option Call)
    (window : windowOf next = windowOf (threads thread))
    (publishing : publishingOf next = publishingOf (threads thread))
    (mine : CallFacts cells threads tokens next) :
    Cells cells (Function.update threads thread next) tokens := by
  have sameFacts : ∀ call, CallFacts cells threads tokens call →
      CallFacts cells (Function.update threads thread next) tokens call := fun call facts =>
    facts.frame (fun _ _ => ⟨rfl, rfl⟩) fun ring _ =>
      Or.inr ⟨rfl, (claimed_update_same publishing ring).mpr⟩
  exact
  { oneWindow := exclusive_update_same cells'.oneWindow window
    wellFormed := cells'.wellFormed
    named := cells'.named
    free := fun ring below unclaimed => cells'.free ring below fun claimed =>
      unclaimed ((claimed_update_same window ring).mpr claimed)
    facts := callFacts_update (fun other _ => sameFacts _ (cells'.facts other)) (sameFacts _ mine) }

/-! ### Inside a window -/

/-- The process that has a cell to itself rewrites it, possibly publishing a
new token. -/
theorem Cells.rewrite (cells' : Cells cells threads tokens) {thread ring : Nat}
    (next : Option Call) (cell : RingOwnershipCell) (token : OwnershipToken)
    (alone : ∀ other, other ≠ thread → windowOf (threads other) ≠ some ring)
    (before : windowOf (threads thread) = some ring ∨ windowOf (threads thread) = none)
    (after : windowOf next = some ring ∨ windowOf next = none)
    (named : cell.logicalRing = ring) (wellFormed : WellFormed ring token)
    (free : windowOf next = none → cell.epoch = token.epoch ∧ cell.ownerWord = token.word)
    (readers : (tokens ring).epoch < token.epoch ∨ token = tokens ring ∧
      (publishingOf (threads thread) = some ring → publishingOf next = some ring))
    (mine : CallFacts (Function.update cells ring cell) (Function.update threads thread next)
      (Function.update tokens ring token) next) :
    Cells (Function.update cells ring cell) (Function.update threads thread next)
      (Function.update tokens ring token) where
  oneWindow := by
    refine exclusive_update cells'.oneWindow fun other resource different holds => ?_
    obtain rfl : ring = resource := by
      rcases after with inside | outside
      · exact Option.some.inj (inside.symm.trans holds)
      · rw [outside] at holds
        cases holds
    exact alone other different
  wellFormed := by
    intro other below
    by_cases same : other = ring
    · subst same
      simpa using wellFormed
    · simpa [same] using cells'.wellFormed other below
  named := by
    intro other below
    by_cases same : other = ring
    · subst same
      simpa using named
    · simpa [same] using cells'.named other below
  free := by
    intro other below unclaimed
    rw [claimed_update, not_or] at unclaimed
    by_cases same : other = ring
    · subst same
      simp only [Function.update_self]
      exact free (after.resolve_left unclaimed.1)
    · simp only [Function.update_of_ne same]
      refine cells'.free other below ?_
      rintro ⟨holder, holds⟩
      refine unclaimed.2 ⟨holder, ?_, holds⟩
      rintro rfl
      rcases before with inside | outside
      · exact same (Option.some.inj (holds.symm.trans inside))
      · rw [outside] at holds
        cases holds
  facts := by
    refine callFacts_update (fun other different => ?_) mine
    refine (cells'.facts other).frame (fun window holds => ?_) fun window below => ?_
    · have apart : window ≠ ring := by
        rintro rfl
        exact alone other different holds
      simp [apart]
    · by_cases same : window = ring
      · subst same
        rw [Function.update_self]
        refine readers.imp_right fun ⟨equal, keeps⟩ => ⟨equal, ?_⟩
        rintro ⟨holder, holds⟩
        by_cases mineToo : holder = thread
        · subst mineToo
          exact ⟨holder, by simpa using keeps holds⟩
        · exact absurd (publishingOf_window holds) (alone holder mineToo)
      · refine Or.inr ⟨by simp [same], ?_⟩
        rintro ⟨holder, holds⟩
        by_cases mineToo : holder = thread
        · subst mineToo
          rcases before with inside | outside
          · exact absurd (Option.some.inj ((publishingOf_window holds).symm.trans inside)) same
          · rw [publishingOf_window holds] at outside
            cases outside
        · exact ⟨holder, by simpa [mineToo] using holds⟩

section Transfer

variable {thread id : Nat} {args : TransferArgs}

/-- Whoever is in a window is alone in it. -/
theorem Cells.alone (cells' : Cells cells threads tokens) {ring : Nat}
    (window : windowOf (threads thread) = some ring) (other : Nat) (different : other ≠ thread) :
    windowOf (threads other) ≠ some ring := fun holds =>
  different (cells'.oneWindow other thread ring holds window)

/-- The epoch compare-exchange succeeds. -/
theorem Cells.lock (cells' : Cells cells threads tokens)
    (running : threads thread = some ⟨id, .transfer args .casEpoch⟩)
    (matched : (cells args.logicalRing).epoch = args.expected.epoch) :
    Cells
      (Function.update cells args.logicalRing
        { cells args.logicalRing with epoch := wrap64 (args.expected.epoch + 1) })
      (Function.update threads thread (some ⟨id, .transfer args .casOwner⟩)) tokens := by
  have valid : args.Valid := by
    have facts := cells'.facts thread
    rwa [running] at facts
  have below := valid.1
  have even := valid.2.2.2.2.1
  have room := valid.2.2.2.2.2
  obtain ⟨unclaimed, epoch, owner⟩ := cells'.of_even below (by omega)
  have bumped : wrap64 (args.expected.epoch + 1) = args.expected.epoch + 1 :=
    wrap64_of_lt (by omega)
  have rewritten := cells'.rewrite (some ⟨id, .transfer args .casOwner⟩)
    { cells args.logicalRing with epoch := wrap64 (args.expected.epoch + 1) }
    (tokens args.logicalRing) (fun other _ holds => unclaimed ⟨other, holds⟩)
    (Or.inr (by rw [running]; rfl)) (Or.inl rfl) (cells'.named _ below) (cells'.wellFormed _ below)
    (fun outside => by cases outside)
    (Or.inr ⟨rfl, fun holds => by rw [running] at holds; cases holds⟩) ?_
  · simpa only [Function.update_eq_self] using rewritten
  · simp only [CallFacts, TransferFacts, Function.update_self, bumped]
    exact ⟨valid, by omega, by omega, owner⟩

/-- Matching epoch, ring and owner word make a matching token. -/
theorem expected_eq {token : OwnershipToken} (valid : args.Valid)
    (ring : token.logicalRing = args.logicalRing) (epoch : args.expected.epoch = token.epoch)
    (word : token.word = args.expected.word) : args.expected = token := by
  obtain ⟨owner, generation⟩ := packOwner_injective word
  obtain ⟨-, sameRing, -⟩ := valid
  cases expected : args.expected with
  | mk logicalRing physicalOwner processGeneration expectedEpoch =>
      cases token
      simp_all

/-- The owner compare-exchange succeeds: the expected token was current. -/
theorem Cells.swap (cells' : Cells cells threads tokens)
    (running : threads thread = some ⟨id, .transfer args .casOwner⟩)
    (matched : (cells args.logicalRing).ownerWord = args.expected.word) :
    Cells
      (Function.update cells args.logicalRing
        { cells args.logicalRing with
          ownerWord := packOwner args.newPhysicalOwner args.newProcessGeneration })
      (Function.update threads thread (some ⟨id, .transfer args .publishEpoch⟩)) tokens := by
  have facts := cells'.facts thread
  have window : windowOf (threads thread) = some args.logicalRing := by rw [running]; rfl
  rw [running] at facts
  obtain ⟨valid, epoch, odd, owner⟩ := facts
  have below := valid.1
  have rewritten := cells'.rewrite (some ⟨id, .transfer args .publishEpoch⟩)
    { cells args.logicalRing with
      ownerWord := packOwner args.newPhysicalOwner args.newProcessGeneration }
    (tokens args.logicalRing) (cells'.alone window) (Or.inl window) (Or.inl rfl)
    (cells'.named _ below) (cells'.wellFormed _ below) (fun outside => by cases outside)
    (Or.inr ⟨rfl, fun _ => rfl⟩) ?_
  · simpa only [Function.update_eq_self] using rewritten
  · simp only [CallFacts, TransferFacts, Function.update_self]
    refine ⟨valid, ?_, odd, rfl⟩
    exact expected_eq valid (cells'.wellFormed _ below).ring epoch (owner.symm.trans matched)

/-- A refused transfer stores the epoch it found. -/
theorem Cells.restore (cells' : Cells cells threads tokens)
    (running : threads thread = some ⟨id, .transfer args .restoreEpoch⟩) :
    Cells
      (Function.update cells args.logicalRing
        { cells args.logicalRing with epoch := args.expected.epoch })
      (Function.update threads thread (some ⟨id, .transfer args (.returned none)⟩)) tokens := by
  have facts := cells'.facts thread
  have window : windowOf (threads thread) = some args.logicalRing := by rw [running]; rfl
  rw [running] at facts
  obtain ⟨valid, epoch, odd, owner⟩ := facts
  have below := valid.1
  have rewritten := cells'.rewrite (some ⟨id, .transfer args (.returned none)⟩)
    { cells args.logicalRing with epoch := args.expected.epoch }
    (tokens args.logicalRing) (cells'.alone window) (Or.inl window) (Or.inr rfl)
    (cells'.named _ below) (cells'.wellFormed _ below) (fun _ => ⟨epoch, owner⟩)
    (Or.inr ⟨rfl, fun holds => by rw [running] at holds; cases holds⟩) trivial
  simpa only [Function.update_eq_self] using rewritten

/-- The epoch store publishes the replacement. -/
theorem Cells.publish (cells' : Cells cells threads tokens)
    (running : threads thread = some ⟨id, .transfer args .publishEpoch⟩) :
    args.expected = tokens args.logicalRing ∧ args.Valid ∧
    Cells
      (Function.update cells args.logicalRing
        { cells args.logicalRing with epoch := wrap64 (args.expected.epoch + 2) })
      (Function.update threads thread (some ⟨id, .transfer args .loadTail⟩))
      (Function.update tokens args.logicalRing args.replacement) := by
  have facts := cells'.facts thread
  have window : windowOf (threads thread) = some args.logicalRing := by rw [running]; rfl
  rw [running] at facts
  obtain ⟨valid, expected, odd, owner⟩ := facts
  have below := valid.1
  have positive := (cells'.wellFormed _ below).positive
  have epoch := valid.replacement_epoch
  refine ⟨expected, valid, cells'.rewrite _ _ _ (cells'.alone window) (Or.inl window) (Or.inr rfl)
    (cells'.named _ below) (wellFormed_replacement valid (by rw [expected]; exact positive))
    (fun _ => ⟨rfl, owner⟩) (Or.inl ?_) valid⟩
  rw [epoch, expected]
  omega

end Transfer

end Cells

/-! ### The history of one ring -/

/-- The successful transfers of a ring, in order. -/
def publishedOn (ring : Nat) (log : List Event) : List TransferArgs :=
  log.filterMap fun
    | .published _ args => if args.logicalRing = ring then some args else none
    | _ => none

/-- The token published last. -/
def currentToken (log : List Event) (ring : Nat) : OwnershipToken :=
  (publishedOn ring log).foldl (fun _ args => args.replacement) (homeToken ring)

/-- Each transfer expects the token its predecessor installed and installs the
next epoch. -/
def Chained : OwnershipToken → List TransferArgs → Prop
  | _, [] => True
  | token, args :: rest =>
      args.expected = token ∧ args.replacement.epoch = token.epoch + 2 ∧
        args.replacement.logicalRing = token.logicalRing ∧ Chained args.replacement rest

theorem publishedOn_append (ring : Nat) (log events : List Event) :
    publishedOn ring (log ++ events) = publishedOn ring log ++ publishedOn ring events := by
  simp [publishedOn]

/-- An entry that publishes nothing changes no token. -/
theorem currentToken_quiet {log : List Event} {recorded : Option Event}
    (quiet : ∀ call args, recorded ≠ some (.published call args)) :
    currentToken (log ++ recorded.toList) = currentToken log := by
  have empty : ∀ ring, publishedOn ring recorded.toList = [] := by
    intro ring
    cases recorded with
    | none => rfl
    | some event =>
        cases event with
        | published call args => exact absurd rfl (quiet call args)
        | _ => rfl
  funext ring
  rw [currentToken, publishedOn_append, empty, List.append_nil, currentToken]

theorem currentToken_published (log : List Event) (call : Nat) (args : TransferArgs) :
    currentToken (log ++ [.published call args]) =
      Function.update (currentToken log) args.logicalRing args.replacement := by
  funext ring
  by_cases same : ring = args.logicalRing
  · subst same
    simp [currentToken, publishedOn]
  · simp [currentToken, publishedOn, same, Ne.symm same]

theorem chained_append {token : OwnershipToken} {transfers : List TransferArgs}
    {args : TransferArgs} (chained : Chained token transfers)
    (expected : args.expected = transfers.foldl (fun _ args => args.replacement) token)
    (epoch : args.replacement.epoch = args.expected.epoch + 2)
    (ring : args.replacement.logicalRing = token.logicalRing) :
    Chained token (transfers ++ [args]) := by
  induction transfers generalizing token with
  | nil =>
      have first : args.expected = token := expected
      exact ⟨first, by rw [epoch, first], ring, trivial⟩
  | cons first rest inductionHypothesis =>
      obtain ⟨matches', step, sameRing, tail⟩ := chained
      exact ⟨matches', step, sameRing, inductionHypothesis tail expected (ring.trans sameRing.symm)⟩

/-- Along a chain the expected epochs grow, and stay below the last token's. -/
theorem chained_epochs {token : OwnershipToken} {transfers : List TransferArgs}
    (chained : Chained token transfers) :
    (∀ args ∈ transfers, token.epoch ≤ args.expected.epoch ∧
        args.expected.logicalRing = token.logicalRing ∧
        args.expected.epoch < (transfers.foldl (fun _ args => args.replacement) token).epoch) ∧
      token.epoch ≤ (transfers.foldl (fun _ args => args.replacement) token).epoch ∧
      (transfers.map fun args => args.expected.epoch).Pairwise (· < ·) := by
  induction transfers generalizing token with
  | nil => simp
  | cons first rest inductionHypothesis =>
      obtain ⟨rfl, step, sameRing, tail⟩ := chained
      obtain ⟨members, last, ordered⟩ := inductionHypothesis tail
      refine ⟨?_, ?_, ?_⟩
      · intro args member
        rw [List.foldl_cons]
        rcases List.mem_cons.mp member with rfl | later
        · exact ⟨le_rfl, rfl, by omega⟩
        · obtain ⟨low, ring, high⟩ := members args later
          exact ⟨by omega, ring.trans sameRing, high⟩
      · rw [List.foldl_cons]
        omega
      · rw [List.map_cons, List.pairwise_cons]
        refine ⟨?_, ordered⟩
        intro epoch member
        obtain ⟨args, later, rfl⟩ := List.mem_map.mp member
        have := (members args later).1
        omega

/-! ### Whole steps -/

theorem refreshStep_ringOwnership (weak : Bool) (region : SharedRegion) (pc : RefreshPc) :
    (refreshStep weak region pc).1.ringOwnership = region.ringOwnership := by
  cases pc <;> simp only [refreshStep] <;> (try split) <;> rfl

theorem pushStep_ringOwnership (workerIdx : Nat) (args : PushArgs kRing) (weak : Bool)
    (region : SharedRegion) (pc : RegionPushPc) :
    (pushStep workerIdx args weak region pc).1.ringOwnership = region.ringOwnership := by
  cases pc with
  | refresh pc => exact refreshStep_ringOwnership weak region pc
  | _ => rfl

/-- A transfer outside its window keeps every cell. -/
theorem transferStep_ringOwnership {args : TransferArgs} {weak : Bool} {region : SharedRegion}
    {pc : TransferPc} (outside : pc.inWindow = false)
    (unlocked : (transferStep args weak region pc).2.inWindow = false) :
    (transferStep args weak region pc).1.ringOwnership = region.ringOwnership := by
  cases pc with
  | casOwner => cases outside
  | restoreEpoch => cases outside
  | publishEpoch => cases outside
  | casEpoch =>
      simp only [transferStep] at unlocked ⊢
      split at unlocked
      · cases unlocked
      · next failed => rw [if_neg failed]
  | refresh pc => exact refreshStep_ringOwnership weak region pc
  | loadEpoch => simp only [transferStep]; split <;> rfl
  | loadHead tail => simp only [transferStep]; split <;> rfl
  | loadSequence tail => simp only [transferStep]; split <;> rfl
  | casTail tail => simp only [transferStep]; split <;> rfl
  | loadTail => rfl
  | returned result => rfl

/-- The cells of a state. -/
def State.Cells (state : State) : Prop :=
  RegionMachine.Cells state.region.ringOwnership state.threads (currentToken state.log)

theorem outcome_not_published {id call : Nat} {operation : Operation} {args : TransferArgs} :
    operation.outcome id ≠ some (.published call args) := by
  unfold Operation.outcome
  split <;> simp

theorem event_not_published {id : Nat} {region : SharedRegion} {before after : Operation}
    (other : ∀ args, before ≠ .transfer args .publishEpoch) (call : Nat) (args : TransferArgs) :
    before.event id region after ≠ some (.published call args) := by
  intro recorded
  rcases event_cases recorded with
    ⟨_, _, _, -, equal⟩ | ⟨_, _, -, equal⟩ | ⟨_, -, equal⟩ | ⟨published, equal, -⟩ | returned
  · cases equal
  · cases equal
  · cases equal
  · exact other published equal
  · exact outcome_not_published returned

/-- An action that touches no cell and no window. -/
theorem State.Cells.quiet {state : State} (cells : state.Cells) {thread : Nat} {weak : Bool}
    {call : Call} (running : state.threads thread = some call)
    (memory : (call.operation.step weak state.region).1.ringOwnership =
      state.region.ringOwnership)
    (silent : ∀ args, call.operation ≠ .transfer args .publishEpoch)
    (window : windowOf (some ⟨call.id, (call.operation.step weak state.region).2⟩) =
      windowOf (some call))
    (publishing : publishingOf (some ⟨call.id, (call.operation.step weak state.region).2⟩) =
      publishingOf (some call))
    (mine : CallFacts state.region.ringOwnership state.threads (currentToken state.log)
      (some ⟨call.id, (call.operation.step weak state.region).2⟩)) :
    (state.advance thread weak call).Cells := by
  have moved := RegionMachine.Cells.move cells _ (window.trans (congrArg windowOf running.symm))
    (publishing.trans (congrArg publishingOf running.symm)) mine
  simp only [State.Cells, State.advance, memory, currentToken_quiet (event_not_published silent)]
  exact moved

theorem transferFacts_outside {cell : RingOwnershipCell} {token : OwnershipToken}
    {args : TransferArgs} {pc : TransferPc} (valid : args.Valid) (outside : pc.inWindow = false) :
    TransferFacts cell token args pc := by
  cases pc with
  | casOwner => cases outside
  | restoreEpoch => cases outside
  | publishEpoch => cases outside
  | returned result => trivial
  | _ => exact valid

theorem windowOf_outside {id : Nat} {args : TransferArgs} {pc : TransferPc}
    (outside : pc.inWindow = false) : windowOf (some ⟨id, .transfer args pc⟩) = none := by
  simp [windowOf, outside]

theorem publishingOf_outside {id : Nat} {args : TransferArgs} {pc : TransferPc}
    (outside : pc.inWindow = false) : publishingOf (some ⟨id, .transfer args pc⟩) = none := by
  cases pc with
  | publishEpoch => cases outside
  | _ => rfl

/-- After its window a transfer never enters it again. -/
theorem transferStep_outside {args : TransferArgs} {weak : Bool} {region : SharedRegion}
    {pc : TransferPc} (outside : pc.inWindow = false) (notCas : pc ≠ .casEpoch) :
    (transferStep args weak region pc).2.inWindow = false := by
  cases pc with
  | casOwner => cases outside
  | restoreEpoch => cases outside
  | publishEpoch => cases outside
  | casEpoch => exact absurd rfl notCas
  | loadEpoch => simp only [transferStep]; split <;> rfl
  | loadTail => rfl
  | loadHead tail => simp only [transferStep]; split <;> rfl
  | loadSequence tail => simp only [transferStep]; split <;> rfl
  | casTail tail => simp only [transferStep]; split <;> rfl
  | refresh pc =>
      simp only [transferStep]
      cases (refreshStep weak region pc).2 <;> rfl
  | returned result => rfl

theorem State.Cells.transfer {state : State} (cells : state.Cells) {thread id : Nat} (weak : Bool)
    {args : TransferArgs} {pc : TransferPc}
    (running : state.threads thread = some ⟨id, .transfer args pc⟩)
    (unfinished : ∀ result, pc ≠ .returned result) :
    (state.advance thread weak ⟨id, .transfer args pc⟩).Cells := by
  have facts := RegionMachine.Cells.facts cells thread
  rw [running] at facts
  -- outside its window a transfer only needs its arguments to be valid
  have stays : pc.inWindow = false → args.Valid →
      (transferStep args weak state.region pc).2.inWindow = false →
      (state.advance thread weak ⟨id, .transfer args pc⟩).Cells := by
    intro outside valid after
    refine cells.quiet running (transferStep_ringOwnership outside after) ?_ ?_ ?_ ?_
    · rintro other ⟨⟩
      cases outside
    · exact (windowOf_outside after).trans (windowOf_outside outside).symm
    · exact (publishingOf_outside after).trans (publishingOf_outside outside).symm
    · exact transferFacts_outside valid after
  have silent : (∀ other, Operation.transfer args pc ≠ .transfer other .publishEpoch) →
      currentToken (state.advance thread weak ⟨id, .transfer args pc⟩).log =
        currentToken state.log := fun notPublish =>
    currentToken_quiet (event_not_published notPublish)
  cases pc with
  | casEpoch =>
      by_cases matched :
          (state.region.ringOwnership args.logicalRing).epoch = args.expected.epoch
      · have locked := RegionMachine.Cells.lock cells running matched
        rw [State.Cells, silent (by simp)]
        simpa only [State.advance, Operation.step, transferStep, if_pos matched,
          SharedRegion.setOwnership_ringOwnership] using locked
      · refine stays rfl facts ?_
        simp only [transferStep, if_neg matched]
        rfl
  | casOwner =>
      by_cases matched : (state.region.ringOwnership args.logicalRing).ownerWord =
          args.expected.word
      · have swapped := RegionMachine.Cells.swap cells running matched
        rw [State.Cells, silent (by simp)]
        simpa only [State.advance, Operation.step, transferStep, if_pos matched,
          SharedRegion.setOwnership_ringOwnership] using swapped
      · have rejected : transferStep args weak state.region .casOwner =
            (state.region, .restoreEpoch) := by simp only [transferStep, if_neg matched]
        refine cells.quiet running ?_ (by simp) ?_ ?_ ?_
        all_goals simp only [Operation.step, rejected]
        · rfl
        · rfl
        · exact facts
  | restoreEpoch =>
      have restored := RegionMachine.Cells.restore cells running
      rw [State.Cells, silent (by simp)]
      simpa only [State.advance, Operation.step, transferStep,
        SharedRegion.setOwnership_ringOwnership] using restored
  | publishEpoch =>
      have published := (RegionMachine.Cells.publish cells running).2.2
      have tokens : currentToken
          (state.advance thread weak ⟨id, .transfer args .publishEpoch⟩).log =
            Function.update (currentToken state.log) args.logicalRing args.replacement :=
        currentToken_published state.log id args
      rw [State.Cells, tokens]
      simpa only [State.advance, Operation.step, transferStep,
        SharedRegion.setOwnership_ringOwnership] using published
  | returned result => exact absurd rfl (unfinished result)
  | loadEpoch => exact stays rfl facts (transferStep_outside rfl (by simp))
  | loadTail => exact stays rfl facts (transferStep_outside rfl (by simp))
  | loadHead tail => exact stays rfl facts (transferStep_outside rfl (by simp))
  | loadSequence tail => exact stays rfl facts (transferStep_outside rfl (by simp))
  | casTail tail => exact stays rfl facts (transferStep_outside rfl (by simp))
  | refresh pc => exact stays rfl facts (transferStep_outside rfl (by simp))

theorem cells_apply {state : State} (cells : state.Cells) (label : Label) :
    (apply state label).Cells := by
  refine apply_induction (motive := State.Cells) label cells ?_ ?_ ?_
  · intro thread request idle
    have quiet : ∀ call args, request.enter.outcome state.calls ≠ some (.published call args) :=
      fun _ _ => outcome_not_published
    simp only [State.Cells, State.enter, currentToken_quiet quiet]
    refine RegionMachine.Cells.move cells _ ?_ ?_ ?_
    · rw [idle]
      cases request with
      | transfer args => simp only [Request.enter, TransferPc.enter]; split <;> rfl
      | _ => rfl
    · rw [idle]
      cases request with
      | transfer args => simp only [Request.enter, TransferPc.enter]; split <;> rfl
      | _ => rfl
    · cases request with
      | transfer args =>
          simp only [Request.enter, TransferPc.enter]
          split
          · next valid => exact valid
          · trivial
      | read ring =>
          simp only [Request.enter, ReadPc.enter]
          split
          · trivial
          · next below => exact Nat.lt_of_not_le below
      | valid token =>
          simp only [Request.enter, ReadPc.enter]
          split
          · trivial
          · next below => exact Nat.lt_of_not_le below
      | push workerIdx args => trivial
      | pop workerIdx size => trivial
  · intro thread weak call running unfinished
    obtain ⟨id, operation⟩ := call
    have facts := RegionMachine.Cells.facts cells thread
    rw [running] at facts
    cases operation with
    | push workerIdx args pc =>
        exact cells.quiet running (pushStep_ringOwnership workerIdx args weak state.region pc)
          (by simp) rfl rfl trivial
    | pop workerIdx size pc => exact cells.quiet running rfl (by simp) rfl rfl trivial
    | transfer args pc =>
        refine cells.transfer weak running ?_
        rintro result rfl
        cases unfinished
    | read ring pc =>
        exact cells.quiet running rfl (by simp) rfl rfl
          (RegionMachine.Cells.read cells rfl facts).1
    | valid token pc =>
        exact cells.quiet running rfl (by simp) rfl rfl
          (RegionMachine.Cells.read cells rfl facts).1
  · intro thread call running done
    refine RegionMachine.Cells.move cells none ?_ ?_ trivial
    all_goals
      rw [running]
      obtain ⟨id, operation⟩ := call
      cases operation with
      | transfer args pc => cases pc <;> first | rfl | cases done
      | _ => rfl

/-! ### Tokens and calls of a step -/

/-- Only the last store of a transfer changes a token. -/
theorem tokens_apply (state : State) (label : Label) :
    currentToken (apply state label).log = currentToken state.log ∨
      ∃ thread weak id args, label = .advance thread weak ∧
        state.threads thread = some ⟨id, .transfer args .publishEpoch⟩ ∧
        currentToken (apply state label).log =
          Function.update (currentToken state.log) args.logicalRing args.replacement := by
  cases label with
  | start thread request =>
      refine Or.inl ?_
      simp only [apply]
      split
      · exact currentToken_quiet fun _ _ => outcome_not_published
      · rfl
  | finish thread =>
      refine Or.inl ?_
      simp only [apply]
      split
      · rfl
      · split <;> rfl
  | advance thread weak =>
      simp only [apply]
      split
      · exact Or.inl rfl
      · next call running =>
        split
        · exact Or.inl rfl
        · by_cases publishes : ∃ args, call.operation = .transfer args .publishEpoch
          · obtain ⟨args, publishes⟩ := publishes
            obtain ⟨id, operation⟩ := call
            obtain rfl : operation = .transfer args .publishEpoch := publishes
            exact Or.inr ⟨thread, weak, id, args, rfl, running,
              currentToken_published state.log id args⟩
          · exact Or.inl (currentToken_quiet (event_not_published fun args same =>
              publishes ⟨args, same⟩))

theorem tokens_start (machine : State) (thread : Nat)
    (request : Request) :
    currentToken (apply machine (.start thread request)).log =
      currentToken machine.log := by
  rcases tokens_apply machine (.start thread request) with same | ⟨_, _, _, _, other, -⟩
  · exact same
  · cases other

theorem tokens_finish (machine : State) (thread : Nat) :
    currentToken (apply machine (.finish thread)).log = currentToken machine.log := by
  rcases tokens_apply machine (.finish thread) with same | ⟨_, _, _, _, other, -⟩
  · exact same
  · cases other

theorem threads_start {machine : State} {thread : Nat}
    (idle : machine.threads thread = none) (request : Request) :
    (apply machine (.start thread request)).threads thread =
      some ⟨machine.calls, request.enter⟩ := by
  simp [apply, idle, State.enter]

theorem threads_finish {machine : State} {thread : Nat} {call : Call}
    (running : machine.threads thread = some call) (done : call.operation.done = true) :
    (apply machine (.finish thread)).threads thread = none := by
  simp [apply, running, done, State.finish]

end SafetyCrit.SharedMemory.RegionMachine
