import SafetyCrit.Perturb.Replay

/-!
Owns what a replay leaves in the record sink, against the signals that were
delivered.

An action records one line where it is carried out: where its signal, or the
fallback of a crash, is delivered, and for a double fault both signals. A double
fault whose second signal fails records nothing, and the replay ends there.
-/

namespace SafetyCrit.Perturb

/-! ### Records and deliveries -/

/-- The record an event leaves whole in the sink. -/
def Event.record? : Event → Option Record
  | .recorded record true => some record
  | _ => none

/-- The records events leave in the sink. -/
def recordsOf (events : List Event) : List Record := events.filterMap Event.record?

/-- Whether an event is a signal that was delivered. -/
def Event.delivered : Event → Bool
  | .killed _ _ none => true
  | _ => false

/-- How many signals were delivered. -/
def delivered (events : List Event) : Nat := events.countP Event.delivered

/-- What a record says about its action, but for the time. -/
def Record.stated (record : Record) : List Char × Int × List Char :=
  (record.category.name, record.targetPid, record.params)

/-- What the record of an entry says: its category, its resolved target, and for
a double fault its resolved second target. -/
def ReplayEntry.stated (remap : List (Int × Int)) (entry : ReplayEntry) :
    List Char × Int × List Char :=
  (entry.category, resolve remap entry.target,
    if entry.category = Category.doubleFault.name then
      secondParams (resolve remap entry.secondTarget)
    else [])

theorem recordsOf_append (first second : List Event) :
    recordsOf (first ++ second) = recordsOf first ++ recordsOf second :=
  List.filterMap_append

theorem delivered_append (first second : List Event) :
    delivered (first ++ second) = delivered first + delivered second :=
  List.countP_append

theorem recordsOf_waitEvents (base : Option Nat) (tsNs : Nat) :
    recordsOf (waitEvents base tsNs) = [] := by
  refine List.filterMap_eq_nil_iff.mpr fun event member => ?_
  obtain ⟨sec, nsec, rfl⟩ := waitEvents_slept base tsNs event member
  rfl

theorem delivered_waitEvents (base : Option Nat) (tsNs : Nat) :
    delivered (waitEvents base tsNs) = 0 := by
  refine List.countP_eq_zero.mpr fun event member => ?_
  obtain ⟨sec, nsec, rfl⟩ := waitEvents_slept base tsNs event member
  exact Bool.false_ne_true

/-! ### One action -/

theorem Kills.recordsOf_eq {target second : Int} {category : Category} {carried : Bool}
    {kills : List Event} (sent : Kills target second category carried kills) :
    recordsOf kills = [] := by
  refine List.filterMap_eq_nil_iff.mpr fun event member => ?_
  obtain ⟨pid, signal, failure, rfl⟩ := sent.killed event member
  rfl

/-- How many deliveries carry an action out. -/
def needed (name : List Char) : Nat := if name = Category.doubleFault.name then 2 else 1

/-- An action is carried out where enough of its signals are delivered; else none
is, or the first of a double fault. -/
theorem Kills.delivered_cases {target second : Int} {category : Category} {carried : Bool}
    {kills : List Event} (sent : Kills target second category carried kills) :
    carried = true ∧ delivered kills = needed category.name ∨
      carried = false ∧ delivered kills = 0 ∨
      carried = false ∧ category = .doubleFault ∧ delivered kills = 1 := by
  have plainly {category : Category} (plain : category ≠ .doubleFault) :
      needed category.name = 1 :=
    if_neg fun same => plain (Category.name_injective same)
  cases sent with
  | single plain signal failure =>
      rw [plainly plain.2]
      cases failure with
      | none => exact Or.inl ⟨rfl, rfl⟩
      | some _ => exact Or.inr (Or.inl ⟨rfl, rfl⟩)
  | crashed => exact Or.inl ⟨rfl, rfl⟩
  | fallback _ failure =>
      cases failure with
      | none => exact Or.inl ⟨rfl, rfl⟩
      | some _ => exact Or.inr (Or.inl ⟨rfl, rfl⟩)
  | half _ => exact Or.inr (Or.inl ⟨rfl, rfl⟩)
  | both failure =>
      cases failure with
      | none => exact Or.inl ⟨rfl, rfl⟩
      | some _ => exact Or.inr (Or.inr ⟨rfl, rfl, rfl⟩)

/-! ### One pass -/

section Passes

variable {system : System} {remap : List (Int × Int)}

/-- A pass carried its action out. -/
def Pass.CarriedOut (system : System) (remap : List (Int × Int)) (pass : Pass) : Prop :=
  needed pass.entry.category ≤ delivered (pass.events system remap)

instance (system : System) (remap : List (Int × Int)) :
    DecidablePred (Pass.CarriedOut system remap) :=
  fun _ => inferInstanceAs (Decidable (_ ≤ _))

section Recording

variable (writes : ∀ past record, system.write past record = true)
include writes

/-- With a sink that takes every record, a pass delivers what its action needs
and records it, or records nothing, with no delivery or half a double fault. -/
theorem PassEvents.recorded_cases {pass : Pass} {ok : Bool} {events : List Event}
    (did : PassEvents system remap pass ok events) (set : pass.before.sink = true) :
    ok = true ∧ delivered events = needed pass.entry.category ∧
        (recordsOf events).map Record.stated = [pass.entry.stated remap] ∨
      ok = false ∧ recordsOf events = [] ∧
        (delivered events = 0 ∨
          pass.entry.category = Category.doubleFault.name ∧ delivered events = 1) := by
  cases did with
  | unknown _ =>
      exact Or.inr ⟨rfl, recordsOf_waitEvents _ _, Or.inl (delivered_waitEvents _ _)⟩
  | failed named sent =>
      refine Or.inr ⟨rfl, ?_, ?_⟩
      · rw [recordsOf_append, recordsOf_waitEvents, sent.recordsOf_eq, List.append_nil]
      · rw [delivered_append, delivered_waitEvents, Nat.zero_add]
        rcases sent.delivered_cases with ⟨out, -⟩ | ⟨-, none⟩ | ⟨-, rfl, one⟩
        · cases out
        · exact Or.inl none
        · exact Or.inr ⟨categoryFromString_eq_some_iff.mp named, one⟩
  | unrecorded _ _ unset => cases set.symm.trans unset
  | @recorded category kills past record named sent _ _ same aimed params =>
      have name := categoryFromString_eq_some_iff.mp named
      rw [writes past record]
      refine Or.inl ⟨rfl, ?_, ?_⟩
      · rw [delivered_append, delivered_append, delivered_waitEvents, Nat.zero_add, name]
        rcases sent.delivered_cases with ⟨-, enough⟩ | ⟨out, -⟩ | ⟨out, -⟩
        · exact enough
        · cases out
        · cases out
      · rw [recordsOf_append, recordsOf_append, recordsOf_waitEvents, sent.recordsOf_eq]
        change [record.stated] = _
        rw [Record.stated, ReplayEntry.stated, same, aimed, params, recordParams, name]
        simp only [Category.name_injective.eq_iff]

/-- The sink gets the record of a pass that carried its action out. -/
theorem Pass.recordsOf_events {pass : Pass} (set : pass.before.sink = true) :
    (recordsOf (pass.events system remap)).map Record.stated =
      if pass.CarriedOut system remap then [pass.entry.stated remap] else [] := by
  rcases (pass.passEvents system remap).recorded_cases writes set with
    ⟨-, enough, recorded⟩ | ⟨-, nothing, short⟩
  · have out : pass.CarriedOut system remap := enough.ge
    rw [if_pos out, recorded]
  · have missed : ¬ pass.CarriedOut system remap := by
      unfold Pass.CarriedOut needed
      rcases short with none | ⟨double, one⟩
      · rw [none]
        split <;> decide
      · rw [one, if_pos double]
        decide
    rw [if_neg missed, nothing, List.map_nil]

/-- A delivery that does not carry the action out is half a double fault, and the
pass does not go on. -/
theorem Pass.half_of_missed {pass : Pass} (set : pass.before.sink = true)
    (some_ : 0 < delivered (pass.events system remap))
    (missed : ¬ pass.CarriedOut system remap) :
    pass.entry.category = Category.doubleFault.name ∧
      delivered (pass.events system remap) = 1 ∧ (pass.done system remap).1 = false := by
  rcases (pass.passEvents system remap).recorded_cases writes set with
    ⟨-, enough, -⟩ | ⟨stopped, -, none | ⟨double, one⟩⟩
  · exact absurd enough.ge missed
  · exact absurd none some_.ne'
  · exact ⟨double, one, stopped⟩

end Recording

end Passes

/-! ### The whole replay -/

theorem recordsOf_flatMap (passes : List Pass) (did : Pass → List Event) :
    recordsOf (passes.flatMap did) = passes.flatMap fun pass => recordsOf (did pass) :=
  List.filterMap_flatMap

theorem flatMap_ite {α β : Type} (values : List α) (Kept : α → Prop) [DecidablePred Kept]
    (image : α → β) :
    (values.flatMap fun value => if Kept value then [image value] else []) =
      (values.filter fun value => Kept value).map image := by
  induction values with
  | nil => rfl
  | cons value values inductionHypothesis =>
      rw [List.flatMap_cons, inductionHypothesis]
      by_cases kept : Kept value
      · rw [if_pos kept, List.filter_cons_of_pos (by simpa using kept)]
        rfl
      · rw [if_neg kept, List.filter_cons_of_neg (by simpa using kept)]
        rfl

/-- With a sink that takes every record: the sink gets one record for every pass
that carried its action out, in order, and no other; a pass with a delivery and
no record is half a double fault, and with it the replay ends and fails. -/
theorem replay_records_carried_out (system : System)
    (writes : ∀ past record, system.write past record = true) (entries : List ReplayEntry)
    (remap : List (Int × Int)) (start : Harness) (set : start.sink = true) :
    let passes := replayPasses system remap none entries start
    let replay := replayEntries system entries remap start
    replay.2.trace = start.trace ++ passes.flatMap (Pass.events system remap) ∧
      passes.map Pass.entry <+: actions entries ∧
      (recordsOf replay.2.trace).map Record.stated = (recordsOf start.trace).map Record.stated ++
        (passes.filter fun pass => pass.CarriedOut system remap).map
          (fun pass => pass.entry.stated remap) ∧
      ∀ pass ∈ passes, 0 < delivered (pass.events system remap) →
        ¬ pass.CarriedOut system remap →
        pass.entry.category = Category.doubleFault.name ∧
          delivered (pass.events system remap) = 1 ∧ passes.getLast? = some pass ∧
          replay.1 = false := by
  intro passes replay
  obtain ⟨grown, succeeded⟩ := replayFrom_eq system remap none entries start
  have found {pass : Pass} (member : pass ∈ passes) : pass.before.sink = true :=
    (sink_replayPasses system remap member).trans set
  refine ⟨grown, entries_replayPasses system remap none entries start, ?_, ?_⟩
  · change (recordsOf (replayFrom system remap none entries start).2.trace).map _ = _
    rw [grown, recordsOf_append, List.map_append, recordsOf_flatMap, List.map_flatMap,
      ← flatMap_ite]
    congr 1
    exact List.flatMap_congr fun pass member => Pass.recordsOf_events writes (found member)
  · intro pass member some_ missed
    obtain ⟨double, one, stopped⟩ := Pass.half_of_missed writes (found member) some_ missed
    exact ⟨double, one, getLast?_of_stopped system remap member stopped,
      succeeded.trans (List.all_eq_false.mpr ⟨pass, member, by simp [stopped]⟩)⟩

/-- A system without process 9. -/
def absentSystem : System :=
  ⟨fun _ pid _ => if pid = 9 then some 3 else none, fun _ _ => true, fun _ => 0⟩

/-- A stall of process 7, then a double fault of 7 and 9. -/
def absentEntries : List ReplayEntry :=
  [⟨0, "stall".toList, 7, 0, false⟩, ⟨0, "double-fault".toList, 7, 9, false⟩]

theorem replay_records_carried_out_absent :
    (recordsOf (replayEntries absentSystem absentEntries [] ⟨true, none, []⟩).2.trace).map
      Record.stated = [("stall".toList, 7, [])] :=
  (replay_records_carried_out absentSystem (fun _ _ => rfl) absentEntries []
    ⟨true, none, []⟩ rfl).2.2.1.trans (by decide)

/-- There the second pass delivers a signal to 7 and records nothing. -/
theorem half_double_fault_unrecorded :
    ¬ ∀ (system : System), (∀ past record, system.write past record = true) →
      ∀ (entries : List ReplayEntry) (remap : List (Int × Int)) (start : Harness),
        start.sink = true →
        (recordsOf (replayEntries system entries remap start).2.trace).map Record.stated =
          (recordsOf start.trace).map Record.stated ++
            ((replayPasses system remap none entries start).filter
              fun pass => 0 < delivered (pass.events system remap)).map
                fun pass => pass.entry.stated remap := by
  intro recorded
  exact absurd (recorded absentSystem (fun _ _ => rfl) absentEntries [] ⟨true, none, []⟩ rfl)
    (by decide)

end SafetyCrit.Perturb
