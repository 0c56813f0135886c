import SafetyCrit.Supervisor.Recovery

/-!
Owns the children list: who serves a physical worker, and what reaping and
forking do to that.
-/

namespace SafetyCrit.Supervisor

/-! ### Children on duty -/

/-- The children `find_worker` chooses from. -/
def servers (children : List Child) (physicalWorker : Nat) : List Child :=
  children.filter fun child => child.serves physicalWorker

theorem findWorker_eq_head? (children : List Child) (physicalWorker : Nat) :
    findWorker children physicalWorker = (servers children physicalWorker).head? :=
  List.head?_filter.symm

theorem serves_iff {child : Child} {physicalWorker : Nat} :
    child.serves physicalWorker = true ↔
      child.worker = true ∧ child.physicalWorker = physicalWorker ∧ child.handled = false := by
  simp [Child.serves, and_assoc]

/-- The entry of a child that was reaped. -/
def Child.dismissed (child : Child) : Child := { child with pid := -1, handled := true }

theorem not_serves_dismissed (child : Child) (physicalWorker : Nat) :
    child.dismissed.serves physicalWorker = false := by
  simp [Child.dismissed, Child.serves]

theorem serves_unpid (child : Child) (pid : Int) (physicalWorker : Nat) :
    ({ child with pid := pid } : Child).serves physicalWorker = child.serves physicalWorker := rfl

/-- A child serves one physical worker only. -/
theorem serves_unique {child : Child} {left right : Nat} (first : child.serves left = true)
    (second : child.serves right = true) : left = right :=
  (serves_iff.mp first).2.1.symm.trans (serves_iff.mp second).2.1

section Reaping

variable {children : List Child} {index : Nat} {child : Child} {physicalWorker : Nat}

/-- The only server stands behind a child that does not serve. -/
theorem head_not_serves {head : Child} {rest : List Child} (member : child ∈ rest)
    (serves : child.serves physicalWorker = true)
    (single : (servers (head :: rest) physicalWorker).length ≤ 1) :
    head.serves physicalWorker = false := by
  by_contra also
  have later : child ∈ servers rest physicalWorker := List.mem_filter.mpr ⟨member, serves⟩
  have some : 0 < (servers rest physicalWorker).length := List.length_pos_of_mem later
  have both : servers (head :: rest) physicalWorker = head :: servers rest physicalWorker :=
    List.filter_cons_of_pos (by simpa using also)
  rw [both, List.length_cons] at single
  omega

theorem servers_cons_of_not {head : Child} {rest : List Child}
    (idle : head.serves physicalWorker = false) :
    servers (head :: rest) physicalWorker = servers rest physicalWorker :=
  List.filter_cons_of_neg (by simp [idle])

/-- Dismissing the only server leaves none, and keeps the other workers'. -/
theorem servers_dismiss (found : children[index]? = some child)
    (serves : child.serves physicalWorker = true)
    (single : (servers children physicalWorker).length ≤ 1) (other : Nat) :
    servers (children.set index child.dismissed) other =
      if other = physicalWorker then [] else servers children other := by
  induction children generalizing index with
  | nil => simp at found
  | cons head rest inductionHypothesis =>
      cases index with
      | zero =>
          obtain rfl : head = child := by simpa using found
          rw [List.set_cons_zero, servers_cons_of_not (not_serves_dismissed head other)]
          split
          · next same =>
            subst same
            have taken : servers (head :: rest) other = head :: servers rest other :=
              List.filter_cons_of_pos (by simpa using serves)
            rw [taken, List.length_cons] at single
            exact List.eq_nil_of_length_eq_zero (by omega)
          · next different =>
            have away : head.serves other = false := by
              by_contra also
              exact different (serves_unique (by simpa using also) serves)
            rw [servers_cons_of_not away]
      | succ index =>
          have later : rest[index]? = some child := by simpa using found
          have idle := head_not_serves (List.mem_of_getElem? later) serves single
          rw [servers_cons_of_not idle] at single
          have tail := inductionHypothesis later single
          rw [List.set_cons_succ]
          cases headServes : head.serves other with
          | false =>
              rw [servers_cons_of_not headServes, servers_cons_of_not headServes]
              exact tail
          | true =>
              have different : other ≠ physicalWorker := by
                rintro rfl
                rw [headServes] at idle
                cases idle
              have takenLeft : servers (head :: rest.set index child.dismissed) other =
                  head :: servers (rest.set index child.dismissed) other :=
                List.filter_cons_of_pos (by simpa using headServes)
              have takenRight : servers (head :: rest) other = head :: servers rest other :=
                List.filter_cons_of_pos (by simpa using headServes)
              rw [takenLeft, takenRight, tail, if_neg different, if_neg different]

/-- `find_worker` leads recovery back to the child that was reaped. -/
theorem markHandled_reaped (found : children[index]? = some child)
    (serves : child.serves physicalWorker = true)
    (single : (servers children physicalWorker).length ≤ 1) :
    markHandled physicalWorker (children.set index { child with pid := -1 }) =
      children.set index child.dismissed := by
  induction children generalizing index with
  | nil => simp at found
  | cons head rest inductionHypothesis =>
      cases index with
      | zero =>
          obtain rfl : head = child := by simpa using found
          simp only [List.set_cons_zero, markHandled, serves_unpid, serves, if_true]
          rfl
      | succ index =>
          have later : rest[index]? = some child := by simpa using found
          have idle := head_not_serves (List.mem_of_getElem? later) serves single
          rw [servers_cons_of_not idle] at single
          simp only [List.set_cons_succ, markHandled, idle, Bool.false_eq_true, if_false,
            inductionHypothesis later single]

/-- The reaped child is still found. -/
theorem findWorker_reaped (found : children[index]? = some child)
    (serves : child.serves physicalWorker = true) :
    findWorker (children.set index { child with pid := -1 }) physicalWorker ≠ none := by
  intro none'
  have within : index < children.length := (List.getElem?_eq_some_iff.mp found).1
  have member : ({ child with pid := -1 } : Child) ∈ children.set index { child with pid := -1 } :=
    List.mem_set within _
  exact List.find?_eq_none.mp none' _ member serves

end Reaping

theorem servers_append (children : List Child) (child : Child) (physicalWorker : Nat) :
    servers (children ++ [child]) physicalWorker =
      servers children physicalWorker ++
        if child.serves physicalWorker then [child] else [] := by
  rw [servers, List.filter_append]
  cases served : child.serves physicalWorker with
  | true => simp [servers, served]
  | false => simp [servers, served]

/-- Two servers of one worker are the same child. -/
theorem server_unique {children : List Child} {physicalWorker : Nat} {left right : Child}
    (single : (servers children physicalWorker).length ≤ 1)
    (first : left ∈ servers children physicalWorker)
    (second : right ∈ servers children physicalWorker) : left = right := by
  obtain nothing | ⟨only, alone⟩ : servers children physicalWorker = [] ∨
      ∃ only, servers children physicalWorker = [only] := by
    cases listed : servers children physicalWorker with
    | nil => exact Or.inl rfl
    | cons head rest =>
        rw [listed, List.length_cons] at single
        have none' : rest = [] := List.eq_nil_of_length_eq_zero (by omega)
        exact Or.inr ⟨head, by rw [none']⟩
  · rw [nothing] at first
    cases first
  · rw [alone] at first second
    rw [List.mem_singleton.mp first, List.mem_singleton.mp second]

end SafetyCrit.Supervisor
