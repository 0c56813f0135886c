import Mathlib.Data.Nat.ModEq
import Mathlib.Logic.Function.Basic
import Mathlib.Tactic

/-!
Owns the counter-and-stamp discipline of a bounded ring in which every slot
carries a stamp: position `p` lives in slot `p % n`, the stamp `p` offers the
slot to the writer of `p`, the stamp `p + 1` offers it to the reader of `p`,
and the stamp `p + n` offers it to the writer of the next lap.

`Window` ties the two counters, the `n` stamps and the claims in flight
together. The rules below say that claiming, committing, releasing and taking
back an uncommitted claim keep it. No program is mentioned.
-/

namespace SafetyCrit.Library.StampedRing

/-- Two positions less than one lap apart never share a slot. -/
theorem mod_ne_of_lt {n low high : Nat} (below : low < high) (near : high < low + n) :
    low % n ≠ high % n := by
  intro same
  have divides : n ∣ high - low := (Nat.modEq_iff_dvd' below.le).mp same
  have large := Nat.le_of_dvd (by omega) divides
  omega

/-- Positions of one slot that are less than one lap apart are equal. -/
theorem eq_of_mod_eq {n left right : Nat} (same : left % n = right % n)
    (nearRight : right < left + n) (nearLeft : left < right + n) : left = right := by
  rcases Nat.lt_trichotomy left right with below | equal | above
  · exact absurd same (mod_ne_of_lt below nearRight)
  · exact equal
  · exact absurd same.symm (mod_ne_of_lt above nearLeft)

/-- A position less than one lap from the next use of a slot stands elsewhere. -/
theorem mod_ne_of_ne_lap {n position next : Nat} (different : next ≠ position + n)
    (nearRight : position + n < next + n) (nearLeft : next < position + n + n) :
    next % n ≠ position % n := by
  intro same
  rw [← Nat.add_mod_right position n] at same
  exact different (eq_of_mod_eq same nearRight nearLeft)

/-- A successor never shares the slot of its position. -/
theorem mod_ne_succ {n : Nat} (two : 2 ≤ n) (position : Nat) :
    position % n ≠ (position + 1) % n :=
  mod_ne_of_lt (by omega) (by omega)

/-- Every slot serves a position of every lap-long interval. -/
theorem exists_mod_eq {n : Nat} (positive : 0 < n) (low position : Nat) :
    ∃ next, low ≤ next ∧ next < low + n ∧ next % n = position % n := by
  have reach : low ≤ position + low * n := by
    have := Nat.le_mul_of_pos_right low positive
    omega
  refine ⟨low + (position + low * n - low) % n, by omega, ?_, ?_⟩
  · have := Nat.mod_lt (position + low * n - low) positive
    omega
  · rw [Nat.add_mod_mod, Nat.add_sub_cancel' reach, Nat.add_mul_mod_self_right]

/-- The two counters and the stamp of every slot. -/
structure Counters where
  head : Nat
  tail : Nat
  stamp : Nat → Nat

/-- What the slot that serves `next`, the next position a writer will reach in
it, can look like. -/
inductive SlotPhase (n : Nat) (counters : Counters) (writing reading : Nat → Prop)
    (next : Nat) : Prop
  | ready (stamped : counters.stamp (next % n) = next) (room : next < counters.head + n)
  | claimed (position : Nat) (lap : next = position + n)
      (stamped : counters.stamp (position % n) = position) (owner : writing position)
  | committed (position : Nat) (lap : next = position + n)
      (stamped : counters.stamp (position % n) = position + 1)
      (unread : counters.head ≤ position ∨ reading position)

/-- The invariant of the ring. `writing p` holds while a writer has claimed
`p` and not committed it, `reading p` while a reader has claimed `p` and not
released it. -/
structure Window (n : Nat) (counters : Counters) (writing reading : Nat → Prop) : Prop where
  ordered : counters.head ≤ counters.tail
  bounded : counters.tail ≤ counters.head + n
  slots : ∀ next, counters.tail ≤ next → next < counters.tail + n →
    SlotPhase n counters writing reading next
  writingClaimed : ∀ position, writing position →
    counters.head ≤ position ∧ position < counters.tail ∧
      counters.stamp (position % n) = position
  readingClaimed : ∀ position, reading position →
    position < counters.head ∧ counters.tail ≤ position + n ∧
      counters.stamp (position % n) = position + 1

namespace Window

variable {n : Nat} {counters : Counters} {writing reading : Nat → Prop}

/-- The fresh ring: slot `i` carries stamp `i` and nothing is claimed. -/
theorem fresh {stamp : Nat → Nat} (initial : ∀ slot, slot < n → stamp slot = slot) :
    Window n ⟨0, 0, stamp⟩ (fun _ => False) (fun _ => False) where
  ordered := le_rfl
  bounded := Nat.zero_le _
  slots := by
    intro next _ below
    have small : next < n := by simpa using below
    refine .ready ?_ (by simpa using small)
    change stamp (next % n) = next
    rw [Nat.mod_eq_of_lt small]
    exact initial next small
  writingClaimed := fun _ impossible => impossible.elim
  readingClaimed := fun _ impossible => impossible.elim

/-- Only the extent of the claim predicates matters. -/
theorem congr {writing' reading' : Nat → Prop} (window : Window n counters writing reading)
    (sameWriting : ∀ position, writing position ↔ writing' position)
    (sameReading : ∀ position, reading position ↔ reading' position) :
    Window n counters writing' reading' := by
  have writingEq : writing = writing' := funext fun position => propext (sameWriting position)
  have readingEq : reading = reading' := funext fun position => propext (sameReading position)
  subst writingEq readingEq
  exact window

/-- A slot stamped with the writer position `tail` has room for it. -/
theorem room_of_ready (two : 2 ≤ n) (window : Window n counters writing reading)
    (stamped : counters.stamp (counters.tail % n) = counters.tail) :
    counters.tail < counters.head + n := by
  rcases window.slots counters.tail le_rfl (by omega) with
    ⟨-, room⟩ | ⟨position, lap, mark, -⟩ | ⟨position, lap, mark, -⟩
  · exact room
  · rw [lap, Nat.add_mod_right, mark] at stamped
    omega
  · rw [lap, Nat.add_mod_right, mark] at stamped
    omega

/-- A slot stamped `head + 1` holds an unread position. -/
theorem nonempty_of_committed (two : 2 ≤ n) (window : Window n counters writing reading)
    (stamped : counters.stamp (counters.head % n) = counters.head + 1) :
    counters.head < counters.tail := by
  by_contra empty
  have equal : counters.head = counters.tail := le_antisymm window.ordered (by omega)
  rw [equal] at stamped
  rcases window.slots counters.tail le_rfl (by omega) with
    ⟨mark, -⟩ | ⟨position, lap, mark, -⟩ | ⟨position, lap, mark, -⟩
  · omega
  · rw [lap, Nat.add_mod_right, mark] at stamped
    omega
  · rw [lap, Nat.add_mod_right, mark] at stamped
    omega

/-- The writer of `tail` claims it. -/
theorem claimWrite (two : 2 ≤ n) (window : Window n counters writing reading)
    (stamped : counters.stamp (counters.tail % n) = counters.tail) :
    Window n { counters with tail := counters.tail + 1 }
      (fun position => writing position ∨ position = counters.tail) reading where
  ordered := by
    have := window.ordered
    simp only
    omega
  bounded := by
    have := window.room_of_ready two stamped
    simp only
    omega
  slots := by
    intro next low high
    simp only at low high
    by_cases last : next = counters.tail + n
    · exact .claimed counters.tail last stamped (Or.inr rfl)
    · rcases window.slots next (by omega) (by omega) with
        ⟨mark, room⟩ | ⟨position, lap, mark, owner⟩ | ⟨position, lap, mark, unread⟩
      · exact .ready mark room
      · exact .claimed position lap mark (Or.inl owner)
      · exact .committed position lap mark unread
  writingClaimed := by
    rintro position (old | rfl)
    · obtain ⟨low, high, mark⟩ := window.writingClaimed position old
      exact ⟨low, Nat.lt_succ_of_lt high, mark⟩
    · exact ⟨window.ordered, Nat.lt_succ_self _, stamped⟩
  readingClaimed := by
    intro position claim
    obtain ⟨low, high, mark⟩ := window.readingClaimed position claim
    refine ⟨low, ?_, mark⟩
    -- a slot still being read carries `position + 1`, never the stamp `tail`
    have different : counters.tail ≠ position + n := by
      intro lap
      rw [lap, Nat.add_mod_right, mark] at stamped
      omega
    simp only
    omega

/-- A writer commits its claim. -/
theorem commit (two : 2 ≤ n) (window : Window n counters writing reading) {position : Nat}
    (claim : writing position) :
    Window n { counters with
        stamp := Function.update counters.stamp (position % n) (position + 1) }
      (fun other => writing other ∧ other ≠ position) reading where
  ordered := window.ordered
  bounded := window.bounded
  slots := by
    intro next low high
    obtain ⟨headLe, tailGt, -⟩ := window.writingClaimed position claim
    have lapTop := window.bounded
    simp only at low high
    by_cases mine : next = position + n
    · exact .committed position mine (by simp) (Or.inl headLe)
    · have elsewhere := mod_ne_of_ne_lap mine (by omega) (by omega)
      rcases window.slots next low high with
        ⟨mark, room⟩ | ⟨other, lap, mark, owner⟩ | ⟨other, lap, mark, unread⟩
      · exact .ready (by simpa [Function.update_of_ne elsewhere] using mark) room
      · have apart : other % n ≠ position % n := by
          rwa [lap, Nat.add_mod_right] at elsewhere
        refine .claimed other lap (by simpa [Function.update_of_ne apart] using mark) ⟨owner, ?_⟩
        rintro rfl
        exact apart rfl
      · have apart : other % n ≠ position % n := by
          rwa [lap, Nat.add_mod_right] at elsewhere
        exact .committed other lap (by simpa [Function.update_of_ne apart] using mark) unread
  writingClaimed := by
    rintro other ⟨old, different⟩
    obtain ⟨low, high, mark⟩ := window.writingClaimed other old
    obtain ⟨low', high', -⟩ := window.writingClaimed position claim
    have lapTop := window.bounded
    have apart : other % n ≠ position % n := fun same =>
      different (eq_of_mod_eq same (by omega) (by omega))
    exact ⟨low, high, by simpa [Function.update_of_ne apart] using mark⟩
  readingClaimed := by
    intro other old
    obtain ⟨low, high, mark⟩ := window.readingClaimed other old
    obtain ⟨low', high', -⟩ := window.writingClaimed position claim
    have apart : other % n ≠ position % n := by
      intro same
      have equal := eq_of_mod_eq same (by omega) (by omega)
      omega
    exact ⟨low, high, by simpa [Function.update_of_ne apart] using mark⟩

/-- The reader of `head` claims it. -/
theorem claimRead (two : 2 ≤ n) (window : Window n counters writing reading)
    (stamped : counters.stamp (counters.head % n) = counters.head + 1) :
    Window n { counters with head := counters.head + 1 } writing
      (fun position => reading position ∨ position = counters.head) where
  ordered := by
    have := window.nonempty_of_committed two stamped
    simp only
    omega
  bounded := by
    have := window.bounded
    simp only
    omega
  slots := by
    intro next low high
    rcases window.slots next low high with
      ⟨mark, room⟩ | ⟨position, lap, mark, owner⟩ | ⟨position, lap, mark, unread⟩
    · exact .ready mark (by simp only; omega)
    · exact .claimed position lap mark owner
    · refine .committed position lap mark ?_
      simp only
      rcases unread with ahead | claimed
      · rcases Nat.eq_or_lt_of_le ahead with equal | above
        · exact Or.inr (Or.inr equal.symm)
        · exact Or.inl above
      · exact Or.inr (Or.inl claimed)
  writingClaimed := by
    intro position claim
    obtain ⟨low, high, mark⟩ := window.writingClaimed position claim
    have different : counters.head ≠ position := by
      intro equal
      rw [equal, mark] at stamped
      omega
    exact ⟨by simp only; omega, high, mark⟩
  readingClaimed := by
    have lapTop := window.bounded
    rintro position (old | rfl)
    · obtain ⟨low, high, mark⟩ := window.readingClaimed position old
      exact ⟨Nat.lt_succ_of_lt low, high, mark⟩
    · exact ⟨Nat.lt_succ_self _, lapTop, stamped⟩

/-- A reader releases its claim. -/
theorem release (two : 2 ≤ n) (window : Window n counters writing reading) {position : Nat}
    (claim : reading position) :
    Window n { counters with
        stamp := Function.update counters.stamp (position % n) (position + n) }
      writing (fun other => reading other ∧ other ≠ position) where
  ordered := window.ordered
  bounded := window.bounded
  slots := by
    intro next low high
    obtain ⟨below, lapLe, -⟩ := window.readingClaimed position claim
    have inOrder := window.ordered
    simp only at low high
    by_cases mine : next = position + n
    · subst mine
      exact .ready (by simp) (by simp only; omega)
    · have elsewhere := mod_ne_of_ne_lap mine (by omega) (by omega)
      rcases window.slots next low high with
        ⟨mark, room⟩ | ⟨other, lap, mark, owner⟩ | ⟨other, lap, mark, unread⟩
      · exact .ready (by simpa [Function.update_of_ne elsewhere] using mark) room
      · have apart : other % n ≠ position % n := by
          rwa [lap, Nat.add_mod_right] at elsewhere
        exact .claimed other lap (by simpa [Function.update_of_ne apart] using mark) owner
      · have apart : other % n ≠ position % n := by
          rwa [lap, Nat.add_mod_right] at elsewhere
        refine .committed other lap (by simpa [Function.update_of_ne apart] using mark) ?_
        rcases unread with ahead | claimed
        · exact Or.inl ahead
        · refine Or.inr ⟨claimed, ?_⟩
          rintro rfl
          exact apart rfl
  writingClaimed := by
    intro other old
    obtain ⟨low, high, mark⟩ := window.writingClaimed other old
    obtain ⟨low', high', -⟩ := window.readingClaimed position claim
    have apart : other % n ≠ position % n := by
      intro same
      have equal := eq_of_mod_eq same (by omega) (by omega)
      omega
    exact ⟨low, high, by simpa [Function.update_of_ne apart] using mark⟩
  readingClaimed := by
    rintro other ⟨old, different⟩
    obtain ⟨low, high, mark⟩ := window.readingClaimed other old
    obtain ⟨low', high', -⟩ := window.readingClaimed position claim
    have inOrder := window.ordered
    have apart : other % n ≠ position % n := fun same =>
      different (eq_of_mod_eq same (by omega) (by omega))
    exact ⟨low, high, by simpa [Function.update_of_ne apart] using mark⟩

/-- The newest claim is taken back before it was committed. -/
theorem rollback (window : Window n counters writing reading) {position : Nat}
    (claim : writing position) (newest : counters.tail = position + 1) :
    Window n { counters with tail := position }
      (fun other => writing other ∧ other ≠ position) reading where
  ordered := (window.writingClaimed position claim).1
  bounded := by
    have := window.bounded
    simp only
    omega
  slots := by
    intro next low high
    obtain ⟨-, -, mark⟩ := window.writingClaimed position claim
    have lapTop := window.bounded
    simp only at low high
    by_cases mine : next = position
    · subst mine
      exact .ready mark (by simp only; omega)
    · rcases window.slots next (by omega) (by omega) with
        ⟨stamped, room⟩ | ⟨other, lap, stamped, owner⟩ | ⟨other, lap, stamped, unread⟩
      · exact .ready stamped room
      · exact .claimed other lap stamped ⟨owner, by omega⟩
      · exact .committed other lap stamped unread
  writingClaimed := by
    rintro other ⟨old, different⟩
    obtain ⟨low, high, mark⟩ := window.writingClaimed other old
    exact ⟨low, by simp only; omega, mark⟩
  readingClaimed := by
    intro other old
    obtain ⟨low, high, mark⟩ := window.readingClaimed other old
    exact ⟨low, by simp only; omega, mark⟩

/-- Every claim in flight lies within one lap of the tail. -/
theorem near_of_claimed (window : Window n counters writing reading) {position : Nat}
    (claim : writing position ∨ reading position) :
    position < counters.tail ∧ counters.tail ≤ position + n := by
  have inOrder := window.ordered
  have lapTop := window.bounded
  rcases claim with writes | reads
  · have := window.writingClaimed position writes
    omega
  · have := window.readingClaimed position reads
    omega

/-- No stamp has run a lap ahead of the tail. -/
theorem stamp_lt (two : 2 ≤ n) (window : Window n counters writing reading) (position : Nat) :
    counters.stamp (position % n) < counters.tail + n := by
  obtain ⟨next, low, high, same⟩ := exists_mod_eq (show 0 < n by omega) counters.tail position
  rw [← same]
  rcases window.slots next low high with
    ⟨mark, -⟩ | ⟨other, lap, mark, -⟩ | ⟨other, lap, mark, -⟩
  · omega
  · rw [lap, Nat.add_mod_right, mark]
    omega
  · rw [lap, Nat.add_mod_right, mark]
    omega

/-- An outstanding position that no writer holds is committed. -/
theorem committed_of_outstanding (window : Window n counters writing reading) {position : Nat}
    (low : counters.head ≤ position) (high : position < counters.tail)
    (done : ¬ writing position) :
    counters.stamp (position % n) = position + 1 := by
  have lapTop := window.bounded
  rcases window.slots (position + n) (by omega) (by omega) with
    ⟨-, room⟩ | ⟨other, lap, -, owner⟩ | ⟨other, lap, mark, -⟩
  · omega
  · obtain rfl : position = other := by omega
    exact absurd owner done
  · obtain rfl : position = other := by omega
    exact mark

/-- A slot that offers a position below the tail to its writer is claimed. -/
theorem claimed_of_offered (two : 2 ≤ n) (window : Window n counters writing reading)
    {position : Nat} (high : position < counters.tail)
    (offered : counters.stamp (position % n) = position) : writing position := by
  obtain ⟨next, low, near, same⟩ := exists_mod_eq (show 0 < n by omega) counters.tail position
  rw [← same] at offered
  rcases window.slots next low near with
    ⟨mark, -⟩ | ⟨other, lap, mark, owner⟩ | ⟨other, lap, mark, -⟩
  · omega
  · rw [lap, Nat.add_mod_right, mark] at offered
    rwa [← offered]
  · rw [lap, Nat.add_mod_right] at same offered
    rw [mark] at offered
    rw [← offered] at same
    exact absurd same (mod_ne_succ two other)

/-- The slot the tail will claim next is never ahead of it. -/
theorem stamp_tail_le (two : 2 ≤ n) (window : Window n counters writing reading) :
    counters.stamp (counters.tail % n) ≤ counters.tail := by
  rcases window.slots counters.tail le_rfl (by omega) with
    ⟨mark, -⟩ | ⟨other, lap, mark, -⟩ | ⟨other, lap, mark, -⟩
  · exact mark.le
  · rw [lap, Nat.add_mod_right, mark]
    omega
  · rw [lap, Nat.add_mod_right, mark]
    omega

/-- A free slot whose previous lap no reader holds is ready. -/
theorem ready_of_free (window : Window n counters writing reading) {position : Nat}
    (low : counters.tail ≤ position) (high : position < counters.head + n)
    (done : ∀ earlier, position = earlier + n → ¬ reading earlier) :
    counters.stamp (position % n) = position := by
  have inOrder := window.ordered
  rcases window.slots position low (by omega) with
    ⟨mark, -⟩ | ⟨other, lap, -, owner⟩ | ⟨other, lap, -, unread⟩
  · exact mark
  · have := (window.writingClaimed other owner).1
    omega
  · rcases unread with ahead | claimed
    · omega
    · exact absurd claimed (done other lap)

end Window

end SafetyCrit.Library.StampedRing
