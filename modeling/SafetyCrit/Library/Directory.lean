import Mathlib.Data.List.TakeDrop
import Mathlib.Logic.Function.Basic

/-!
Owns one directory of a file system: names linked to inodes, inodes that hold symbols,
and the calls that create, write, rename and unlink.

An inode keeps its number and what it holds when its last name is gone, so a descriptor
that is open on it still reads it. A rename moves a link in one step.
-/

namespace SafetyCrit.Library

/-- The inode each name is linked to, what the inodes hold, and the first inode that was
never used. -/
structure Directory (Name Symbol : Type*) where
  entry : Name → Option Nat
  content : Nat → List Symbol
  fresh : Nat

namespace Directory

variable {Name Symbol : Type*}

/-- A directory without a file. -/
def empty : Directory Name Symbol := ⟨fun _ => none, fun _ => [], 0⟩

/-- What a file holds, where there is one. -/
def read (directory : Directory Name Symbol) (name : Name) : Option (List Symbol) :=
  (directory.entry name).map directory.content

/-- `write` at an offset of an open inode. -/
def write (directory : Directory Name Symbol) (inode offset : Nat) (text : List Symbol) :
    Directory Name Symbol :=
  { directory with
    content := Function.update directory.content inode
      ((directory.content inode).take offset ++ text ++
        (directory.content inode).drop (offset + text.length)) }

variable [DecidableEq Name]

/-- `open` with `O_CREAT | O_TRUNC`: the inode it is open on, and the directory behind it. -/
def openTruncated (directory : Directory Name Symbol) (name : Name) :
    Nat × Directory Name Symbol :=
  match directory.entry name with
  | some inode =>
      (inode, { directory with content := Function.update directory.content inode [] })
  | none =>
      (directory.fresh,
        { entry := Function.update directory.entry name (some directory.fresh)
          content := Function.update directory.content directory.fresh []
          fresh := directory.fresh + 1 })

/-- `unlink`. -/
def unlink (directory : Directory Name Symbol) (name : Name) : Directory Name Symbol :=
  { directory with entry := Function.update directory.entry name none }

/-- `rename` of a file to another name. -/
def rename (directory : Directory Name Symbol) (source target : Name) : Directory Name Symbol :=
  match directory.entry source with
  | some inode =>
      { directory with
        entry := Function.update (Function.update directory.entry source none) target
          (some inode) }
  | none => directory

/-! ### Links -/

/-- Linked inodes were used, and no inode has two names. -/
structure WellFormed (directory : Directory Name Symbol) : Prop where
  allocated : ∀ name inode, directory.entry name = some inode → inode < directory.fresh
  single : ∀ first second inode, directory.entry first = some inode →
    directory.entry second = some inode → first = second

variable {directory : Directory Name Symbol} {name other : Name}

omit [DecidableEq Name] in
theorem wellFormed_empty : (empty : Directory Name Symbol).WellFormed where
  allocated name inode linked := by cases linked
  single first second inode linked := by cases linked

omit [DecidableEq Name] in
theorem WellFormed.write (sound : directory.WellFormed) (inode offset : Nat)
    (text : List Symbol) : (directory.write inode offset text).WellFormed :=
  ⟨sound.allocated, sound.single⟩

theorem WellFormed.unlink (sound : directory.WellFormed) (name : Name) :
    (directory.unlink name).WellFormed := by
  have kept : ∀ other inode, (directory.unlink name).entry other = some inode →
      directory.entry other = some inode := by
    intro other inode linked
    by_cases same : other = name
    · subst same
      simp [Directory.unlink] at linked
    · simpa [Directory.unlink, same] using linked
  exact ⟨fun other inode linked => sound.allocated other inode (kept other inode linked),
    fun first second inode left right =>
      sound.single first second inode (kept first inode left) (kept second inode right)⟩

/-- A linked inode that is not the one opened was linked under the same name before. -/
theorem entry_openTruncated (name : Name) {inode : Nat}
    (linked : (directory.openTruncated name).2.entry other = some inode) :
    (other = name ∧ inode = (directory.openTruncated name).1) ∨
      (other ≠ name ∧ directory.entry other = some inode) := by
  unfold openTruncated at linked ⊢
  cases found : directory.entry name with
  | some held =>
      simp only [found] at linked ⊢
      by_cases same : other = name
      · subst same
        exact Or.inl ⟨rfl, Option.some.inj (linked.symm.trans found)⟩
      · exact Or.inr ⟨same, linked⟩
  | none =>
      simp only [found] at linked ⊢
      by_cases same : other = name
      · subst same
        simp only [Function.update_self, Option.some.injEq] at linked
        exact Or.inl ⟨rfl, linked.symm⟩
      · simp only [ne_eq, same, not_false_eq_true, Function.update_of_ne] at linked
        exact Or.inr ⟨same, linked⟩

/-- The opened inode is the one the name had, or was never used. -/
theorem opened_openTruncated (directory : Directory Name Symbol) (name : Name) :
    directory.entry name = some (directory.openTruncated name).1 ∨
      (directory.entry name = none ∧ (directory.openTruncated name).1 = directory.fresh) := by
  unfold openTruncated
  cases found : directory.entry name with
  | some held => exact Or.inl rfl
  | none => exact Or.inr ⟨rfl, rfl⟩

/-- The opened inode has no other name. -/
theorem WellFormed.opened_ne (sound : directory.WellFormed) {inode : Nat} (differs : other ≠ name)
    (linked : directory.entry other = some inode) : inode ≠ (directory.openTruncated name).1 := by
  rintro rfl
  rcases opened_openTruncated directory name with same | ⟨-, unused⟩
  · exact differs (sound.single other name _ linked same)
  · have := sound.allocated other _ linked
    omega

theorem fresh_le_openTruncated (directory : Directory Name Symbol) (name : Name) :
    directory.fresh ≤ (directory.openTruncated name).2.fresh := by
  unfold openTruncated
  split <;> simp

theorem WellFormed.openTruncated (sound : directory.WellFormed) (name : Name) :
    (directory.openTruncated name).2.WellFormed where
  allocated other inode linked := by
    rcases entry_openTruncated name linked with ⟨rfl, rfl⟩ | ⟨-, before⟩
    · unfold Directory.openTruncated
      cases found : directory.entry other with
      | some held => exact sound.allocated other held found
      | none => exact Nat.lt_succ_self _
    · exact Nat.lt_of_lt_of_le (sound.allocated other inode before) (fresh_le_openTruncated _ _)
  single first second inode left right := by
    rcases entry_openTruncated name left with ⟨rfl, rfl⟩ | ⟨differs, before⟩
    · rcases entry_openTruncated _ right with ⟨rfl, -⟩ | ⟨differs, before⟩
      · rfl
      · exact absurd rfl (sound.opened_ne differs before)
    · rcases entry_openTruncated name right with ⟨rfl, rfl⟩ | ⟨-, other⟩
      · exact absurd rfl (sound.opened_ne differs before)
      · exact sound.single first second inode before other

theorem entry_openTruncated_self (directory : Directory Name Symbol) (name : Name) :
    (directory.openTruncated name).2.entry name = some (directory.openTruncated name).1 := by
  unfold openTruncated
  cases found : directory.entry name with
  | some held => exact found
  | none => simp

theorem entry_openTruncated_of_ne (differs : other ≠ name) :
    (directory.openTruncated name).2.entry other = directory.entry other := by
  unfold openTruncated
  split <;> simp [differs]

theorem content_openTruncated_self (directory : Directory Name Symbol) (name : Name) :
    (directory.openTruncated name).2.content (directory.openTruncated name).1 = [] := by
  unfold openTruncated
  split <;> simp

theorem content_openTruncated_of_ne {inode : Nat}
    (differs : inode ≠ (directory.openTruncated name).1) :
    (directory.openTruncated name).2.content inode = directory.content inode := by
  unfold openTruncated at differs ⊢
  split at differs <;> simp_all

theorem entry_rename_of_ne {source target : Name} (notSource : other ≠ source)
    (notTarget : other ≠ target) :
    (directory.rename source target).entry other = directory.entry other := by
  unfold rename
  split <;> simp [notSource, notTarget]

theorem entry_rename_source {source target : Name} (differ : source ≠ target) :
    (directory.rename source target).entry source = none := by
  unfold rename
  cases found : directory.entry source with
  | some inode => simp [differ]
  | none => exact found

theorem entry_rename_target {source target : Name} {inode : Nat}
    (linked : directory.entry source = some inode) :
    (directory.rename source target).entry target = some inode := by
  simp [rename, linked]

@[simp] theorem content_rename (directory : Directory Name Symbol) (source target : Name) :
    (directory.rename source target).content = directory.content := by
  unfold rename
  split <;> rfl

@[simp] theorem fresh_rename (directory : Directory Name Symbol) (source target : Name) :
    (directory.rename source target).fresh = directory.fresh := by
  unfold rename
  split <;> rfl

/-- After a rename the old names of an inode are gone. -/
theorem entry_of_rename {source target : Name} (differ : source ≠ target) {inode : Nat}
    (linked : (directory.rename source target).entry other = some inode) :
    (other = target ∧ directory.entry source = some inode) ∨
      (other ≠ source ∧ directory.entry other = some inode) := by
  by_cases isSource : other = source
  · subst isSource
    rw [entry_rename_source differ] at linked
    cases linked
  · by_cases isTarget : other = target
    · subst isTarget
      cases found : directory.entry source with
      | some held =>
          rw [entry_rename_target found] at linked
          exact Or.inl ⟨rfl, by rw [linked]⟩
      | none =>
          rw [rename, found] at linked
          exact Or.inr ⟨isSource, linked⟩
    · rw [entry_rename_of_ne isSource isTarget] at linked
      exact Or.inr ⟨isSource, linked⟩

theorem WellFormed.rename (sound : directory.WellFormed) {source target : Name}
    (differ : source ≠ target) : (directory.rename source target).WellFormed where
  allocated name inode linked := by
    rw [fresh_rename]
    rcases entry_of_rename differ linked with ⟨-, before⟩ | ⟨-, before⟩
    · exact sound.allocated _ _ before
    · exact sound.allocated _ _ before
  single first second inode left right := by
    rcases entry_of_rename differ left with ⟨rfl, before⟩ | ⟨notSource, before⟩
    · rcases entry_of_rename differ right with ⟨rfl, -⟩ | ⟨notSource, other⟩
      · rfl
      · exact absurd (sound.single second source inode other before) notSource
    · rcases entry_of_rename differ right with ⟨rfl, other⟩ | ⟨-, other⟩
      · exact absurd (sound.single first source inode before other) notSource
      · exact sound.single first second inode before other

/-! ### What the files hold -/

omit [DecidableEq Name] in
theorem content_write_of_ne {inode held offset : Nat} {text : List Symbol}
    (differs : held ≠ inode) :
    (directory.write inode offset text).content held = directory.content held := by
  simp [write, differs]

omit [DecidableEq Name] in
/-- A write at the end of what an inode holds appends. -/
theorem content_write_end {inode offset : Nat} {text : List Symbol}
    (atEnd : offset = (directory.content inode).length) :
    (directory.write inode offset text).content inode = directory.content inode ++ text := by
  subst atEnd
  simp [write, List.drop_of_length_le]

theorem read_unlink_self : (directory.unlink name).read name = none := by
  simp [read, unlink]

theorem read_rename_target {source target : Name} {inode : Nat}
    (linked : directory.entry source = some inode) :
    (directory.rename source target).read target = some (directory.content inode) := by
  rw [read, entry_rename_target linked, content_rename, Option.map_some]

/-- A name keeps its inode, and the inode what it holds. -/
def KeepsFile (before after : Directory Name Symbol) (name : Name) : Prop :=
  after.entry name = before.entry name ∧
    ∀ inode, before.entry name = some inode → after.content inode = before.content inode

omit [DecidableEq Name] in
theorem KeepsFile.refl (directory : Directory Name Symbol) (name : Name) :
    KeepsFile directory directory name :=
  ⟨rfl, fun _ _ => rfl⟩

omit [DecidableEq Name] in
theorem KeepsFile.read {before after : Directory Name Symbol} (kept : KeepsFile before after name) :
    after.read name = before.read name := by
  unfold Directory.read
  rw [kept.1]
  cases linked : before.entry name with
  | none => rfl
  | some inode => exact congrArg some (kept.2 inode linked)

theorem keepsFile_openTruncated (sound : directory.WellFormed) (differs : other ≠ name) :
    KeepsFile directory (directory.openTruncated name).2 other :=
  ⟨entry_openTruncated_of_ne differs, fun _ linked =>
    content_openTruncated_of_ne (sound.opened_ne differs linked)⟩

omit [DecidableEq Name] in
theorem keepsFile_write (sound : directory.WellFormed) {inode offset : Nat} {text : List Symbol}
    (linked : directory.entry name = some inode) (differs : other ≠ name) :
    KeepsFile directory (directory.write inode offset text) other := by
  refine ⟨rfl, fun held found => content_write_of_ne ?_⟩
  rintro rfl
  exact differs (sound.single other name held found linked)

theorem keepsFile_unlink (differs : other ≠ name) :
    KeepsFile directory (directory.unlink name) other :=
  ⟨by simp [unlink, differs], fun _ _ => rfl⟩

theorem keepsFile_rename {source target : Name} (notSource : other ≠ source)
    (notTarget : other ≠ target) : KeepsFile directory (directory.rename source target) other :=
  ⟨entry_rename_of_ne notSource notTarget, fun inode _ => by rw [content_rename]⟩

end Directory

end SafetyCrit.Library
