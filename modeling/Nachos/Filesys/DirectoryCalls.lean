import Nachos.Filesys.Access
import Nachos.Filesys.Directory
import Nachos.Foundation.Transitions

/-!
# A directory as a map

Names count as the same if `strncmp` finds no difference in their first
`FileNameMaxLen` characters.
-/

namespace Nachos

open Foundation

namespace Directory

/-! ## Calls and their history -/

inductive Call where
  | add (name : List Byte) (newSector : Word)
  | remove (name : List Byte)
  deriving DecidableEq, Repr

def perform (directory : Directory) : Call → Bool × Directory
  | .add name newSector => directory.add name newSector.toInt
  | .remove name => directory.remove name

@[simp]
theorem perform_add
    (directory : Directory) (name : List Byte) (newSector : Word) :
    directory.perform (.add name newSector) =
      directory.add name newSector.toInt :=
  rfl

@[simp]
theorem perform_remove (directory : Directory) (name : List Byte) :
    directory.perform (.remove name) = directory.remove name :=
  rfl

/-- What one more call makes of the sector that a name stands for. -/
def recorded (name : List Byte) (before : Option Word) :
    Call × Bool → Option Word
  | (.add added newSector, true) =>
    if strncmpEq fileNameMaxLen added name then some newSector else before
  | (.remove removed, true) =>
    if strncmpEq fileNameMaxLen removed name then none else before
  | (_, false) => before

/-- The sector of the last successful `Add` of the name, unless it has been
removed since.  The history is oldest first. -/
def lastAdded (name : List Byte) (history : List (Call × Bool)) :
    Option Word :=
  history.foldl (recorded name) none

def replay (initial : Directory) (history : List (Call × Bool)) : Directory :=
  history.foldl (fun directory call => (directory.perform call.1).2) initial

theorem lastAdded_snoc
    (name : List Byte) (history : List (Call × Bool)) (call : Call × Bool) :
    lastAdded name (history ++ [call]) =
      recorded name (lastAdded name history) call := by
  rw [lastAdded, List.foldl_append]
  rfl

theorem replay_snoc
    (initial : Directory) (history : List (Call × Bool)) (call : Call × Bool) :
    replay initial (history ++ [call]) =
      ((replay initial history).perform call.1).2 := by
  rw [replay, List.foldl_append]
  rfl

def Apart (first second : DirectoryEntry) : Prop :=
  strncmpEq fileNameMaxLen first.name second.name = false

/-- The entries in use have different names, and a name is found with the sector
it was last added with. -/
structure Agrees (directory : Directory) (history : List (Call × Bool)) :
    Prop where
  apart : (directory.table.filter DirectoryEntry.inUse).Pairwise Apart
  found :
    ∀ name,
      (directory.table.find? (holds name)).map DirectoryEntry.sector =
        lastAdded name history

variable {directory : Directory} {history : List (Call × Bool)}

theorem agrees_create (junk : Junk) (size : Nat) :
    (create junk size).Agrees [] := by
  have unused : ∀ entry ∈ (create junk size).table, entry.inUse = false := by
    intro entry member
    obtain ⟨_, _, rfl⟩ := List.mem_map.mp member
    rfl
  constructor
  · rw [List.filter_eq_nil_iff.mpr fun entry member => by
      simp [unused entry member]]
    exact List.Pairwise.nil
  · intro name
    rw [find?_of_no_match fun entry member => by
      rw [holds, unused entry member, Bool.false_and]]
    rfl

theorem holds_iff
    {name : List Byte} {entry : DirectoryEntry} :
    holds name entry = true ↔
      entry.inUse = true ∧
        strncpyBytes entry.name fileNameMaxLen =
          strncpyBytes name fileNameMaxLen := by
  rw [holds, Bool.and_eq_true, strncmpEq_iff]

theorem Apart.symm
    {first second : DirectoryEntry} (apart : Apart first second) :
    Apart second first := by
  rw [Apart, ← Bool.not_eq_true, strncmpEq_iff] at apart ⊢
  exact Ne.symm apart

theorem Agrees.find_eq (agrees : directory.Agrees history) (name : List Byte) :
    directory.find name =
      ((lastAdded name history).map BitVec.toInt).getD (-1) := by
  rw [← agrees.found]
  unfold find
  cases directory.table.find? (holds name) with
  | none => rfl
  | some entry => rfl

theorem Agrees.lastAdded_eq_none_iff
    (agrees : directory.Agrees history) {name : List Byte} :
    lastAdded name history = none ↔
      ∀ entry ∈ directory.table, holds name entry = false := by
  rw [← agrees.found, Option.map_eq_none_iff, List.find?_eq_none]
  simp only [Bool.not_eq_true]

/-! ## One call -/

theorem add_cases (directory : Directory) (name : List Byte) (newSector : Int) :
    ((∃ entry ∈ directory.table, holds name entry = true) ∧
        directory.add name newSector = (false, directory)) ∨
      ((∀ entry ∈ directory.table, holds name entry = false) ∧
        (((∀ entry ∈ directory.table, entry.inUse = true) ∧
            directory.add name newSector = (false, directory)) ∨
          ∃ before free after,
            FirstMatch (fun entry => !entry.inUse) directory.table before free
                after ∧
              directory.add name newSector =
                (true, ⟨before ++ filled name newSector free :: after⟩))) := by
  rcases firstMatch_cases (holds name) directory.table with
    absent | ⟨before, entry, after, first⟩
  · right
    refine ⟨absent, ?_⟩
    rcases firstMatch_cases (fun entry => !entry.inUse) directory.table with
      full | ⟨before, free, after, first⟩
    · left
      exact ⟨by simpa using full, add_of_full newSector full⟩
    · right
      exact ⟨before, free, after, first, add_eq absent first newSector⟩
  · left
    refine ⟨⟨entry, first.mem, first.passes⟩, ?_⟩
    have isIndex : directory.findIndex name = (before.length : Int) := by
      unfold findIndex
      rw [first.findIdx?]
    unfold add
    rw [isIndex, if_pos (by omega)]

theorem remove_cases (directory : Directory) (name : List Byte) :
    ((∀ entry ∈ directory.table, holds name entry = false) ∧
        directory.remove name = (false, directory)) ∨
      ∃ before entry after,
        FirstMatch (holds name) directory.table before entry after ∧
          directory.remove name = (true, ⟨before ++ released entry :: after⟩) := by
  rcases firstMatch_cases (holds name) directory.table with
    absent | ⟨before, entry, after, first⟩
  · left
    refine ⟨absent, ?_⟩
    unfold remove
    rw [findIdx?_of_no_match absent]
  · right
    exact ⟨before, entry, after, first, (remove_firstMatch first).1⟩

theorem Agrees.snoc_failed
    (agrees : directory.Agrees history) (call : Call) :
    directory.Agrees (history ++ [(call, false)]) := by
  refine ⟨agrees.apart, ?_⟩
  intro name
  rw [lastAdded_snoc, agrees.found]
  cases call <;> rfl

theorem Agrees.added
    (agrees : directory.Agrees history) {name : List Byte} (newSector : Word)
    (absent : ∀ entry ∈ directory.table, holds name entry = false)
    {before after : List DirectoryEntry} {free : DirectoryEntry}
    (first : FirstMatch (fun entry => !entry.inUse) directory.table before free
      after) :
    Agrees ⟨before ++ filled name newSector.toInt free :: after⟩
      (history ++ [(.add name newSector, true)]) := by
  obtain ⟨apart, found⟩ := agrees
  have unused : free.inUse = false := by simpa using first.passes
  rw [first.split] at apart found absent
  constructor
  · have isApart : ∀ entry ∈ before.filter DirectoryEntry.inUse ++
        after.filter DirectoryEntry.inUse,
        Apart (filled name newSector.toInt free) entry := by
      intro entry member
      rw [← List.filter_append, List.mem_filter, List.mem_append] at member
      have other := absent entry (by simp [member.1.imp_right Or.inr])
      rw [← Bool.not_eq_true, holds_iff, not_and] at other
      rw [Apart, ← Bool.not_eq_true, strncmpEq_iff, filled,
        strncpyBytes_strncpy]
      exact Ne.symm (other member.2)
    rw [List.filter_append, List.filter_cons_of_neg (by simp [unused])] at apart
    rw [List.filter_append, List.filter_cons_of_pos rfl,
      List.pairwise_middle fun isApart => isApart.symm, List.pairwise_cons]
    exact ⟨isApart, apart⟩
  · intro other
    rw [lastAdded_snoc, recorded, ← found]
    have skipped : holds other free = false := by
      rw [holds, unused, Bool.false_and]
    split_ifs with same
    · have firstAdded : FirstMatch (holds other)
          (before ++ filled name newSector.toInt free :: after) before
          (filled name newSector.toInt free) after := by
        refine ⟨rfl, (holds_filled _ _ _ _).trans same, ?_⟩
        intro entry member
        rw [holds_congr same]
        exact absent entry (List.mem_append_left _ member)
      rw [firstAdded.find?]
      exact congrArg some (BitVec.ofInt_toInt)
    · have skippedAdded :
          holds other (filled name newSector.toInt free) = false := by
        rw [holds_filled]
        simpa using same
      rw [find?_skip skipped, find?_skip skippedAdded]

theorem Agrees.removed
    (agrees : directory.Agrees history) {name : List Byte}
    {before after : List DirectoryEntry} {entry : DirectoryEntry}
    (first : FirstMatch (holds name) directory.table before entry after) :
    Agrees ⟨before ++ released entry :: after⟩
      (history ++ [(.remove name, true)]) := by
  obtain ⟨apart, found⟩ := agrees
  obtain ⟨used, isName⟩ := holds_iff.mp first.passes
  rw [first.split] at apart found
  rw [List.filter_append, List.filter_cons_of_pos used,
    List.pairwise_middle fun isApart => isApart.symm, List.pairwise_cons,
    ← List.filter_append] at apart
  constructor
  · rw [List.filter_append, List.filter_cons_of_neg (by simp [released]),
      ← List.filter_append]
    exact apart.2
  · intro other
    have skipped : holds other (released entry) = false := rfl
    rw [lastAdded_snoc, recorded, ← found, find?_skip skipped]
    split_ifs with same
    · rw [find?_of_no_match, Option.map_none]
      intro held member
      by_contra isHeld
      rw [Bool.not_eq_false, holds_iff] at isHeld
      have isApart := apart.1 held (List.mem_filter.mpr ⟨member, isHeld.1⟩)
      rw [Apart, ← Bool.not_eq_true, strncmpEq_iff] at isApart
      rw [strncmpEq_iff] at same
      exact isApart (isName.trans (same.trans isHeld.2.symm))
    · have different : holds other entry = false := by
        rw [← Bool.not_eq_true, holds_iff, not_and]
        intro _ isOther
        exact same (strncmpEq_iff.mpr (isName.symm.trans isOther))
      rw [find?_skip different]

/-- Each call keeps the directory in step with its history. -/
theorem Agrees.perform
    (agrees : directory.Agrees history) (call : Call) :
    (directory.perform call).2.Agrees
      (history ++ [(call, (directory.perform call).1)]) := by
  cases call with
  | add name newSector =>
    rw [perform_add]
    rcases directory.add_cases name newSector.toInt with
      ⟨_, result⟩ | ⟨absent, ⟨_, result⟩ | ⟨before, free, after, first, result⟩⟩
    · rw [result]
      exact agrees.snoc_failed _
    · rw [result]
      exact agrees.snoc_failed _
    · rw [result]
      exact agrees.added newSector absent first
  | remove name =>
    rw [perform_remove]
    rcases directory.remove_cases name with
      ⟨_, result⟩ | ⟨before, entry, after, first, result⟩
    · rw [result]
      exact agrees.snoc_failed _
    · rw [result]
      exact agrees.removed first

theorem length_perform (directory : Directory) (call : Call) :
    (directory.perform call).2.table.length = directory.table.length := by
  cases call with
  | add name newSector =>
    rw [perform_add]
    rcases directory.add_cases name newSector.toInt with
      ⟨_, result⟩ | ⟨absent, ⟨_, result⟩ | ⟨before, free, after, first, result⟩⟩
    · rw [result]
    · rw [result]
    · rw [result]
      exact first.length_replaced _
  | remove name =>
    rw [perform_remove]
    rcases directory.remove_cases name with
      ⟨_, result⟩ | ⟨before, entry, after, first, result⟩
    · rw [result]
    · rw [result]
      exact first.length_replaced _

theorem length_replay (initial : Directory) (history : List (Call × Bool)) :
    (replay initial history).table.length = initial.table.length := by
  induction history using List.reverseRecOn with
  | nil =>
    rfl
  | append_singleton history call ih =>
    rw [replay_snoc, length_perform, ih]

/-! ## The directory file -/

def transferred (file : OpenFile) (size : Nat) : Nat :=
  min (wrap (DirectoryEntry.size * size : Nat)).toNat file.hdr.length

def Stored (file : OpenFile) (directory : Directory) (disk : DiskImage) : Prop :=
  slice (OpenFile.contents disk file.hdr) 0
      (transferred file directory.table.length) =
    slice directory.toBytes 0 (transferred file directory.table.length)

variable {file : OpenFile} {disk : DiskImage}

theorem transferred_le (file : OpenFile) (directory : Directory) :
    transferred file directory.table.length ≤ directory.toBytes.length := by
  have bound := wrap_natCast_le (DirectoryEntry.size * directory.table.length)
  rw [length_toBytes]
  unfold transferred
  omega

theorem transferred_cases (file : OpenFile) (size : Nat) :
    ∃ count : Nat, count < 2 ^ 31 ∧
      transferred file size = min count (file.hdr.length - 0) ∧
      (∀ disk junk into,
        file.readAt disk junk into 0
            (wrap (DirectoryEntry.size * size : Nat)) 0 =
          file.readAt disk junk into (0 : Nat) count (0 : Nat)) ∧
      ∀ disk junk source,
        file.writeAt disk junk source
            (wrap (DirectoryEntry.size * size : Nat)) 0 =
          file.writeAt disk junk source count (0 : Nat) := by
  have range := wrap_range (DirectoryEntry.size * size : Nat)
  unfold transferred
  generalize wrap (DirectoryEntry.size * size : Nat) = numBytes at *
  refine ⟨numBytes.toNat, by omega, rfl, ?_⟩
  rcases lt_or_ge numBytes 0 with negative | nonnegative
  · have refused : file.refused numBytes 0 = true :=
      decide_eq_true (Or.inl negative.le)
    have refusedNone : file.refused (0 : Nat) (0 : Nat) = true :=
      decide_eq_true (Or.inl le_rfl)
    rw [Int.toNat_of_nonpos negative.le]
    constructor
    · intro disk junk into
      rw [OpenFile.readAt, OpenFile.readAt, if_pos refused, if_pos refusedNone]
    · intro disk junk source
      rw [OpenFile.writeAt, OpenFile.writeAt, if_pos refused, if_pos refusedNone]
  · rw [Int.toNat_of_nonneg nonnegative]
    exact ⟨fun _ _ _ => rfl, fun _ _ _ => rfl⟩

theorem fetchFrom_eq
    (wellFormed : file.hdr.WellFormed) (directory : Directory)
    (disk : DiskImage) (junk : Junk) :
    directory.fetchFrom file disk junk =
      .ok (ofBytes directory.table.length
        (overlay directory.toBytes
          (slice (OpenFile.contents disk file.hdr) 0
            (transferred file directory.table.length)) 0)) := by
  have fits := transferred_le file directory
  obtain ⟨count, small, isTransferred, reads, _⟩ :=
    transferred_cases file directory.table.length
  rw [isTransferred] at fits ⊢
  unfold fetchFrom
  rw [reads, OpenFile.readAt_spec wellFormed junk (by omega) (by omega)]
  rfl

/-- `WriteBack` returns, and the file then holds the directory. -/
theorem writeBack_eq
    (wellFormed : file.hdr.WellFormed) (nodup : file.hdr.sectors.Nodup)
    (directory : Directory) (disk : DiskImage) (junk : Nat → Junk) :
    ∃ disk', directory.writeBack file disk junk = .ok disk' ∧
      Stored file directory disk' := by
  have fits := transferred_le file directory
  obtain ⟨count, small, isTransferred, _, writes⟩ :=
    transferred_cases file directory.table.length
  unfold Stored
  rw [isTransferred] at fits ⊢
  obtain ⟨disk', written, _, bytes⟩ :=
    @OpenFile.writeAt_spec file wellFormed nodup disk junk directory.toBytes count
      0 (by omega) fits
  refine ⟨disk', ?_, ?_⟩
  · unfold writeBack
    rw [writes, written]
    rfl
  · apply List.ext_getElem?
    intro index
    rw [getElem?_slice, getElem?_slice]
    split_ifs with inside
    · rw [bytes _ (by omega), if_pos (by omega), Nat.sub_zero]
    · rfl

theorem stored_congr
    {disk' : DiskImage}
    (same : ∀ sector ∈ file.hdr.sectors, disk' sector = disk sector)
    (stored : Stored file directory disk) : Stored file directory disk' := by
  unfold Stored
  rw [OpenFile.contents_congr same]
  exact stored

theorem fetchFrom_stored
    (wellFormed : file.hdr.WellFormed) (stored : Stored file directory disk)
    (junk : Junk) :
    directory.fetchFrom file disk junk = .ok directory := by
  have fits := transferred_le file directory
  rw [fetchFrom_eq wellFormed, stored, overlay_slice_self (by omega),
    ofBytes_toBytes]

theorem fetchFrom_covered
    {old : Directory} (wellFormed : file.hdr.WellFormed)
    (covered : DirectoryEntry.size * directory.table.length ≤ file.hdr.length)
    (sameSize : old.table.length = directory.table.length)
    (stored : Stored file old disk) (junk : Junk) :
    directory.fetchFrom file disk junk = .ok old := by
  have all :
      transferred file directory.table.length = old.toBytes.length := by
    rw [length_toBytes, sameSize, transferred,
      wrap_tableBytes wellFormed covered, Int.toNat_natCast,
      Nat.min_eq_left covered]
  have whole :
      slice (OpenFile.contents disk file.hdr) 0 old.toBytes.length =
        old.toBytes := by
    unfold Stored at stored
    rw [sameSize, all] at stored
    exact stored.trans (slice_full old.toBytes)
  rw [fetchFrom_eq wellFormed, all, whole,
    overlay_full (by rw [length_toBytes, length_toBytes, sameSize]), ← sameSize,
    ofBytes_toBytes]

/-! ## Sessions -/

/-- A directory in memory, the disk with its file, and the calls that the
directory in memory and the one in the file are made of. -/
structure Session where
  directory : Directory
  disk : DiskImage
  history : List (Call × Bool)
  saved : Option (List (Call × Bool))

inductive Action where
  | call (call : Call)
  | writeBack (junk : Nat → Junk)
  | fetchFrom (junk : Junk)
  /-- `FetchFrom` in a new `Directory`. -/
  | reopen (memory junk : Junk)
  /-- Other sectors are written. -/
  | elsewhere

/-- `FetchFrom` comes after a `WriteBack`, and undoes the calls since then.  If
the file is shorter than the table, there must have been none. -/
def sessions (file : OpenFile) (size : Nat) :
    TransitionSystem Session Action where
  start session :=
    (∃ junk, session.directory = create junk size) ∧
      session.history = [] ∧ session.saved = none
  step session action next :=
    match action with
    | .call call =>
      next = { session with
        directory := (session.directory.perform call).2
        history :=
          session.history ++ [(call, (session.directory.perform call).1)] }
    | .writeBack junk =>
      ∃ disk,
        session.directory.writeBack file session.disk junk = .ok disk ∧
          next = { session with disk, saved := some session.history }
    | .fetchFrom junk =>
      ∃ old directory,
        session.saved = some old ∧
          (old = session.history ∨
            DirectoryEntry.size * size ≤ file.hdr.length) ∧
          session.directory.fetchFrom file session.disk junk = .ok directory ∧
          next = { session with directory, history := old }
    | .reopen memory junk =>
      ∃ old directory,
        session.saved = some old ∧
          DirectoryEntry.size * size ≤ file.hdr.length ∧
          (create memory size).fetchFrom file session.disk junk =
            .ok directory ∧
          next = { session with directory, history := old }
    | .elsewhere =>
      ∃ disk,
        (∀ sector ∈ file.hdr.sectors, disk sector = session.disk sector) ∧
          next = { session with disk }

structure Tracks (file : OpenFile) (initial : Directory) (session : Session) :
    Prop where
  isReplay : session.directory = replay initial session.history
  agrees : session.directory.Agrees session.history
  stored :
    ∀ old, session.saved = some old →
      Stored file (replay initial old) session.disk ∧
        (replay initial old).Agrees old

variable {session next : Session} {initial : Directory} {size : Nat}

theorem Tracks.of_step
    (wellFormed : file.hdr.WellFormed) (nodup : file.hdr.sectors.Nodup)
    (sized : initial.table.length = size) (tracks : Tracks file initial session)
    {action : Action} (taken : (sessions file size).step session action next) :
    Tracks file initial next := by
  obtain ⟨isReplay, agrees, stored⟩ := tracks
  cases action with
  | call call =>
    cases taken
    refine ⟨?_, agrees.perform call, stored⟩
    rw [replay_snoc, ← isReplay]
  | writeBack junk =>
    obtain ⟨disk, written, rfl⟩ := taken
    obtain ⟨disk', written', isStored⟩ :=
      writeBack_eq wellFormed nodup session.directory session.disk junk
    obtain rfl := Except.ok.inj (written.symm.trans written')
    refine ⟨isReplay, agrees, ?_⟩
    intro old isSaved
    obtain rfl : session.history = old := Option.some.inj isSaved
    rw [← isReplay]
    exact ⟨isStored, agrees⟩
  | fetchFrom junk =>
    obtain ⟨old, directory, isSaved, intact, fetched, rfl⟩ := taken
    obtain ⟨isStored, oldAgrees⟩ := stored old isSaved
    have isOld :
        session.directory.fetchFrom file session.disk junk =
          .ok (replay initial old) := by
      rcases intact with same | covered
      · rw [isReplay, ← same]
        exact fetchFrom_stored wellFormed isStored junk
      · rw [isReplay]
        refine fetchFrom_covered wellFormed ?_ ?_ isStored junk
        · rw [length_replay, sized]
          exact covered
        · rw [length_replay, length_replay]
    obtain rfl := Except.ok.inj (fetched.symm.trans isOld)
    exact ⟨rfl, oldAgrees, stored⟩
  | reopen memory junk =>
    obtain ⟨old, directory, isSaved, covered, fetched, rfl⟩ := taken
    obtain ⟨isStored, oldAgrees⟩ := stored old isSaved
    have isOld :
        (create memory size).fetchFrom file session.disk junk =
          .ok (replay initial old) := by
      refine fetchFrom_covered wellFormed ?_ ?_ isStored junk
      · rw [length_table_create]
        exact covered
      · rw [length_replay, sized, length_table_create]
    obtain rfl := Except.ok.inj (fetched.symm.trans isOld)
    exact ⟨rfl, oldAgrees, stored⟩
  | elsewhere =>
    obtain ⟨disk, same, rfl⟩ := taken
    refine ⟨isReplay, agrees, ?_⟩
    intro old isSaved
    obtain ⟨isStored, oldAgrees⟩ := stored old isSaved
    exact ⟨stored_congr same isStored, oldAgrees⟩

theorem exists_tracks
    (wellFormed : file.hdr.WellFormed) (nodup : file.hdr.sectors.Nodup)
    (reachable : (sessions file size).Reachable session) :
    ∃ junk, Tracks file (create junk size) session := by
  apply reachable.invariant
  · rintro start ⟨⟨junk, isNew⟩, noHistory, nothingSaved⟩
    refine ⟨junk, ?_, ?_, ?_⟩
    · rw [isNew, noHistory]
      rfl
    · rw [isNew, noHistory]
      exact agrees_create junk size
    · intro old isSaved
      rw [nothingSaved] at isSaved
      cases isSaved
  · rintro source action target ⟨junk, tracks⟩ taken
    exact ⟨junk, tracks.of_step wellFormed nodup
      (length_table_create junk size) taken⟩

theorem Agrees.add_fails_iff
    (agrees : directory.Agrees history) (name : List Byte) (newSector : Int) :
    (directory.add name newSector).1 = false ↔
      (lastAdded name history).isSome ∨
        ∀ entry ∈ directory.table, entry.inUse = true := by
  rcases directory.add_cases name newSector with
    ⟨present, result⟩ | ⟨absent, ⟨full, result⟩ | ⟨_, free, _, first, result⟩⟩
  · rw [result]
    refine iff_of_true rfl (Or.inl ?_)
    rw [Option.isSome_iff_ne_none, Ne, agrees.lastAdded_eq_none_iff]
    intro absent
    obtain ⟨entry, member, isHeld⟩ := present
    rw [absent entry member] at isHeld
    cases isHeld
  · rw [result]
    exact iff_of_true rfl (Or.inr full)
  · rw [result]
    refine iff_of_false (by simp) ?_
    rintro (isAdded | full)
    · rw [agrees.lastAdded_eq_none_iff.mpr absent] at isAdded
      cases isAdded
    · have unused := first.passes
      rw [full free first.mem] at unused
      cases unused

theorem Agrees.remove_fails_iff
    (agrees : directory.Agrees history) (name : List Byte) :
    (directory.remove name).1 = false ↔ lastAdded name history = none := by
  rw [agrees.lastAdded_eq_none_iff]
  rcases directory.remove_cases name with
    ⟨absent, result⟩ | ⟨_, entry, _, first, result⟩
  · rw [result]
    exact iff_of_true rfl absent
  · rw [result]
    refine iff_of_false (by simp) ?_
    intro absent
    have isHeld := first.passes
    rw [absent entry first.mem] at isHeld
    cases isHeld

theorem perform_of_failed {call : Call}
    (failed : (directory.perform call).1 = false) :
    (directory.perform call).2 = directory := by
  cases call with
  | add name newSector =>
    rw [perform_add] at failed ⊢
    rcases directory.add_cases name newSector.toInt with
      ⟨_, result⟩ | ⟨_, ⟨_, result⟩ | ⟨_, _, _, _, result⟩⟩
    · rw [result]
    · rw [result]
    · rw [result] at failed
      cases failed
  | remove name =>
    rw [perform_remove] at failed ⊢
    rcases directory.remove_cases name with
      ⟨_, result⟩ | ⟨_, _, _, _, result⟩
    · rw [result]
    · rw [result] at failed
      cases failed

/-- In every session a directory is a map from names to sectors, and a
`WriteBack` and `FetchFrom` at this point would leave it as it is. -/
theorem sessions_map
    {file : OpenFile} (wellFormed : file.hdr.WellFormed)
    (nodup : file.hdr.sectors.Nodup) {size : Nat} {session : Session}
    (reachable : (sessions file size).Reachable session) :
    (session.directory.table.filter DirectoryEntry.inUse).Pairwise Apart ∧
      (∀ name, session.directory.find name =
        ((lastAdded name session.history).map BitVec.toInt).getD (-1)) ∧
      (∀ name newSector,
        (session.directory.add name newSector).1 = false ↔
          (lastAdded name session.history).isSome ∨
            ∀ entry ∈ session.directory.table, entry.inUse = true) ∧
      (∀ name,
        (session.directory.remove name).1 = false ↔
          lastAdded name session.history = none) ∧
      (∀ call, (session.directory.perform call).1 = false →
        (session.directory.perform call).2 = session.directory) ∧
      ∀ junk, ∃ disk,
        session.directory.writeBack file session.disk junk = .ok disk ∧
          ∀ junk', session.directory.fetchFrom file disk junk' =
            .ok session.directory := by
  obtain ⟨_, tracks⟩ := exists_tracks wellFormed nodup reachable
  have agrees := tracks.agrees
  refine ⟨agrees.apart, agrees.find_eq, agrees.add_fails_iff,
    agrees.remove_fails_iff, fun _ => perform_of_failed, ?_⟩
  intro junk
  obtain ⟨disk, written, stored⟩ :=
    writeBack_eq wellFormed nodup session.directory session.disk junk
  exact ⟨disk, written, fetchFrom_stored wellFormed stored⟩

/-- A directory of two entries: `"a"` and `"b"` are added, `"a"` is removed, and
`"c"` takes its place. -/
theorem sessions_map_two_entries :
    ∃ session, (sessions OpenFile.scattered 2).Reachable session ∧
      session.directory.find [97] = -1 ∧ session.directory.find [98] = 8 ∧
      session.directory.find [99] = 9 ∧
      (session.directory.add [100] 5).1 = false ∧
      (session.directory.remove [97]).1 = false := by
  have step : ∀ {session : Session} (call : Call),
      (sessions OpenFile.scattered 2).Reachable session →
      (sessions OpenFile.scattered 2).Reachable { session with
        directory := (session.directory.perform call).2
        history :=
          session.history ++ [(call, (session.directory.perform call).1)] } :=
    fun {session} call reachable => @TransitionSystem.Reachable.step _ _ _
      session _ (.call call) reachable rfl
  have now : (sessions OpenFile.scattered 2).Reachable
      ⟨create (fun _ => 0) 2, blankDisk, [], none⟩ :=
    .start ⟨⟨fun _ => 0, rfl⟩, rfl, rfl⟩
  have now := step (.add [97] 7) now
  have now := step (.add [98] 8) now
  have now := step (.remove [97]) now
  have now := step (.add [99] 9) now
  obtain ⟨_, found, addFails, removeFails, _⟩ :=
    sessions_map OpenFile.wellFormed_scattered (by decide) now
  exact ⟨_, now, (found [97]).trans (by decide), (found [98]).trans (by decide),
    (found [99]).trans (by decide),
    (addFails [100] 5).mpr (Or.inr (by decide)),
    (removeFails [97]).mpr (by decide)⟩

end Directory

end Nachos
