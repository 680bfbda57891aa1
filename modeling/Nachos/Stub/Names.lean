import Nachos.Stub.Runs
import Mathlib.Data.List.Perm.Subperm

/-!
# Recorded names

`OpenMode` records the name of the file in its slot and refuses a name that a
slot records for the same mode; `Remove` refuses a name that any slot records.
-/

namespace Nachos.Stub

open Foundation

variable {World : Type}

namespace Slot

/-- Not both occupied, under one name and for one mode. -/
def Differs (slot other : Slot) : Prop :=
  ¬ (slot.file.isSome ∧ other.file.isSome ∧ slot.name = other.name ∧
    slot.openMode = other.openMode)

/-- A slot as it was, up to the position of its file, or freed. -/
def Keeps (slot updated : Slot) : Prop :=
  updated = empty ∨
    (updated.name = slot.name ∧ updated.openMode = slot.openMode ∧
      updated.file.isSome = slot.file.isSome)

theorem Differs.symm {slot other : Slot} (differs : slot.Differs other) :
    other.Differs slot := by
  rintro ⟨otherOccupied, occupied, sameName, sameMode⟩
  exact differs ⟨occupied, otherOccupied, sameName.symm, sameMode.symm⟩

theorem Keeps.differs
    {slot updated other : Slot} (keeps : slot.Keeps updated)
    (differs : slot.Differs other) : updated.Differs other := by
  rcases keeps with rfl | ⟨sameName, sameMode, sameFile⟩
  · rintro ⟨occupied, _⟩
    exact Bool.false_ne_true occupied
  · unfold Differs
    rw [sameName, sameMode, sameFile]
    exact differs

end Slot

/-- A slot is occupied just if it records a name, and no two occupied slots
record the same name and mode. -/
structure SingleOpens (slots : List Slot) : Prop where
  recorded : ∀ slot ∈ slots, slot.name.isSome = slot.file.isSome
  differ : slots.Pairwise Slot.Differs

namespace SingleOpens

variable {slots before after : List Slot} {slot updated : Slot}

theorem empty (count : Nat) :
    SingleOpens (List.replicate count Slot.empty) := by
  refine ⟨?_, ?_⟩
  · intro slot member
    rw [List.eq_of_mem_replicate member]
    rfl
  · apply List.pairwise_replicate.mpr
    right
    rintro ⟨occupied, _⟩
    exact Bool.false_ne_true occupied

theorem replace
    (single : SingleOpens slots) (split : slots = before ++ slot :: after)
    (recorded : updated.name.isSome = updated.file.isSome)
    (differs : ∀ other ∈ before ++ after, updated.Differs other) :
    SingleOpens (before ++ updated :: after) := by
  obtain ⟨allRecorded, allDiffer⟩ := single
  rw [split] at allRecorded allDiffer
  rw [List.pairwise_middle Slot.Differs.symm, List.pairwise_cons] at allDiffer
  refine ⟨?_, ?_⟩
  · intro other member
    rcases List.mem_append.mp member with member | member
    · exact allRecorded other (List.mem_append_left _ member)
    · rcases List.mem_cons.mp member with rfl | member
      · exact recorded
      · exact allRecorded other
          (List.mem_append_right _ (List.mem_cons_of_mem _ member))
  · rw [List.pairwise_middle Slot.Differs.symm, List.pairwise_cons]
    exact ⟨differs, allDiffer.2⟩

theorem keep
    (single : SingleOpens slots) (split : slots = before ++ slot :: after)
    (keeps : slot.Keeps updated) :
    SingleOpens (before ++ updated :: after) := by
  have differ := single.differ
  rw [split, List.pairwise_middle Slot.Differs.symm,
    List.pairwise_cons] at differ
  apply single.replace split
  · rcases keeps with rfl | ⟨sameName, _, sameFile⟩
    · rfl
    · rw [sameName, sameFile]
      exact single.recorded slot (by rw [split]; simp)
  · intro other member
    exact keeps.differs (differ.1 other member)

variable {host : Host World} {fileSystem next : FileSystem World}

theorem closeWithin
    {depth : Nat} {fileID result : Int}
    (single : SingleOpens fileSystem.slots)
    (returned : FileSystem.closeWithin host depth fileID fileSystem =
      .ok (result, next)) :
    SingleOpens next.slots := by
  induction depth generalizing fileSystem next result with
  | zero =>
    cases returned
  | succ depth ih =>
    unfold FileSystem.closeWithin at returned
    split_ifs at returned with negative
    · cases returned
      exact single
    · rcases firstMatch_cases (fun slot : Slot => slot.id == fileID)
          fileSystem.slots with
        nothing | ⟨before, slot, after, first⟩
      · rw [findIdx?_of_no_match nothing] at returned
        cases returned
        exact single
      · rw [first.findIdx?] at returned
        simp only [first.getD, first.set] at returned
        obtain ⟨state, -, returned⟩ := exists_of_bind_eq_ok returned
        obtain ⟨reply, closed, returned⟩ := exists_of_bind_eq_ok returned
        cases returned
        exact ih (single.keep first.split (Or.inl rfl)) closed

theorem close
    {fileID result : Int} (single : SingleOpens fileSystem.slots)
    (returned : fileSystem.close host fileID = .ok (result, next)) :
    SingleOpens next.slots :=
  single.closeWithin returned

theorem storeFile
    (single : SingleOpens fileSystem.slots) {fileID : Int} {file : OpenFile}
    (found : (fileSystem.findSlot fileID).bind Slot.file = some file)
    (moved : OpenFile) (state : HostState World) :
    SingleOpens (fileSystem.storeFile fileID moved state).slots := by
  unfold FileSystem.storeFile
  rcases firstMatch_cases (fun slot : Slot => slot.id == fileID)
      fileSystem.slots with
    nothing | ⟨before, slot, after, first⟩
  · rw [findIdx?_of_no_match nothing]
    exact single
  · have occupied : slot.file = some file := by
      unfold FileSystem.findSlot at found
      rw [first.find?] at found
      exact found
    simp only [first.findIdx?, first.modify]
    refine single.keep first.split (Or.inr ⟨rfl, rfl, ?_⟩)
    rw [occupied]
    rfl

theorem read
    {buffer buffer' : List Byte} {size fileID result : Int}
    (single : SingleOpens fileSystem.slots)
    (returned : fileSystem.read host buffer size fileID =
      .ok (result, buffer', next)) :
    SingleOpens next.slots := by
  unfold FileSystem.read at returned
  by_cases negative : fileID < 0
  · rw [if_pos negative] at returned
    cases returned
    exact single
  · rw [if_neg negative] at returned
    cases found : (fileSystem.findSlot fileID).bind Slot.file with
    | none =>
      rw [found] at returned
      cases returned
      exact single
    | some file =>
      rw [found] at returned
      obtain ⟨reply, -, returned⟩ := exists_of_bind_eq_ok returned
      cases returned
      exact single.storeFile found _ _

theorem write
    {buffer : List Byte} {size fileID result : Int}
    (single : SingleOpens fileSystem.slots)
    (returned : fileSystem.write host buffer size fileID =
      .ok (result, next)) :
    SingleOpens next.slots := by
  unfold FileSystem.write at returned
  by_cases refused : fileID < 0 ∨ ¬ FileSystem.hasLength buffer size
  · rw [← ite_or, if_pos refused] at returned
    cases returned
    exact single
  · rw [← ite_or, if_neg refused] at returned
    cases foundSlot : fileSystem.findSlot fileID with
    | none =>
      rw [foundSlot] at returned
      cases returned
      exact single
    | some slot =>
      rw [foundSlot] at returned
      dsimp only at returned
      by_cases readOnly : slot.openMode ≠ .readWrite
      · rw [if_pos readOnly] at returned
        cases returned
        exact single
      · rw [if_neg readOnly] at returned
        cases foundFile : slot.file with
        | none =>
          rw [foundFile] at returned
          cases returned
          exact single
        | some file =>
          have found :
              (fileSystem.findSlot fileID).bind Slot.file = some file := by
            rw [foundSlot]
            exact foundFile
          rw [foundFile] at returned
          obtain ⟨reply, -, returned⟩ := exists_of_bind_eq_ok returned
          cases returned
          exact single.storeFile found _ _

theorem seek
    {pos fileID result : Int} (single : SingleOpens fileSystem.slots)
    (returned : fileSystem.seek host pos fileID = .ok (result, next)) :
    SingleOpens next.slots := by
  unfold FileSystem.seek at returned
  by_cases negative : fileID < 0
  · rw [if_pos negative] at returned
    cases returned
    exact single
  · rw [if_neg negative] at returned
    cases found : (fileSystem.findSlot fileID).bind Slot.file with
    | none =>
      rw [found] at returned
      cases returned
      exact single
    | some file =>
      rw [found] at returned
      dsimp only at returned
      by_cases refused : pos < -1
      · rw [if_pos refused] at returned
        cases returned
        exact single
      · rw [if_neg refused] at returned
        by_cases atEnd : pos = -1
        · rw [if_pos atEnd] at returned
          obtain ⟨reply, -, returned⟩ := exists_of_bind_eq_ok returned
          cases returned
          exact single.storeFile found _ _
        · rw [if_neg atEnd] at returned
          cases returned
          exact single.storeFile found _ _

theorem create
    {name : List Byte} {result : Int} (single : SingleOpens fileSystem.slots)
    (returned : fileSystem.create host name = .ok (result, next)) :
    SingleOpens next.slots := by
  unfold FileSystem.create at returned
  by_cases unnamed : strlen name = 0
  · rw [if_pos unnamed] at returned
    cases returned
    exact single
  · rw [if_neg unnamed] at returned
    obtain ⟨⟨fileDescriptor, state⟩, -, returned⟩ :=
      exists_of_bind_eq_ok returned
    dsimp only at returned
    by_cases failed : fileDescriptor < 0
    · rw [if_pos failed] at returned
      cases returned
      exact single
    · rw [if_neg failed] at returned
      obtain ⟨⟨code, closedSystem⟩, closed, returned⟩ :=
        exists_of_bind_eq_ok returned
      cases returned
      have opened : SingleOpens (FileSystem.mk fileSystem.slots state).slots :=
        single
      exact opened.close closed

section Compared

variable (compares : ∀ one other world,
  host.sameName one other world = (one == other))

include compares

theorem checkFileMode_iff (mode : Mode) (fileName : List Byte) :
    fileSystem.checkFileMode host mode fileName = true ↔
      ∃ slot ∈ fileSystem.slots,
        slot.name = some (cString fileName) ∧ slot.openMode = mode := by
  unfold FileSystem.checkFileMode
  rw [List.any_eq_true]
  constructor
  · rintro ⟨slot, member, test⟩
    refine ⟨slot, member, ?_⟩
    cases recorded : slot.name with
    | none =>
      rw [recorded] at test
      cases test
    | some name =>
      rw [recorded] at test
      simp only [compares, Bool.and_eq_true, beq_iff_eq,
        decide_eq_true_eq] at test
      rw [test.1]
      exact ⟨rfl, test.2⟩
  · rintro ⟨slot, member, recorded, sameMode⟩
    refine ⟨slot, member, ?_⟩
    rw [recorded]
    simp [compares, sameMode]

theorem openMode
    {fileName : List Byte} {mode : Mode} {result : Int}
    (single : SingleOpens fileSystem.slots)
    (returned : fileSystem.openMode host fileName mode = .ok (result, next)) :
    SingleOpens next.slots := by
  unfold FileSystem.openMode at returned
  by_cases unnamed : strlen fileName = 0
  · rw [if_pos unnamed] at returned
    cases returned
    exact single
  rw [if_neg unnamed] at returned
  by_cases recorded : fileSystem.checkFileMode host mode fileName = true
  · rw [if_pos recorded] at returned
    cases returned
    exact single
  rw [if_neg recorded] at returned
  rcases firstMatch_cases (fun slot : Slot => slot.file.isNone)
      fileSystem.slots with
    nothing | ⟨before, slot, after, first⟩
  · rw [findIdx?_of_no_match nothing] at returned
    obtain ⟨⟨code, closedSystem⟩, closed, returned⟩ :=
      exists_of_bind_eq_ok returned
    cases returned
    have opened : SingleOpens
        (FileSystem.mk fileSystem.slots
          (FileSystem.openFor host mode fileName fileSystem.host).2).slots :=
      single
    exact opened.close closed
  · rw [first.findIdx?] at returned
    simp only [first.set] at returned
    cases returned
    refine single.replace first.split rfl ?_
    rintro other member ⟨_, _, sameName, sameMode⟩
    refine recorded ((checkFileMode_iff compares mode fileName).mpr
      ⟨other, ?_, sameName.symm, sameMode.symm⟩)
    rw [first.split]
    rw [List.mem_append] at member ⊢
    exact member.imp_right (List.mem_cons_of_mem slot)

/-- No call makes two slots record one name for one mode. -/
theorem perform
    {call : Call} {result : Int} (single : SingleOpens fileSystem.slots)
    (returned : perform host call fileSystem = .ok (result, next)) :
    SingleOpens next.slots := by
  cases call with
  | create name =>
    exact single.create returned
  | openFile name type =>
    change sysOpen host name type fileSystem = _ at returned
    unfold sysOpen at returned
    split_ifs at returned
    · exact single.openMode compares returned
    · exact single.openMode compares returned
    · cases returned
      exact single
  | read buffer size id =>
    obtain ⟨buffer', returned⟩ := sysRead_of_perform returned
    unfold sysRead at returned
    split_ifs at returned
    · cases returned
      exact single
    · cases returned
      exact single
    · exact single.read returned
  | write buffer size id =>
    change sysWrite host buffer size id fileSystem = _ at returned
    unfold sysWrite at returned
    split_ifs at returned
    · cases returned
      exact single
    · cases returned
      exact single
    · exact single.write returned
  | seek pos id =>
    exact single.seek returned
  | close id =>
    exact single.close returned
  | remove name =>
    rw [(frame_of_perform_remove returned).1]
    exact single

end Compared

/-- The slots of one name are open in different modes, so there are two at
most. -/
theorem countP_le_two (single : SingleOpens slots) (name : List Byte) :
    slots.countP (fun slot => slot.file.isSome && slot.name == some name) ≤
      2 := by
  rw [List.countP_eq_length_filter]
  have modesDiffer : ((slots.filter fun slot =>
      slot.file.isSome && slot.name == some name).map
        Slot.openMode).Nodup := by
    rw [List.Nodup, List.pairwise_map]
    refine (single.differ.filter _).imp_of_mem ?_
    intro slot other member otherMember differs sameMode
    simp only [List.mem_filter, Bool.and_eq_true, beq_iff_eq] at member
    simp only [List.mem_filter, Bool.and_eq_true, beq_iff_eq] at otherMember
    exact differs ⟨member.2.1, otherMember.2.1,
      member.2.2.trans otherMember.2.2.symm, sameMode⟩
  have twoModes : ∀ modes : List Mode, modes ⊆ [.readWrite, .read] := by
    intro modes mode _
    cases mode <;> decide
  have few := (List.Nodup.subperm modesDiffer (twoModes _)).length_le
  rw [List.length_map] at few
  exact few

end SingleOpens

def anyRuns (host : Host World) :
    TransitionSystem (FileSystem World) (Call × Int) where
  start fileSystem :=
    fileSystem.slots = List.replicate FileSystem.maxFile Slot.empty
  step fileSystem event next :=
    perform host event.1 fileSystem = .ok (event.2, next)

theorem SingleOpens.of_reachable
    {host : Host World} {fileSystem : FileSystem World}
    (compares : ∀ one other world,
      host.sameName one other world = (one == other))
    (reachable : (anyRuns host).Reachable fileSystem) :
    SingleOpens fileSystem.slots := by
  induction reachable with
  | start isStart =>
    rw [isStart]
    exact SingleOpens.empty _
  | step _ returned ih =>
    exact ih.perform compares returned

/-- Some slot records the name, in either mode. -/
def FileSystem.Records
    (fileName : List Byte) (fileSystem : FileSystem World) : Prop :=
  ∃ slot ∈ fileSystem.slots, slot.name = some (cString fileName)

/-- `Remove` leaves a recorded name alone. -/
theorem FileSystem.Records.remove
    {host : Host World} {fileSystem : FileSystem World}
    (compares : ∀ one other world,
      host.sameName one other world = (one == other))
    {fileName : List Byte} (records : fileSystem.Records fileName) :
    fileSystem.remove host fileName = (-1, fileSystem) := by
  obtain ⟨slot, member, recorded⟩ := records
  have checked : fileSystem.checkFileMode host slot.openMode fileName = true :=
    (SingleOpens.checkFileMode_iff compares slot.openMode fileName).mpr
      ⟨slot, member, recorded, rfl⟩
  unfold FileSystem.remove
  by_cases unnamed : strlen fileName = 0
  · rw [if_pos unnamed]
  · rw [if_neg unnamed, if_neg]
    cases mode : slot.openMode with
    | readWrite =>
      rw [mode] at checked
      simp [checked]
    | read =>
      rw [mode] at checked
      simp [checked]

/-- No two occupied slots record the same name and mode, no name is in more
than two of them, and `Remove` leaves a name alone that one of them records. -/
theorem one_open_per_name_and_mode
    {host : Host World} {fileSystem : FileSystem World}
    (compares : ∀ one other world,
      host.sameName one other world = (one == other))
    (reachable : (anyRuns host).Reachable fileSystem) :
    fileSystem.slots.Pairwise Slot.Differs ∧
      (∀ name, fileSystem.slots.countP
        (fun slot => slot.file.isSome && slot.name == some name) ≤ 2) ∧
      ∀ fileName,
        (∃ slot ∈ fileSystem.slots,
          slot.file.isSome ∧ slot.name = some (cString fileName)) →
        fileSystem.remove host fileName = (-1, fileSystem) := by
  have single := SingleOpens.of_reachable compares reachable
  refine ⟨single.differ, single.countP_le_two, ?_⟩
  rintro fileName ⟨slot, member, -, recorded⟩
  exact FileSystem.Records.remove compares ⟨slot, member, recorded⟩

theorem open_name_not_removed :
    ∃ fileSystem, (anyRuns smallHost).Reachable fileSystem ∧
      fileSystem.slots.Pairwise Slot.Differs ∧
      fileSystem.remove smallHost [97] = (-1, fileSystem) := by
  have started : (anyRuns smallHost).Reachable smallStart := .start rfl
  have performed :
      (anyRuns smallHost).step smallStart (.openFile [97] 1, 2) _ := rfl
  have reachable := started.step performed
  obtain ⟨differ, _, refuses⟩ :=
    one_open_per_name_and_mode (fun _ _ _ => rfl) reachable
  exact ⟨_, reachable, differ, refuses [97] ⟨_, List.mem_cons_self, rfl, rfl⟩⟩

/-! ## The answer of `SysRemove` -/

def FileSystem.Unlinks
    (host : Host World) (fileName : List Byte)
    (fileSystem : FileSystem World) : Prop :=
  strlen fileName ≠ 0 ∧ ¬ fileSystem.Records fileName ∧
    (host.unlink (cString fileName) fileSystem.host.world).1 = 0

/-- `SysRemove` answers 0 just if it has unlinked the file; otherwise it answers
-1 and the host is as it was. -/
structure RemovesTruthfully
    (host : Host World) (fileName : List Byte)
    (fileSystem : FileSystem World) : Prop where
  zero : (sysRemove host fileName fileSystem).1 = 0 ↔
    fileSystem.Unlinks host fileName
  otherwise : ¬ fileSystem.Unlinks host fileName →
    sysRemove host fileName fileSystem = (-1, fileSystem)

section Removal

variable {host : Host World}

/-- What `unlink` of UNIX does: it succeeds, or answers -1 without effect. -/
def Host.UnlinksOrFails (host : Host World) : Prop :=
  ∀ name world,
    (host.unlink name world).1 = 0 ∨ host.unlink name world = (-1, world)

theorem sysRemove_snd
    (compares : ∀ one other world,
      host.sameName one other world = (one == other))
    (unlinks : host.UnlinksOrFails) {fileName : List Byte}
    {fileSystem : FileSystem World}
    (kept : ¬ fileSystem.Unlinks host fileName) :
    (sysRemove host fileName fileSystem).2 = fileSystem := by
  unfold sysRemove
  by_cases records : fileSystem.Records fileName
  · rw [records.remove compares]
  unfold FileSystem.remove
  by_cases unnamed : strlen fileName = 0
  · rw [if_pos unnamed]
  rw [if_neg unnamed]
  have failed := (unlinks (cString fileName) fileSystem.host.world).resolve_left
    (fun succeeded => kept ⟨unnamed, records, succeeded⟩)
  unfold unlink
  rw [failed]
  split_ifs
  · rfl
  · rfl

/-- `SysRemove` tells the truth just if it unlinks the file; otherwise its
answer is wrong, but the host is left alone as it should be. -/
theorem removesTruthfully_iff
    (compares : ∀ one other world,
      host.sameName one other world = (one == other))
    (unlinks : host.UnlinksOrFails) (fileName : List Byte)
    (fileSystem : FileSystem World) :
    (RemovesTruthfully host fileName fileSystem ↔
        fileSystem.Unlinks host fileName) ∧
      (¬ fileSystem.Unlinks host fileName →
        (sysRemove host fileName fileSystem).2 = fileSystem) := by
  refine ⟨⟨?_, ?_⟩, sysRemove_snd compares unlinks⟩
  · intro truthful
    exact truthful.zero.mp (sysRemove_fst fileName fileSystem)
  · intro removed
    exact ⟨iff_of_true (sysRemove_fst fileName fileSystem) removed,
      fun kept => absurd removed kept⟩

end Removal

theorem smallHost_unlinksOrFails : smallHost.UnlinksOrFails := by
  intro name world
  unfold smallHost
  dsimp only
  split_ifs
  · exact Or.inl rfl
  · exact Or.inr rfl

theorem removesTruthfully_existing :
    RemovesTruthfully smallHost [97] smallStart := by
  have unrecorded : ¬ smallStart.Records [97] := by
    rintro ⟨slot, member, recorded⟩
    rw [List.eq_of_mem_replicate member] at recorded
    cases recorded
  exact (removesTruthfully_iff (fun _ _ _ => rfl) smallHost_unlinksOrFails [97]
    smallStart).1.mpr ⟨by decide, unrecorded, rfl⟩

/-- `SysRemove` of a file that does not exist, and of no name, answers 0. -/
theorem missing_file_removed :
    (system smallHost).Reachable smallStart ∧
      sysRemove smallHost [98] smallStart = (0, smallStart) ∧
      ¬ RemovesTruthfully smallHost [98] smallStart ∧
      ¬ RemovesTruthfully smallHost [] smallStart := by
  refine ⟨.start smallStart_start, rfl, ?_, ?_⟩
  · intro truthful
    obtain ⟨_, _, succeeded⟩ := truthful.zero.mp rfl
    cases succeeded
  · intro truthful
    exact (truthful.zero.mp rfl).1 rfl

end Nachos.Stub
