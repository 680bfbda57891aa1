import Nachos.Stub.Contract
import Nachos.Stub.Leftovers

/-!
# File system calls that return
-/

namespace Nachos.Stub

open Foundation

variable {World : Type}

/-! ## Failed opens in the table -/

/-- Some slot holds the -1 of a failed host `open`. -/
def Stale (slots : List Slot) : Prop :=
  ∃ slot ∈ slots, slot.id = -1

def EntersFailure (host : Host World) (fileSystem : FileSystem World) :
    Call → Prop
  | .openFile name type =>
    ∃ mode, modeOf type = some mode ∧
      recordsFailure host name mode fileSystem
  | .create _ | .read _ _ _ | .write _ _ _ | .seek _ _ | .close _
  | .remove _ => False

namespace Contract.Good

variable {host : Host World} {contract : Contract host}

theorem tail
    {slot : Slot} {slots : List Slot} {state : HostState World}
    (good : contract.Good ⟨slot :: slots, state⟩) :
    contract.Good ⟨slots, state⟩ := by
  have sound := good.sound
  have split : descriptors (slot :: slots) =
      slot.descriptor.toList ++ descriptors slots :=
    descriptors_split [] slots slot
  refine ⟨⟨?_, ?_, ?_⟩, good.valid, ?_⟩
  · exact fun other member => sound.slots other (List.mem_cons_of_mem _ member)
  · have nodup := sound.nodup
    rw [split] at nodup
    exact nodup.of_append_right
  · intro fd member
    apply sound.opened
    rw [split]
    exact List.mem_append_right _ member
  · exact fun other member =>
      good.writable other (List.mem_cons_of_mem _ member)

end Contract.Good

/-! ## Calls that come back -/

def Refused (host : Host World) (fileSystem : FileSystem World) : Call → Prop
  | .create name =>
    strlen name = 0 ∨ fileSystem.answer host .createTruncate name < 0
  | .openFile name type =>
    ∀ mode, modeOf type = some mode →
      fileSystem.refusesOpen host name mode = true ∨
        fileSystem.isFull = true ∨
        fileSystem.answer host mode.flags name < 0
  | .read _ _ d =>
    d < 0 ∨ d = 1 ∨ (2 ≤ d ∧ lookup fileSystem.slots d = none)
  | .write buffer size d =>
    d < 0 ∨ d = 0 ∨ (2 ≤ d ∧
      ∀ entry, lookup fileSystem.slots d = some entry →
        ¬ (entry.mode = .readWrite ∧ FileSystem.hasLength buffer size))
  | .seek pos d =>
    d < 2 ∨ pos < -1 ∨ lookup fileSystem.slots d = none
  | .close d => d < 2 ∨ lookup fileSystem.slots d = none
  | .remove name =>
    strlen name = 0 ∨
      fileSystem.checkFileMode host .read name = true ∨
      fileSystem.checkFileMode host .readWrite name = true ∨
      (host.unlink (cString name) fileSystem.host.world).1 ≠ 0

/-- The calls after which the kernel is as well as before.  It does not survive
creating what the host refuses to open, reading or writing at a negative
position, closing 0 while a slot is free, and in the end an open that fails on
the host; and a refused `Remove` is reported as a success. -/
def Permitted (host : Host World) (fileSystem : FileSystem World) :
    Call → Prop
  | .create name =>
    strlen name = 0 ∨ 0 ≤ fileSystem.answer host .createTruncate name
  | .openFile name type =>
    ¬ EntersFailure host fileSystem (.openFile name type)
  | .read _ _ d =>
    ∀ entry, 2 ≤ d → lookup fileSystem.slots d = some entry →
      0 ≤ entry.offset
  | .write buffer size d =>
    ∀ entry, 2 ≤ d → lookup fileSystem.slots d = some entry →
      entry.mode = .readWrite → FileSystem.hasLength buffer size →
      0 ≤ entry.offset
  | .seek _ _ => True
  | .close d => ¬ (d = 0 ∧ fileSystem.isFull = false)
  | .remove name => ¬ Refused host fileSystem (.remove name)

def Reports (host : Host World) (fileSystem : FileSystem World)
    (call : Call) : Prop :=
  ∃ result next, perform host call fileSystem = .ok (result, next) ∧
    (Refused host fileSystem call → result = -1)

namespace Contract.Good

variable {host : Host World} {contract : Contract host}
variable {fileSystem : FileSystem World}

section Access

variable {d offset : Int} {mode : Mode} {name : List Byte}
variable {before after : List Slot}

theorem lseek_ok_iff
    (good : contract.Good fileSystem) (large : 2 ≤ d)
    (held : HeldAt fileSystem.slots d offset mode name before after) :
    (∃ state, lseek host d offset 0 fileSystem.host = .ok state) ↔
      0 ≤ offset := by
  rw [← contract.lseek_iff fileSystem.host d offset good.valid
    (good.held_opened large held)]
  unfold lseek
  dsimp only
  split_ifs with nonnegative <;> simp [nonnegative]

theorem read_ok_iff
    (good : contract.Good fileSystem) (large : 2 ≤ d)
    (held : HeldAt fileSystem.slots d offset mode name before after)
    (buffer : List Byte) (size : Int) :
    (∃ reply, (OpenFile.mk d offset).read host buffer size fileSystem.host =
        .ok reply) ↔
      0 ≤ offset := by
  rw [← good.lseek_ok_iff large held]
  unfold OpenFile.read OpenFile.readAt
  cases lseek host d offset 0 fileSystem.host with
  | error abort => simp
  | ok state => exact iff_of_true ⟨_, rfl⟩ ⟨state, rfl⟩

theorem write_ok_iff
    (good : contract.Good fileSystem) (large : 2 ≤ d)
    (held : HeldAt fileSystem.slots d offset .readWrite name before after)
    {buffer : List Byte} {size : Int}
    (bounds : 0 ≤ size ∧ size < 2 ^ 31)
    (sized : FileSystem.hasLength buffer size) :
    (∃ reply, (OpenFile.mk d offset).write host buffer size fileSystem.host =
        .ok reply) ↔
      0 ≤ offset := by
  rw [← good.lseek_ok_iff large held]
  have isOpen := good.held_opened large held
  have isWritable : contract.writable fileSystem.host d := by
    apply good.writable (Slot.holding d offset .readWrite name) _ rfl large
    rw [held.split]
    simp
  have counted : ((buffer.take size.toNat).length : Int) = size := by
    have shorter : strlen buffer ≤ buffer.length :=
      (List.takeWhile_prefix _).length_le
    unfold FileSystem.hasLength at sized
    rw [List.length_take]
    omega
  unfold OpenFile.write OpenFile.writeAt
  cases sought : lseek host d offset 0 fileSystem.host with
  | error abort => simp
  | ok state =>
    have passes := lseek_passes sought
    obtain ⟨valid, writable⟩ := contract.passes_keep passes good.valid
    have complete := contract.write_all state d (buffer.take size.toNat)
      valid (by rw [passes.opened]; exact isOpen) (writable d isWritable)
    have written : writeFile host d buffer size state =
        .ok { state with
          world := (host.write d (buffer.take size.toNat) state.world).2 } :=
      if_pos (complete.trans counted)
    refine iff_of_true ?_ ⟨state, rfl⟩
    simp only [ok_bind, written]
    exact ⟨_, rfl⟩

theorem length_ok
    (good : contract.Good fileSystem) (large : 2 ≤ d)
    (held : HeldAt fileSystem.slots d offset mode name before after) :
    ∃ reply,
      (OpenFile.mk d offset).length host fileSystem.host = .ok reply := by
  have sought : lseek host d 0 2 fileSystem.host =
      .ok { fileSystem.host with
        world := (host.lseek d 0 2 fileSystem.host.world).2 } :=
    if_pos (contract.lseek_end fileSystem.host d good.valid
      (good.held_opened large held))
  unfold OpenFile.length
  rw [sought]
  exact ⟨_, rfl⟩

end Access

theorem create_reports_iff
    (good : contract.Good fileSystem) (name : List Byte) :
    Reports host fileSystem (.create name) ↔
      Permitted host fileSystem (.create name) := by
  rcases good.sound.create_cases host (good.opensFresh _ name) with
    ⟨unnamed, refused⟩ | ⟨named, failed, aborted⟩ | ⟨named, large, created⟩
  · exact iff_of_true ⟨-1, _, refused, fun _ => rfl⟩ (Or.inl unnamed)
  · apply iff_of_false
    · rintro ⟨_, _, returned, _⟩
      cases aborted.symm.trans returned
    · rintro (unnamed | given)
      · exact named unnamed
      · omega
  · refine iff_of_true ⟨0, _, created, ?_⟩ (Or.inr (by omega))
    rintro (unnamed | failed)
    · exact absurd unnamed named
    · omega

theorem open_reports
    (good : contract.Good fileSystem) (name : List Byte) (type : Int) :
    Reports host fileSystem (.openFile name type) := by
  simp only [Reports, perform]
  rw [sysOpen_eq]
  cases asked : modeOf type with
  | none => exact ⟨-1, _, rfl, fun _ => rfl⟩
  | some mode =>
    rcases good.sound.openMode_cases host
        (good.opensFresh mode.flags name) with
      ⟨refused, early⟩ | ⟨_, full, atEnd⟩ |
        ⟨asks, free, before, after, split, entered⟩
    · exact ⟨-1, _, early, fun _ => rfl⟩
    · exact ⟨-1, _, atEnd, fun _ => rfl⟩
    · refine ⟨_, _, entered, ?_⟩
      intro refused
      rcases refused mode asked with refuses | full | failed
      · rw [asks] at refuses
        exact absurd refuses (by decide)
      · rw [free] at full
        exact absurd full (by decide)
      · rcases good.opensFresh mode.flags name with minusOne | ⟨large, _⟩
        · exact minusOne
        · omega

theorem read_reports_iff
    (good : contract.Good fileSystem) (buffer : List Byte) (size d : Int) :
    Reports host fileSystem (.read buffer size d) ↔
      Permitted host fileSystem (.read buffer size d) := by
  simp only [Reports, perform]
  by_cases large : 2 ≤ d
  · rcases good.sound.heldAt_cases large with
      absent | ⟨offset, mode, name, before, after, held⟩
    · rw [sysRead_of_absent host large absent]
      refine iff_of_true ⟨-1, _, rfl, fun _ => rfl⟩ ?_
      intro entry _ present
      rw [lookup_of_absent absent] at present
      cases present
    · have permitted_iff :
          Permitted host fileSystem (.read buffer size d) ↔ 0 ≤ offset := by
        simp [Permitted, large, held.lookup]
      rw [permitted_iff, ← good.read_ok_iff large held buffer size,
        held.sysRead host large]
      cases (OpenFile.mk d offset).read host buffer size fileSystem.host with
      | error abort => simp
      | ok reply =>
        refine iff_of_true ⟨_, _, rfl, ?_⟩ ⟨reply, rfl⟩
        rintro (negative | isOutput | ⟨_, none⟩)
        · omega
        · omega
        · rw [held.lookup] at none
          cases none
  · obtain ⟨result, bytes, state, small, _, refused⟩ :=
      @sysRead_of_small _ host fileSystem d (by omega) buffer size
    rw [small]
    refine iff_of_true ⟨result, _, rfl, ?_⟩ (fun _ tooLarge => absurd tooLarge large)
    rintro (negative | isOutput | ⟨tooLarge, _⟩)
    · exact refused (by omega)
    · exact refused (by omega)
    · exact absurd tooLarge large

theorem write_reports_iff
    (good : contract.Good fileSystem) (buffer : List Byte) {size : Int}
    (bounds : 0 ≤ size ∧ size < 2 ^ 31) (d : Int) :
    Reports host fileSystem (.write buffer size d) ↔
      Permitted host fileSystem (.write buffer size d) := by
  simp only [Reports, perform]
  by_cases large : 2 ≤ d
  · rcases good.sound.heldAt_cases large with
      absent | ⟨offset, mode, name, before, after, held⟩
    · rw [sysWrite_of_absent host large absent]
      refine iff_of_true ⟨-1, _, rfl, fun _ => rfl⟩ ?_
      intro entry _ present
      rw [lookup_of_absent absent] at present
      cases present
    · rw [held.sysWrite host large]
      by_cases admitted : mode = .readWrite ∧ FileSystem.hasLength buffer size
      · rw [if_pos admitted]
        obtain ⟨rfl, sized⟩ := admitted
        have permitted_iff :
            Permitted host fileSystem (.write buffer size d) ↔
              0 ≤ offset := by
          simp [Permitted, large, held.lookup, sized]
        rw [permitted_iff, ← good.write_ok_iff large held bounds sized]
        cases (OpenFile.mk d offset).write host buffer size fileSystem.host with
        | error abort => simp
        | ok reply =>
          refine iff_of_true ⟨_, _, rfl, ?_⟩ ⟨reply, rfl⟩
          rintro (negative | isInput | ⟨_, refused⟩)
          · omega
          · omega
          · exact absurd ⟨rfl, sized⟩ (refused _ held.lookup)
      · rw [if_neg admitted]
        refine iff_of_true ⟨-1, _, rfl, fun _ => rfl⟩ ?_
        intro entry _ present isReadWrite sized
        rw [held.lookup] at present
        cases present
        exact absurd ⟨isReadWrite, sized⟩ admitted
  · obtain ⟨result, state, small, _, refused⟩ :=
      @sysWrite_of_small _ host fileSystem d (by omega) buffer size
    rw [small]
    refine iff_of_true ⟨result, _, rfl, ?_⟩ (fun _ tooLarge => absurd tooLarge large)
    rintro (negative | isInput | ⟨tooLarge, _⟩)
    · exact refused (by omega)
    · exact refused (by omega)
    · exact absurd tooLarge large

theorem seek_reports (good : contract.Good fileSystem) (pos d : Int) :
    Reports host fileSystem (.seek pos d) := by
  simp only [Reports, perform]
  by_cases large : 2 ≤ d
  · rcases good.sound.heldAt_cases large with
      absent | ⟨offset, mode, name, before, after, held⟩
    · exact ⟨-1, _, sysSeek_of_absent host large absent pos, fun _ => rfl⟩
    · rw [held.sysSeek host large]
      by_cases refused : pos < -1
      · rw [if_pos refused]
        exact ⟨-1, _, rfl, fun _ => rfl⟩
      · have notRefused : ¬ Refused host fileSystem (.seek pos d) := by
          rintro (small | tooLow | none)
          · omega
          · exact refused tooLow
          · rw [held.lookup] at none
            cases none
        rw [if_neg refused]
        by_cases atEnd : pos = -1
        · obtain ⟨reply, asked⟩ := good.length_ok large held
          rw [if_pos atEnd, asked]
          exact ⟨_, _, rfl, fun refused => absurd refused notRefused⟩
        · rw [if_neg atEnd]
          exact ⟨_, _, rfl, fun refused => absurd refused notRefused⟩
  · exact ⟨-1, _, good.sound.sysSeek_of_small host (by omega) pos,
      fun _ => rfl⟩

theorem isFull_eq_false_iff (good : contract.Good fileSystem) :
    fileSystem.isFull = false ↔ ∃ slot ∈ fileSystem.slots, slot.id = 0 := by
  unfold FileSystem.isFull
  rw [List.all_eq_false]
  apply exists_congr
  intro slot
  apply and_congr_right
  intro member
  rcases good.sound.slots slot member with
    rfl | ⟨fd, offset, mode, name, rfl, valid⟩
  · exact iff_of_true (by decide) rfl
  · apply iff_of_false
    · simp [Slot.holding]
    · change fd ≠ 0
      omega

theorem close_reports_iff (good : contract.Good fileSystem) (d : Int) :
    Reports host fileSystem (.close d) ↔
      Permitted host fileSystem (.close d) := by
  simp only [Reports, perform, sysClose]
  have permitted_of_ne (nonzero : d ≠ 0) :
      Permitted host fileSystem (.close d) :=
    fun both => nonzero both.1
  by_cases large : 2 ≤ d
  · refine iff_of_true ?_ (permitted_of_ne (by omega))
    rcases good.sound.heldAt_cases large with
      absent | ⟨offset, mode, name, before, after, held⟩
    · exact ⟨-1, _, FileSystem.close_of_absent host _ (Or.inr absent),
        fun _ => rfl⟩
    · rw [good.sound.close_found host large held.firstMatch,
        good.hostClose_eq (good.held_opened large held)]
      refine ⟨0, _, rfl, ?_⟩
      rintro (small | none)
      · omega
      · rw [held.lookup] at none
        cases none
  · by_cases trapped : d = 0 ∧ fileSystem.isFull = false
    · refine iff_of_false ?_ (not_not.mpr trapped)
      obtain ⟨rfl, free⟩ := trapped
      rintro ⟨_, _, returned, _⟩
      rw [good.sound.close_zero host (good.isFull_eq_false_iff.mp free)]
        at returned
      cases returned
    · refine iff_of_true ⟨-1, fileSystem, ?_, fun _ => rfl⟩ trapped
      apply FileSystem.close_of_absent
      by_cases negative : d < 0
      · exact Or.inl negative
      · right
        intro slot member same
        by_cases zero : d = 0
        · apply trapped
          refine ⟨zero, good.isFull_eq_false_iff.mpr ⟨slot, member, ?_⟩⟩
          rw [same, zero]
        · rcases good.sound.slots slot member with
            rfl | ⟨fd, offset, mode, name, rfl, valid⟩
          · exact zero same.symm
          · change fd = d at same
            omega

end Contract.Good

theorem remove_reports_iff
    (host : Host World) (fileSystem : FileSystem World) (name : List Byte) :
    Reports host fileSystem (.remove name) ↔
      Permitted host fileSystem (.remove name) := by
  have zero := @sysRemove_fst _ host name fileSystem
  simp only [Reports, perform, Permitted]
  constructor
  · rintro ⟨result, next, returned, reported⟩ refused
    have resultEq : sysRemove host name fileSystem = (result, next) :=
      Except.ok.inj returned
    have minusOne := reported refused
    rw [resultEq] at zero
    dsimp only at zero
    omega
  · intro notRefused
    exact ⟨_, _, rfl, fun refused => absurd refused notRefused⟩

def Call.Sized : Call → Prop
  | .write _ size _ => 0 ≤ size ∧ size < 2 ^ 31
  | .create _ | .openFile _ _ | .read _ _ _ | .seek _ _ | .close _
  | .remove _ => True

namespace Contract.Good

variable {host : Host World} {contract : Contract host}
variable {fileSystem : FileSystem World}

/-- The permitted calls are those that return as they should and leave no -1 in
the table. -/
theorem permitted_iff
    (good : contract.Good fileSystem) {call : Call} (sized : call.Sized) :
    Permitted host fileSystem call ↔
      Reports host fileSystem call ∧
        ¬ EntersFailure host fileSystem call := by
  cases call with
  | create name =>
    rw [good.create_reports_iff]
    exact (and_iff_left not_false).symm
  | openFile name type =>
    exact (and_iff_right (good.open_reports name type)).symm
  | read buffer size d =>
    rw [good.read_reports_iff]
    exact (and_iff_left not_false).symm
  | write buffer size d =>
    rw [good.write_reports_iff buffer sized]
    exact (and_iff_left not_false).symm
  | seek pos d =>
    exact iff_of_true trivial ⟨good.seek_reports pos d, not_false⟩
  | close d =>
    rw [good.close_reports_iff]
    exact (and_iff_left not_false).symm
  | remove name =>
    rw [remove_reports_iff]
    exact (and_iff_left not_false).symm

theorem start
    (valid : contract.valid fileSystem.host)
    (starting : (system host).start fileSystem) :
    contract.Good fileSystem ∧ ¬ Stale fileSystem.slots := by
  have allEmpty : ∀ slot ∈ fileSystem.slots, slot = Slot.empty := by
    rw [starting.1]
    exact fun slot member => List.eq_of_mem_replicate member
  refine ⟨⟨sound_of_reachable (.start starting), valid, ?_⟩, ?_⟩
  · intro slot member _ large
    rw [allEmpty slot member] at large
    exact absurd large (by decide)
  · rintro ⟨slot, member, minusOne⟩
    rw [allEmpty slot member] at minusOne
    exact absurd minusOne (by decide)

end Contract.Good

end Nachos.Stub
