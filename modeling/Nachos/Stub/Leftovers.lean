import Nachos.Stub.Descriptors

/-!
# What failed and finished calls leave behind
-/

namespace Nachos.Stub

open Foundation

variable {World : Type}

/-! ## Failed opens -/

def recordsFailure
    (host : Host World) (fileName : List Byte) (mode : Mode)
    (fileSystem : FileSystem World) : Prop :=
  fileSystem.refusesOpen host fileName mode = false ∧
    fileSystem.isFull = false ∧
    fileSystem.answer host mode.flags fileName = -1

/-- An open that returns -1 leaves the table as it was, except that the -1 of a
failed host `open` is entered like a descriptor. -/
theorem failed_open_keeps_table_iff
    (host : Host World) {fileSystem : FileSystem World}
    (reachable : (system host).Reachable fileSystem)
    (fileName : List Byte) {type : Int} {mode : Mode}
    (asked : modeOf type = some mode)
    (fresh : fileSystem.AnswersFresh host mode.flags fileName) :
    (∀ next, sysOpen host fileName type fileSystem = .ok (-1, next) →
        next.slots = fileSystem.slots) ↔
      ¬ recordsFailure host fileName mode fileSystem := by
  rw [sysOpen_eq, asked]
  dsimp only
  unfold recordsFailure
  rcases (sound_of_reachable reachable).openMode_cases host fresh with
    ⟨refused, early⟩ | ⟨_, full, atEnd⟩ |
      ⟨asks, free, before, after, split, entered⟩
  · rw [early, refused]
    simp
  · rw [atEnd, full]
    simp
  · rw [entered, asks, free]
    simp only [true_and]
    constructor
    · intro keeps failed
      have unchanged := keeps _ (by rw [failed])
      rw [split] at unchanged
      have sameSlot := (List.cons.inj (List.append_cancel_left unchanged)).1
      exact absurd (congrArg Slot.file sameSlot) (by simp [Slot.holding, Slot.empty])
    · intro succeeded next returned
      exact absurd (Prod.mk.inj (Except.ok.inj returned)).1 succeeded

/-- Opening a file that does not exist: -1, and one slot fewer. -/
theorem failed_open_takes_slot :
    ∃ next,
      (system smallHost).Reachable smallStart ∧
        sysOpen smallHost [98] 0 smallStart = .ok (-1, next) ∧
        next.slots ≠ smallStart.slots := by
  refine ⟨_, .start smallStart_start, rfl, ?_⟩
  decide

/-- A second open of `"a"` for reading is refused and keeps the table. -/
theorem open_again_keeps_table :
    ∃ opened next, sysOpen smallHost [97] 1 smallStart = .ok (2, opened) ∧
      sysOpen smallHost [97] 1 opened = .ok (-1, next) ∧
      next.slots = opened.slots := by
  have step : (system smallHost).step smallStart (.openFile [97] 1, 2) _ :=
    ⟨smallStart_opensFresh, rfl⟩
  have keeps := failed_open_keeps_table_iff smallHost
    (.step (.start smallStart_start) step) [97]
    (show modeOf 1 = some .read from rfl)
    (smallHost_opensFresh (by decide) (by decide) _ _)
  refine ⟨_, _, step.2, rfl, keeps.mpr ?_ _ rfl⟩
  rintro ⟨asks, _, _⟩
  exact absurd asks (by decide)

/-! ## Host descriptors -/

/-- What is open on the host is what the table holds. -/
def Conserved (fileSystem : FileSystem World) : Prop :=
  ∀ fd, fd ∈ fileSystem.host.opened ↔ fd ∈ descriptors fileSystem.slots

/-- The calls that open a host file without entering it in the table.  Inside
the class, `Close(fileDescriptor)` looks the descriptor up in the table, where
it is not, and the host never hears of it. -/
def Leaks (host : Host World) (fileSystem : FileSystem World) : Call → Prop
  | .create name =>
    strlen name ≠ 0 ∧ 0 ≤ fileSystem.answer host .createTruncate name
  | .openFile name type =>
    ∃ mode, modeOf type = some mode ∧
      fileSystem.refusesOpen host name mode = false ∧
      fileSystem.isFull = true ∧
      0 ≤ fileSystem.answer host mode.flags name
  | .read _ _ _ | .write _ _ _ | .seek _ _ | .close _ | .remove _ => False

theorem conserved_start
    {host : Host World} {fileSystem : FileSystem World}
    (starting : (system host).start fileSystem) : Conserved fileSystem := by
  obtain ⟨allEmpty, noneOpened⟩ := starting
  have noDescriptors : descriptors fileSystem.slots = [] := by
    rw [allEmpty]
    decide
  intro fd
  rw [noneOpened, noDescriptors]

theorem not_conserved_of_left_open
    {host : Host World} {fileSystem : FileSystem World}
    (sound : fileSystem.Sound) {flags : OpenFlags} {name : List Byte}
    (fresh : fileSystem.AnswersFresh host flags name)
    (given : 0 ≤ fileSystem.answer host flags name) :
    ¬ Conserved ⟨fileSystem.slots,
      (hostOpen host flags name fileSystem.host).2⟩ := by
  intro conserved
  rcases fresh with failed | ⟨_, isFresh⟩
  · omega
  · apply isFresh
    apply sound.opened
    apply (conserved _).mp
    rw [hostOpen_opened, if_pos given]
    exact List.mem_cons_self

/-- A descriptor entered in the table, or none opened at all, keeps the
account. -/
theorem Conserved.install
    {host : Host World} {fileSystem : FileSystem World}
    (conserved : Conserved fileSystem) {before after : List Slot}
    (split : fileSystem.slots = before ++ Slot.empty :: after)
    (flags : OpenFlags) (name : List Byte) (mode : Mode)
    (recorded : List Byte) :
    Conserved
      ⟨before ++
        Slot.holding (fileSystem.answer host flags name) 0 mode recorded ::
          after,
        (hostOpen host flags name fileSystem.host).2⟩ := by
  intro fd
  have before' := conserved fd
  rw [split, descriptors_split, descriptor_empty, Option.toList_none,
    List.nil_append, List.mem_append] at before'
  rw [hostOpen_opened, descriptors_split]
  by_cases given : 0 ≤ fileSystem.answer host flags name
  · rw [if_pos given, descriptor_holding given, List.mem_cons, before']
    simp only [Option.toList_some, List.singleton_append, List.mem_append,
      List.mem_cons]
    exact or_left_comm
  · rw [if_neg given, descriptor_holding_neg (by omega), before']
    simp

theorem Conserved.release
    {fileSystem : FileSystem World} (conserved : Conserved fileSystem)
    (sound : fileSystem.Sound) {d offset : Int} {mode : Mode}
    {name : List Byte} {before after : List Slot} (large : 2 ≤ d)
    (held : HeldAt fileSystem.slots d offset mode name before after)
    {state : HostState World}
    (closed : state.opened = fileSystem.host.opened.filter (· ≠ d)) :
    Conserved ⟨before ++ Slot.empty :: after, state⟩ := by
  have nodup := sound.nodup
  rw [held.split, descriptors_split, descriptor_holding (by omega),
    Option.toList_some, List.singleton_append, List.nodup_middle,
    List.nodup_cons] at nodup
  intro fd
  have before' := conserved fd
  rw [held.split, descriptors_split, descriptor_holding (by omega),
    Option.toList_some, List.singleton_append, List.mem_append,
    List.mem_cons] at before'
  rw [closed, List.mem_filter, before', descriptors_split, descriptor_empty,
    Option.toList_none, List.nil_append, List.mem_append, decide_eq_true_eq]
  constructor
  · rintro ⟨inBefore | same | inAfter, different⟩
    · exact Or.inl inBefore
    · exact absurd same different
    · exact Or.inr inAfter
  · intro member
    refine ⟨member.imp_right Or.inr, ?_⟩
    rintro rfl
    exact nodup.1 (List.mem_append.mpr member)

/-- From a table that accounts for every open descriptor, a call leads to one
that does exactly if it is not one of the leaking calls. -/
theorem conserved_step_iff
    {host : Host World} {fileSystem next : FileSystem World}
    (reachable : (system host).Reachable fileSystem)
    (conserved : Conserved fileSystem) {event : Call × Int}
    (taken : (system host).step fileSystem event next) :
    Conserved next ↔ ¬ Leaks host fileSystem event.1 := by
  have sound := sound_of_reachable reachable
  have quiet : ∀ after : FileSystem World,
      descriptors after.slots = descriptors fileSystem.slots ∧
        after.host.opened = fileSystem.host.opened → Conserved after := by
    rintro after ⟨sameDescriptors, sameOpened⟩ fd
    rw [sameDescriptors, sameOpened]
    exact conserved fd
  obtain ⟨fresh, returned⟩ := taken
  obtain ⟨call, result⟩ := event
  cases call with
  | create name =>
    rcases sound.create_cases host (fresh .createTruncate name) with
      ⟨unnamed, refused⟩ | ⟨_, _, aborted⟩ | ⟨named, large, created⟩
    · cases refused.symm.trans returned
      simp [Leaks, unnamed, conserved]
    · cases aborted.symm.trans returned
    · cases created.symm.trans returned
      have given : 0 ≤ fileSystem.answer host .createTruncate name := by
        omega
      exact iff_of_false
        (not_conserved_of_left_open sound (fresh _ name) given)
        (not_not.mpr ⟨named, given⟩)
  | openFile name type =>
    change sysOpen host name type fileSystem = _ at returned
    rw [sysOpen_eq] at returned
    cases asked : modeOf type with
    | none =>
      rw [asked] at returned
      cases returned
      simp [Leaks, asked, conserved]
    | some mode =>
      rw [asked] at returned
      rcases sound.openMode_cases host (fresh mode.flags name) with
        ⟨refused, early⟩ | ⟨asks, full, atEnd⟩ |
          ⟨asks, free, before, after, split, entered⟩
      · cases early.symm.trans returned
        simp [Leaks, asked, refused, conserved]
      · cases atEnd.symm.trans returned
        by_cases given : 0 ≤ fileSystem.answer host mode.flags name
        · exact iff_of_false
            (not_conserved_of_left_open sound (fresh _ name) given)
            (not_not.mpr ⟨mode, asked, asks, full, given⟩)
        · refine iff_of_true (quiet _ ⟨rfl, ?_⟩) ?_
          · rw [hostOpen_opened, if_neg given]
          · rintro ⟨other, otherAsked, _, _, otherGiven⟩
            rw [asked, Option.some.injEq] at otherAsked
            subst otherAsked
            exact given otherGiven
      · cases entered.symm.trans returned
        refine iff_of_true (conserved.install split _ name mode _) ?_
        rintro ⟨_, _, _, full, _⟩
        rw [free] at full
        exact Bool.false_ne_true full
  | read buffer size d =>
    obtain ⟨bytes, read⟩ := sysRead_of_perform returned
    exact iff_of_true
      (quiet _ (sound.read_accesses host read).accounts) not_false
  | write buffer size d =>
    exact iff_of_true
      (quiet _ (sound.write_accesses host returned).accounts) not_false
  | seek pos d =>
    exact iff_of_true
      (quiet _ (sound.seek_accesses host returned).accounts) not_false
  | close d =>
    rcases sound.sysClose_cases host returned with
      ⟨_, rfl, _⟩ |
        ⟨large, _, offset, mode, name, before, after, state, held, closed,
          rfl⟩
    · exact iff_of_true conserved not_false
    · exact iff_of_true
        (conserved.release sound large held (hostClose_opened host closed))
        not_false
  | remove name =>
    obtain ⟨sameSlots, passes⟩ := frame_of_perform_remove returned
    exact iff_of_true (quiet next ⟨by rw [sameSlots], passes.opened⟩) not_false

/-- Over any sequence of calls from the empty table, the host descriptors that
are open are those in the table after every call, exactly if no call of the
sequence leaks one. -/
theorem descriptors_conserved_iff
    (host : Host World) {source target : FileSystem World}
    {steps : List (FileSystem World × (Call × Int) × FileSystem World)}
    (starting : (system host).start source)
    (trail : (system host).Trail source steps target) :
    (∀ step ∈ steps, Conserved step.2.2) ↔
      ∀ step ∈ steps, ¬ Leaks host step.1 step.2.1.1 :=
  (trail.good_iff_permitted
    (fun _ _ _ reachable conserved taken =>
      conserved_step_iff reachable conserved taken)
    starting (conserved_start starting)).1

/-- Creating `"b"` leaves descriptor 2 open on the host and in no slot. -/
theorem create_leaves_descriptor_open :
    ∃ next,
      (system smallHost).Trail smallStart
          [(smallStart, (.create [98], 0), next)] next ∧
        (2 : Int) ∈ next.host.opened ∧
        (2 : Int) ∉ descriptors next.slots := by
  refine ⟨_, .snoc (.nil _) ⟨smallStart_opensFresh, rfl⟩, ?_, ?_⟩ <;> decide

theorem open_and_close_conserved :
    ∃ opened closed,
      (system smallHost).Trail smallStart
          [(smallStart, (.openFile [97] 0, 2), opened),
            (opened, (.close 2, 0), closed)] closed ∧
        Conserved closed := by
  have first :
      (system smallHost).Trail smallStart
        ([] ++ [(smallStart, (.openFile [97] 0, 2), _)]) _ :=
    .snoc (.nil _) ⟨smallStart_opensFresh, rfl⟩
  have second := TransitionSystem.Trail.snoc first
    (show (system smallHost).step _ (.close 2, 0) _ from
      ⟨smallHost_opensFresh (by decide) (by decide), rfl⟩)
  have allConserved :=
    (descriptors_conserved_iff smallHost smallStart_start second).mpr (by
      simp only [List.nil_append, List.singleton_append, List.forall_mem_cons]
      refine ⟨?_, not_false, by simp⟩
      rintro ⟨_, _, _, full, _⟩
      exact absurd full (by decide))
  have lastConserved := allConserved _
    (List.mem_append_right _ (List.mem_singleton.mpr rfl))
  exact ⟨_, _, second, lastConserved⟩

/-! ## Closing -/

/-- `Close` ends with `outcome`, and would recurse no further if it could. -/
def EndsWith
    (host : Host World) (fileID : Int) (fileSystem : FileSystem World)
    (outcome : Except Abort (Int × FileSystem World)) : Prop :=
  ∀ depth, fileSystem.slots.length + 2 ≤ depth →
    FileSystem.closeWithin host depth fileID fileSystem = outcome

/-- `Close` frees the slot of an open descriptor and closes that on the host,
and does nothing for any other number. -/
structure ClosesOne
    (host : Host World) (fileID : Int) (fileSystem : FileSystem World) :
    Prop where
  held : ∀ index slot, fileSystem.slots[index]? = some slot →
    slot.descriptor = some fileID →
    EndsWith host fileID fileSystem (do
      let state ← hostClose host fileID fileSystem.host
      return (0, ⟨fileSystem.slots.set index Slot.empty, state⟩))
  notHeld : (∀ slot ∈ fileSystem.slots, slot.descriptor ≠ some fileID) →
    EndsWith host fileID fileSystem (.ok (-1, fileSystem))

section Closing

variable {host : Host World} {fileSystem : FileSystem World} {fileID : Int}

theorem Slot.id_of_descriptor {slot : Slot} (held : slot.descriptor = some fileID) :
    slot.id = fileID ∧ 0 ≤ fileID := by
  unfold descriptor at held
  split_ifs at held with occupied
  have sameId := Option.some.inj held
  exact ⟨sameId, by omega⟩

theorem HeldAt.index_eq
    {slots before after : List Slot} {offset : Int} {mode : Mode}
    {name : List Byte}
    (heldAt : HeldAt slots fileID offset mode name before after)
    {index : Nat} {slot : Slot} (atIndex : slots[index]? = some slot)
    (sameId : slot.id = fileID) : index = before.length := by
  rw [heldAt.split] at atIndex
  rcases Nat.lt_trichotomy index before.length with below | same | above
  · rw [List.getElem?_append_left below] at atIndex
    exact absurd sameId (heldAt.earlier slot (List.mem_of_getElem? atIndex))
  · exact same
  · obtain ⟨more, rfl⟩ := Nat.exists_eq_add_of_lt above
    rw [List.getElem?_append_right (by omega), Nat.add_assoc,
      Nat.add_sub_cancel_left, List.getElem?_cons_succ] at atIndex
    exact absurd sameId (heldAt.later slot (List.mem_of_getElem? atIndex))

theorem ClosesOne.of_absent
    (absent : fileID < 0 ∨ ∀ slot ∈ fileSystem.slots, slot.id ≠ fileID) :
    ClosesOne host fileID fileSystem where
  held index slot atIndex isHeld := by
    obtain ⟨sameId, nonnegative⟩ := Slot.id_of_descriptor isHeld
    rcases absent with negative | absent
    · omega
    · exact absurd sameId (absent slot (List.mem_of_getElem? atIndex))
  notHeld _ depth deep := by
    obtain ⟨more, rfl⟩ := Nat.exists_eq_add_of_le' deep
    exact FileSystem.closeWithin_of_absent host fileSystem absent _

theorem ClosesOne.of_heldAt
    (sound : fileSystem.Sound) (large : 2 ≤ fileID)
    {offset : Int} {mode : Mode} {name : List Byte} {before after : List Slot}
    (heldAt : HeldAt fileSystem.slots fileID offset mode name before after) :
    ClosesOne host fileID fileSystem where
  held index slot atIndex isHeld depth deep := by
    have sameIndex := heldAt.index_eq atIndex (Slot.id_of_descriptor isHeld).1
    obtain ⟨more, rfl⟩ := Nat.exists_eq_add_of_le' deep
    rw [sameIndex, heldAt.firstMatch.set]
    exact sound.closeWithin_found host large heldAt.firstMatch _
  notHeld nowhere := by
    refine absurd (descriptor_holding (by omega) offset mode name) (nowhere _ ?_)
    rw [heldAt.split]
    simp

/-- `Close` does its work just if it is not given 0 while a slot is free; then
it never ends. -/
theorem closesOne_iff
    (reachable : (system host).Reachable fileSystem) (fileID : Int) :
    ClosesOne host fileID fileSystem ↔
      ¬ (fileID = 0 ∧ ∃ slot ∈ fileSystem.slots, slot.file = none) := by
  have sound := sound_of_reachable reachable
  constructor
  · rintro closes ⟨rfl, slot, member, free⟩
    have isEmpty := (sound.slots slot member).eq_empty_of_file
      (Option.isNone_iff_eq_none.mpr free)
    have endless := sound.closeWithin_zero host
      ⟨slot, member, by rw [isEmpty]; rfl⟩ (fileSystem.slots.length + 2)
    have notHeld : ∀ other ∈ fileSystem.slots, other.descriptor ≠ some 0 := by
      intro other otherMember isHeld
      have zero := (Slot.id_of_descriptor isHeld).1
      rw [(sound.slots other otherMember).eq_empty_of_id zero] at isHeld
      cases isHeld
    have returned := closes.notHeld notHeld _ (le_refl _)
    rw [endless] at returned
    cases returned
  · intro proper
    by_cases large : 2 ≤ fileID
    · rcases sound.heldAt_cases large with
        absent | ⟨offset, mode, name, before, after, heldAt⟩
      · exact .of_absent (Or.inr absent)
      · exact .of_heldAt sound large heldAt
    · apply ClosesOne.of_absent
      by_contra present
      push Not at present
      obtain ⟨nonnegative, slot, member, sameId⟩ := present
      rcases sound.slots slot member with
        rfl | ⟨fd, offset, mode, name, rfl, valid⟩
      · exact proper ⟨sameId.symm, _, member, rfl⟩
      · change fd = fileID at sameId
        omega

end Closing

/-- Of two open files the first is closed: its slot is emptied, the other
stays. -/
theorem close_first_of_two :
    ∃ opened, (system smallHost).Reachable opened ∧
      opened.slots = Slot.holding 2 0 .readWrite [97] ::
        Slot.holding 3 0 .read [97] :: List.replicate 16 Slot.empty ∧
      ClosesOne smallHost 2 opened ∧
      ∃ state, sysClose smallHost 2 opened =
        .ok (0, ⟨Slot.empty :: Slot.holding 3 0 .read [97] ::
          List.replicate 16 Slot.empty, state⟩) := by
  have first : (system smallHost).step smallStart (.openFile [97] 0, 2) _ :=
    ⟨smallStart_opensFresh, rfl⟩
  have reachable : (system smallHost).Reachable _ :=
    .step (.step (.start smallStart_start) first)
      (⟨smallHost_opensFresh (by decide) (by decide), rfl⟩ :
        (system smallHost).step _ (.openFile [97] 1, 3) _)
  exact ⟨_, reachable, rfl, (closesOne_iff reachable 2).mpr (by decide), _, rfl⟩

/-- `SysClose(0)` on the empty table does not end at any depth. -/
theorem close_zero_endless :
    (system smallHost).Reachable smallStart ∧
      (∀ depth, FileSystem.closeWithin smallHost depth 0 smallStart =
        .error .endlessRecursion) ∧
      ¬ ClosesOne smallHost 0 smallStart := by
  have reachable : (system smallHost).Reachable smallStart :=
    .start smallStart_start
  have free : ∃ slot ∈ smallStart.slots, slot.id = 0 :=
    ⟨_, List.mem_cons_self, rfl⟩
  have endless := (sound_of_reachable reachable).closeWithin_zero smallHost free
  refine ⟨reachable, endless, ?_⟩
  intro closes
  have returned := closes.notHeld (by decide) _ (le_refl _)
  rw [endless] at returned
  cases returned

end Nachos.Stub
