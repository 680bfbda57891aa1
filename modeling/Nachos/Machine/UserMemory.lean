import Nachos.Machine.Translate

/-!
# What the kernel sees of user memory

An access sets use and dirty bits, and these change neither which addresses are
mapped nor where to.  So the bytes at a range of virtual addresses can be
followed through any number of accesses.
-/

namespace Nachos

open Foundation

namespace TranslationEntry

theorem touch_touch (first second : Bool) (entry : TranslationEntry) :
    (entry.touch first).touch second = entry.touch (first || second) := by
  unfold touch
  simp only [Bool.or_assoc]

end TranslationEntry

theorem PageTable.find_getElem
    {table : PageTable} {vpn : Nat} {entry : TranslationEntry}
    (found : table.find vpn = .ok entry) :
    table.entries[vpn]? = some entry := by
  unfold find at found
  split_ifs at found with inside
  dsimp only at found
  split_ifs at found with valid
  cases found
  exact List.getElem?_eq_getElem (inside.trans_le table.fits)

theorem Tlb.find_getElem
    {tlb : Tlb} {vpn index : Nat} {entry : TranslationEntry}
    (found : tlb.find vpn = .ok (index, entry)) :
    tlb.entries[index]? = some entry := by
  unfold find at found
  split at found
  · cases found
    exact List.getElem?_eq_getElem _
  · cases found

/-- The entry that an access uses, as far as the kernel decides it. -/
abbrev Settings :=
  Option (List TranslationEntry) × Option (List TranslationEntry × Word)

namespace Translation

def settings (translation : Translation) : Settings :=
  (translation.tlb.map fun tlb =>
      tlb.entries.map (TranslationEntry.touch true),
    translation.pageTable.map fun table =>
      (table.entries.map (TranslationEntry.touch true), table.size))

def frameOf (settings : Settings) (vpn : Nat) (writing : Bool) :
    Except ExceptionType Nat :=
  match settings with
  | (none, some (entries, size)) =>
    if vpn < size.toNat then
      match entries[vpn]? with
      | some entry =>
        if entry.valid then entry.frame writing
        else .error .pageFaultException
      | none => .error .addressErrorException
    else
      .error .addressErrorException
  | (some entries, _) =>
    match entries.find? (fun entry =>
      entry.valid && entry.virtualPage == BitVec.ofNat 32 vpn) with
    | some entry => entry.frame writing
    | none => .error .pageFaultException
  | (none, none) => .error .addressErrorException

theorem map_touch_set
    {entries : List TranslationEntry} {index : Nat} {entry : TranslationEntry}
    (found : entries[index]? = some entry) (writing : Bool) :
    (entries.set index (entry.touch writing)).map (TranslationEntry.touch true) =
      entries.map (TranslationEntry.touch true) := by
  rw [List.map_set, TranslationEntry.touch_touch, Bool.or_true]
  apply List.ext_getElem?
  intro other
  rw [List.getElem?_set]
  split_ifs with same inside
  · rw [← same, List.getElem?_map, found]
    rfl
  · rw [← same, List.getElem?_eq_none (Nat.le_of_not_lt inside)]
  · rfl

theorem lookUp_settings
    {translation touched : Translation} {vpn : Nat} {writing : Bool}
    {entry : TranslationEntry}
    (found : translation.lookUp vpn writing = .ok (entry, touched)) :
    touched.settings = translation.settings := by
  unfold lookUp at found
  split at found
  · next table noTlb isTable =>
      obtain ⟨entry, search, found⟩ := exists_of_bind_eq_ok found
      cases found
      have inPlace := map_touch_set (PageTable.find_getElem search) writing
      simp only [settings, isTable, Option.map_some, PageTable.set, inPlace]
  · next tlb isTlb =>
      obtain ⟨⟨index, entry⟩, search, found⟩ := exists_of_bind_eq_ok found
      cases found
      have inPlace := map_touch_set (Tlb.find_getElem search) writing
      simp only [settings, isTlb, Option.map_some, Tlb.set, inPlace]
  · cases found

theorem frame_map_fst
    (translation : Translation) (vpn : Nat) (writing : Bool) :
    (translation.frame vpn writing).map Prod.fst =
      (translation.lookUp vpn writing).bind fun pair =>
        pair.1.frame writing := by
  unfold frame
  cases translation.lookUp vpn writing with
  | error exception => rfl
  | ok pair =>
    cases check : pair.1.frame writing <;>
      simp only [bind, Except.bind, check] <;> rfl

theorem frame_eq_frameOf
    (translation : Translation) (vpn : Nat) (writing : Bool) :
    (translation.frame vpn writing).map Prod.fst =
      frameOf translation.settings vpn writing := by
  rw [frame_map_fst]
  obtain ⟨tlb, pageTable⟩ := translation
  cases tlb with
  | none =>
    cases pageTable with
    | none => rfl
    | some table =>
      simp only [lookUp, PageTable.find, settings, frameOf,
        Option.map_none, Option.map_some, List.getElem?_map]
      by_cases inside : vpn < table.size.toNat
      · have within := inside.trans_le table.fits
        rw [dif_pos inside, if_pos inside, List.getElem?_eq_getElem within]
        simp only [Option.map_some, List.get_eq_getElem]
        generalize table.entries[vpn] = entry
        cases valid : entry.valid
        · simp [valid, TranslationEntry.touch, bind, Except.bind]
        · simp [valid, TranslationEntry.touch, bind, Except.bind, pure,
            Except.pure, TranslationEntry.frame]
      · rw [dif_neg inside, if_neg inside]
        rfl
  | some tlb =>
    simp only [lookUp, Tlb.find, settings, frameOf, Option.map_some,
      List.find?_map]
    have sameTest : (fun entry : TranslationEntry =>
        entry.valid && entry.virtualPage == BitVec.ofNat 32 vpn) ∘
          TranslationEntry.touch true =
        fun entry => entry.valid && entry.virtualPage == BitVec.ofNat 32 vpn :=
      rfl
    rw [sameTest, List.find?_eq_map_findFinIdx?_getElem]
    cases tlb.entries.findFinIdx? (fun entry =>
        entry.valid && entry.virtualPage == BitVec.ofNat 32 vpn) with
    | none => rfl
    | some index => rfl

theorem frame_settings
    {translation touched : Translation} {vpn pageFrame : Nat} {writing : Bool}
    (found : translation.frame vpn writing = .ok (pageFrame, touched)) :
    touched.settings = translation.settings := by
  obtain ⟨pair, search, found⟩ := exists_of_bind_eq_ok found
  obtain ⟨frame, -, found⟩ := exists_of_bind_eq_ok found
  cases found
  exact lookUp_settings search

def physical (translation : Translation) (virtAddr : Word) (writing : Bool) :
    Option Nat :=
  ((frameOf translation.settings (virtAddr.toNat / pageSize) writing).map
    (· * pageSize + virtAddr.toNat % pageSize)).toOption

theorem physical_eq_some_iff
    {translation : Translation} {virtAddr : Word} {writing : Bool}
    {physAddr : Nat} :
    translation.physical virtAddr writing = some physAddr ↔
      ∃ pageFrame,
        frameOf translation.settings (virtAddr.toNat / pageSize) writing =
          .ok pageFrame ∧
        pageFrame * pageSize + virtAddr.toNat % pageSize = physAddr := by
  unfold physical
  cases frameOf translation.settings (virtAddr.toNat / pageSize) writing with
  | error exception =>
    constructor
    · intro impossible
      cases impossible
    · rintro ⟨pageFrame, impossible, -⟩
      cases impossible
  | ok pageFrame =>
    constructor
    · intro found
      exact ⟨pageFrame, rfl, Option.some.inj found⟩
    · rintro ⟨_, ⟨⟩, samePlace⟩
      exact congrArg some samePlace

/-- A mapped address is translated to its physical address, and the tables keep
their settings. -/
theorem translate_physical
    {translation : Translation} (ready : translation.Ready) {virtAddr : Word}
    {size : Nat} (isSize : size = 1 ∨ size = 2 ∨ size = 4)
    (aligned : misaligned virtAddr size = false) {writing : Bool}
    {physAddr : Nat}
    (mapped : translation.physical virtAddr writing = some physAddr) :
    ∃ touched, translation.translate virtAddr size writing =
        .ok (.ok physAddr, touched) ∧
      touched.settings = translation.settings ∧ touched.Ready := by
  rw [translate_of_ready ready isSize aligned]
  unfold physical at mapped
  rw [← frame_eq_frameOf] at mapped
  cases search : translation.frame (virtAddr.toNat / pageSize) writing with
  | error exception =>
    rw [search] at mapped
    cases mapped
  | ok pair =>
    rw [search] at mapped
    cases mapped
    exact ⟨pair.2, rfl, frame_settings search, (frame_spec ready search).2⟩

theorem translate_settings
    {translation touched : Translation} (ready : translation.Ready)
    {virtAddr : Word} {size : Nat} (isSize : size = 1 ∨ size = 2 ∨ size = 4)
    {writing : Bool} {result : Except ExceptionType Nat}
    (translated : translation.translate virtAddr size writing =
      .ok (result, touched)) :
    touched.settings = translation.settings ∧ touched.Ready := by
  rcases translate_cases ready isSize virtAddr writing with
    ⟨exception, refused⟩ | ⟨pageFrame, after, -, search, passed⟩
  · cases refused.symm.trans translated
    exact ⟨rfl, ready⟩
  · cases passed.symm.trans translated
    exact ⟨frame_settings search, (frame_spec ready search).2⟩

theorem physical_congr
    {first second : Translation} (same : first.settings = second.settings) :
    first.physical = second.physical := by
  funext virtAddr writing
  unfold physical
  rw [same]

theorem frameOf_lt
    {settings : Settings} {vpn pageFrame : Nat} {writing : Bool}
    (found : frameOf settings vpn writing = .ok pageFrame) :
    pageFrame < numPhysPages := by
  unfold frameOf at found
  split at found
  · split_ifs at found with inside
    split at found
    · split_ifs at found with valid
      exact TranslationEntry.frame_lt found
    · cases found
  · split at found
    · exact TranslationEntry.frame_lt found
    · cases found
  · cases found

theorem physical_lt
    {translation : Translation} {virtAddr : Word} {writing : Bool}
    {physAddr : Nat}
    (mapped : translation.physical virtAddr writing = some physAddr) :
    physAddr < memorySize := by
  obtain ⟨pageFrame, found, rfl⟩ := physical_eq_some_iff.mp mapped
  have frameBound := frameOf_lt found
  unfold memorySize numPhysPages pageSize at *
  omega

theorem physical_read_of_write
    {translation : Translation} {virtAddr : Word} {physAddr : Nat}
    (mapped : translation.physical virtAddr true = some physAddr) :
    translation.physical virtAddr false = some physAddr := by
  have sameFrame : ∀ {entry : TranslationEntry} {pageFrame : Nat},
      entry.frame true = .ok pageFrame → entry.frame false = .ok pageFrame := by
    intro entry pageFrame found
    unfold TranslationEntry.frame at found ⊢
    rw [Bool.and_false, if_neg Bool.false_ne_true]
    split_ifs at found with readOnly outside
    rw [if_neg outside]
    exact found
  obtain ⟨pageFrame, found, samePlace⟩ := physical_eq_some_iff.mp mapped
  refine physical_eq_some_iff.mpr ⟨pageFrame, ?_, samePlace⟩
  unfold frameOf at found ⊢
  split at found
  · split_ifs at found with inside
    rw [if_pos inside]
    split at found
    · split_ifs at found with valid
      rw [if_pos valid]
      exact sameFrame found
    · cases found
  · split at found
    · exact sameFrame found
    · cases found
  · cases found

end Translation

namespace Machine

/-- Only the tables were touched, and they say what they said. -/
structure Looked (machine next : Machine) : Prop where
  registers : next.registers = machine.registers
  memory : next.mainMemory = machine.mainMemory
  settings : next.translation.settings = machine.translation.settings
  ready : next.translation.Ready

theorem readMem_looked
    {machine next : Machine} (ready : machine.translation.Ready) {addr : Word}
    {size : Nat} (isSize : size = 1 ∨ size = 2 ∨ size = 4)
    {result : Except ExceptionType Word}
    (performed : machine.readMem addr size = .ok (result, next)) :
    machine.Looked next := by
  obtain ⟨⟨found, touched⟩, translated, rest⟩ := exists_of_bind_eq_ok performed
  obtain ⟨settings, touchedReady⟩ :=
    Translation.translate_settings ready isSize translated
  cases found with
  | error exception =>
    cases rest
    exact ⟨rfl, rfl, settings, touchedReady⟩
  | ok physicalAddress =>
    obtain ⟨value, -, returned⟩ := exists_of_bind_eq_ok rest
    cases returned
    exact ⟨rfl, rfl, settings, touchedReady⟩

theorem readMem_mapped
    {machine : Machine} (ready : machine.translation.Ready) {addr : Word}
    {physAddr : Nat}
    (mapped : machine.translation.physical addr false = some physAddr) :
    ∃ next, machine.readMem addr 1 =
        .ok (.ok ((machine.mainMemory physAddr).signExtend 32), next) ∧
      machine.Looked next := by
  obtain ⟨touched, translated, settings, touchedReady⟩ :=
    Translation.translate_physical ready (Or.inl rfl) rfl mapped
  unfold readMem
  rw [translated]
  exact ⟨_, rfl, rfl, rfl, settings, touchedReady⟩

theorem writeMem_mapped
    {machine : Machine} (ready : machine.translation.Ready) {addr : Word}
    {physAddr : Nat} (value : Word)
    (mapped : machine.translation.physical addr true = some physAddr) :
    ∃ translation, machine.writeMem addr 1 value =
        .ok (.ok (), { machine with
          mainMemory := Function.update machine.mainMemory physAddr
            (value.extractLsb' 0 8)
          translation := translation }) ∧
      translation.settings = machine.translation.settings ∧
      translation.Ready := by
  obtain ⟨touched, translated, settings, touchedReady⟩ :=
    Translation.translate_physical ready (Or.inl rfl) rfl mapped
  have stored :
      storeAt machine.mainMemory physAddr [value.extractLsb' 0 8] =
        Function.update machine.mainMemory physAddr (value.extractLsb' 0 8) := by
    funext address
    unfold storeAt
    rcases Nat.lt_trichotomy address physAddr with below | same | above
    · rw [if_neg (Nat.not_le.mpr below), Function.update_of_ne below.ne]
    · rw [same, if_pos (Nat.le_refl _), Nat.sub_self, Function.update_self]
      rfl
    · rw [if_pos above.le, Function.update_of_ne above.ne',
        List.getD_eq_getElem?_getD,
        List.getElem?_eq_none (Nat.sub_pos_of_lt above), Option.getD_none]
  unfold writeMem
  rw [translated, ← stored]
  exact ⟨touched, rfl, settings, touchedReady⟩

def Holds (machine : Machine) : Word → List Byte → Prop
  | _, [] => True
  | addr, byte :: bytes =>
    (∃ physAddr, machine.translation.physical addr false = some physAddr ∧
      machine.mainMemory physAddr = byte) ∧
    machine.Holds (addr + 1) bytes

theorem holds_congr
    {machine next : Machine} (memory : next.mainMemory = machine.mainMemory)
    (settings : next.translation.settings = machine.translation.settings)
    {addr : Word} {bytes : List Byte} (holds : machine.Holds addr bytes) :
    next.Holds addr bytes := by
  induction bytes generalizing addr with
  | nil => trivial
  | cons byte bytes ih =>
    obtain ⟨⟨physAddr, mapped, held⟩, rest⟩ := holds
    refine ⟨⟨physAddr, ?_, ?_⟩, ih rest⟩
    · rw [Translation.physical_congr settings]
      exact mapped
    · rw [memory]
      exact held

theorem Looked.trans
    {first second third : Machine} (earlier : first.Looked second)
    (later : second.Looked third) : first.Looked third :=
  ⟨later.registers.trans earlier.registers, later.memory.trans earlier.memory,
    later.settings.trans earlier.settings, later.ready⟩

end Machine

end Nachos
