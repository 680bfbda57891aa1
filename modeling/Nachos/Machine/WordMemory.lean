import Nachos.Machine.UserMemory

/-!
# Words of user memory

What a read or a write does, byte by byte and as user code sees it; and that of
the aligned word around an address.
-/

namespace Nachos

open Foundation

/-! ## The aligned word around an address -/

def alignedBase (addr : Word) : Word :=
  addr - (addr &&& 3)

theorem toNat_and_three (addr : Word) :
    (addr &&& 3).toNat = addr.toNat % 4 := by
  rw [BitVec.toNat_and]
  exact Nat.and_two_pow_sub_one_eq_mod addr.toNat 2

theorem toNat_alignedBase (addr : Word) :
    (alignedBase addr).toNat = addr.toNat - addr.toNat % 4 := by
  have bound := addr.isLt
  unfold alignedBase
  rw [BitVec.toNat_sub, toNat_and_three]
  omega

theorem aligned_alignedBase (addr : Word) :
    Translation.misaligned (alignedBase addr) 4 = false := by
  have zero : alignedBase addr &&& 3 = 0 := by
    apply BitVec.eq_of_toNat_eq
    rw [toNat_and_three, toNat_alignedBase]
    change _ = 0
    omega
  unfold Translation.misaligned
  rw [zero]
  rfl

theorem toNat_add_sub
    (addr : Word) {index : Nat} (inside : index < 4294967296) :
    (addr + BitVec.ofNat 32 index - addr).toNat = index := by
  have bound := addr.isLt
  rw [BitVec.toNat_sub, BitVec.toNat_add, BitVec.toNat_ofNat]
  omega

namespace Translation

variable {translation : Translation} {addr : Word} {size : Nat} {writing : Bool}

theorem physical_near
    (isSize : size = 1 ∨ size = 2 ∨ size = 4)
    (aligned : misaligned addr size = false) {place : Nat}
    (mapped : translation.physical addr writing = some place) {other : Word}
    (near : (other - addr).toNat < size) :
    translation.physical other writing =
      some (place + (other - addr).toNat) := by
  obtain ⟨pageFrame, found, rfl⟩ := physical_eq_some_iff.mp mapped
  have within := offset_add_size_le isSize aligned
  have bound := addr.isLt
  have otherBound := other.isLt
  rw [BitVec.toNat_sub] at near ⊢
  unfold pageSize at within
  have samePage : other.toNat / pageSize = addr.toNat / pageSize := by
    unfold pageSize
    omega
  refine physical_eq_some_iff.mpr ⟨pageFrame, by rw [samePage]; exact found, ?_⟩
  unfold pageSize
  omega

theorem physical_index
    (isSize : size = 1 ∨ size = 2 ∨ size = 4)
    (aligned : misaligned addr size = false) {place : Nat}
    (mapped : translation.physical addr writing = some place) {index : Nat}
    (inside : index < size) :
    translation.physical (addr + BitVec.ofNat 32 index) writing =
      some (place + index) := by
  have distance := @toNat_add_sub addr index (by omega)
  have there := @physical_near _ _ _ _ isSize aligned _ mapped
    (addr + BitVec.ofNat 32 index) (by omega)
  rwa [distance] at there

theorem physical_of_translate
    (ready : translation.Ready) (isSize : size = 1 ∨ size = 2 ∨ size = 4)
    {place : Nat} {touched : Translation}
    (translated : translation.translate addr size writing =
      .ok (.ok place, touched)) :
    misaligned addr size = false ∧
      translation.physical addr writing = some place := by
  rcases translate_cases ready isSize addr writing with
    ⟨exception, refused⟩ | ⟨pageFrame, after, aligned, search, passed⟩
  · cases refused.symm.trans translated
  · cases passed.symm.trans translated
    unfold physical
    rw [← frame_eq_frameOf, search]
    exact ⟨aligned, rfl⟩

theorem physical_alignedBase
    (mapped : (translation.physical addr writing).isSome) :
    ∃ base, translation.physical (alignedBase addr) writing = some base ∧
      ∀ other : Word, (other - alignedBase addr).toNat < 4 →
        translation.physical other writing =
          some (base + (other - alignedBase addr).toNat) := by
  obtain ⟨place, isPlace⟩ := Option.isSome_iff_exists.mp mapped
  obtain ⟨pageFrame, found, -⟩ := physical_eq_some_iff.mp isPlace
  have samePage : (alignedBase addr).toNat / pageSize =
      addr.toNat / pageSize := by
    rw [toNat_alignedBase]
    unfold pageSize
    omega
  have atBase : translation.physical (alignedBase addr) writing =
      some (pageFrame * pageSize + (alignedBase addr).toNat % pageSize) :=
    physical_eq_some_iff.mpr ⟨pageFrame, by rw [samePage]; exact found, rfl⟩
  exact ⟨_, atBase, fun _ near => physical_near (Or.inr (Or.inr rfl))
    (aligned_alignedBase addr) atBase near⟩

end Translation

/-- No two pages that addresses can name have the same frame. -/
def Translation.Separate (translation : Translation) : Prop :=
  ∀ (first second : Word) pageFrame,
    frameOf translation.settings (first.toNat / pageSize) false =
      .ok pageFrame →
    frameOf translation.settings (second.toNat / pageSize) false =
      .ok pageFrame →
    first.toNat / pageSize = second.toNat / pageSize

theorem Translation.Separate.congr
    {translation other : Translation} (separate : translation.Separate)
    (same : other.settings = translation.settings) : other.Separate := by
  unfold Translation.Separate
  rw [same]
  exact separate

theorem Translation.Separate.physical_injective
    {translation : Translation} (separate : translation.Separate)
    {first second : Word} {place : Nat}
    (firstMapped : translation.physical first false = some place)
    (secondMapped : translation.physical second false = some place) :
    first = second := by
  obtain ⟨firstFrame, firstFound, firstPlace⟩ :=
    physical_eq_some_iff.mp firstMapped
  obtain ⟨secondFrame, secondFound, secondPlace⟩ :=
    physical_eq_some_iff.mp secondMapped
  have sameFrame : firstFrame = secondFrame := by
    unfold pageSize at firstPlace secondPlace
    omega
  rw [← sameFrame] at secondFound secondPlace
  have samePage := separate _ _ _ firstFound secondFound
  apply BitVec.eq_of_toNat_eq
  unfold pageSize at firstPlace secondPlace samePage
  omega

namespace Machine

variable {machine next : Machine} {addr : Word}

/-- Memory as user code sees it. -/
def byteAt (machine : Machine) (addr : Word) : Option Byte :=
  (machine.translation.physical addr false).map machine.mainMemory

theorem isSome_read_of_write
    (writable : (machine.translation.physical addr true).isSome) :
    (machine.translation.physical addr false).isSome := by
  obtain ⟨place, isPlace⟩ := Option.isSome_iff_exists.mp writable
  rw [Translation.physical_read_of_write isPlace]
  rfl

/-- User code sees the bytes that `change` gives, and elsewhere what was there.
Memory that is not mapped stays as it is. -/
structure Edits (machine : Machine) (change : Word → Option Byte)
    (next : Machine) : Prop where
  bytes : ∀ addr, next.byteAt addr =
    (machine.byteAt addr).map fun old => (change addr).getD old
  mapped : ∀ address, next.mainMemory address ≠ machine.mainMemory address →
    ∃ addr, machine.translation.physical addr false = some address
  settings : next.translation.settings = machine.translation.settings
  ready : next.translation.Ready

def wordFrom (addr value : Word) (other : Word) : Option Byte :=
  if (other - addr).toNat < 4 then
    some (byteOf value (other - addr).toNat)
  else
    none

theorem readMem_alignedBase
    (ready : machine.translation.Ready)
    (mapped : (machine.translation.physical addr false).isSome) :
    ∃ value next, machine.readMem (alignedBase addr) 4 =
        .ok (.ok value, next) ∧
      machine.Looked next ∧
      ∀ other : Word, (other - alignedBase addr).toNat < 4 →
        machine.byteAt other =
          some (byteOf value (other - alignedBase addr).toNat) := by
  obtain ⟨base, atBase, places⟩ := Translation.physical_alignedBase mapped
  obtain ⟨touched, translated, settings, touchedReady⟩ :=
    Translation.translate_physical ready (Or.inr (Or.inr rfl))
      (aligned_alignedBase addr) atBase
  let byte : Nat → Byte := fun index => machine.mainMemory (base + index)
  refine ⟨bytesWord (byte 0) (byte 1) (byte 2) (byte 3),
    { machine with translation := touched }, ?_,
    ⟨rfl, rfl, settings, touchedReady⟩, ?_⟩
  · unfold readMem
    rw [translated]
    rfl
  · intro other near
    unfold byteAt
    rw [places other near, byteOf_bytesWord byte near]
    rfl

variable {size : Nat}

theorem storeAt_take
    (memory : Nat → Byte) (base : Nat) (value : Word) (few : size ≤ 4)
    {index : Nat} (inside : index < size) :
    storeAt memory base ((wordBytes value).take size) (base + index) =
      byteOf value index := by
  unfold storeAt
  rw [if_pos (Nat.le_add_right base index), Nat.add_sub_cancel_left,
    List.getD_eq_getElem?_getD, List.getElem?_take, if_pos inside]
  match index, Nat.lt_of_lt_of_le inside few with
  | 0, _ => rfl
  | 1, _ => rfl
  | 2, _ => rfl
  | 3, _ => rfl

theorem storeAt_take_of_ne
    (memory : Nat → Byte) {base : Nat} (value : Word) {address : Nat}
    (outside : ∀ index < size, base + index ≠ address) :
    storeAt memory base ((wordBytes value).take size) address =
      memory address := by
  unfold storeAt
  split_ifs with above
  · have past : ¬ address - base < size := fun inside =>
      outside (address - base) inside (by omega)
    rw [List.getD_eq_getElem?_getD, List.getElem?_take, if_neg past,
      Option.getD_none]
  · rfl

def bytesFrom (addr : Word) (size : Nat) (value : Word) (other : Word) :
    Option Byte :=
  if (other - addr).toNat < size then
    some (byteOf value (other - addr).toNat)
  else
    none

theorem mapped_of_storeAt
    {translation : Translation} (isSize : size = 1 ∨ size = 2 ∨ size = 4)
    (aligned : Translation.misaligned addr size = false) {place : Nat}
    (readable : translation.physical addr false = some place)
    {memory : Nat → Byte} {value : Word} {address : Nat}
    (changed : storeAt memory place ((wordBytes value).take size) address ≠
      memory address) :
    ∃ addr, translation.physical addr false = some address := by
  by_contra unmapped
  apply changed
  refine storeAt_take_of_ne _ _ fun index inside same =>
    unmapped ⟨addr + BitVec.ofNat 32 index, ?_⟩
  rw [← same]
  exact Translation.physical_index isSize aligned readable inside

theorem edits_storeAt
    (separate : machine.translation.Separate)
    (isSize : size = 1 ∨ size = 2 ∨ size = 4)
    (aligned : Translation.misaligned addr size = false) {place : Nat}
    (writable : machine.translation.physical addr true = some place)
    (value : Word) {touched : Translation}
    (settings : touched.settings = machine.translation.settings)
    (ready : touched.Ready) :
    machine.Edits (bytesFrom addr size value) { machine with
      mainMemory :=
        storeAt machine.mainMemory place ((wordBytes value).take size)
      translation := touched } := by
  have readable := Translation.physical_read_of_write writable
  have few : size ≤ 4 := by omega
  refine ⟨fun other => ?_,
    fun _ changed => mapped_of_storeAt isSize aligned readable changed,
    settings, ready⟩
  · unfold byteAt bytesFrom
    rw [Translation.physical_congr settings]
    cases seen : machine.translation.physical other false with
    | none => rfl
    | some address =>
      simp only [Option.map_some]
      split_ifs with near
      · have there :=
          Translation.physical_near isSize aligned readable near
        rw [seen] at there
        rw [Option.some.inj there, storeAt_take _ _ _ few near]
        rfl
      · rw [storeAt_take_of_ne]
        · rfl
        · intro index inside same
          rw [← same] at seen
          have sameAddress :=
            separate.physical_injective seen
              (Translation.physical_index isSize aligned readable inside)
          rw [sameAddress, toNat_add_sub _ (by omega)] at near
          exact near inside

theorem writeMem_alignedBase
    (ready : machine.translation.Ready)
    (separate : machine.translation.Separate)
    (writable : (machine.translation.physical addr true).isSome)
    (value : Word) :
    ∃ next, machine.writeMem (alignedBase addr) 4 value = .ok (.ok (), next) ∧
      next.registers = machine.registers ∧
      machine.Edits (wordFrom (alignedBase addr) value) next := by
  have isSize : 4 = 1 ∨ 4 = 2 ∨ 4 = 4 := Or.inr (Or.inr rfl)
  have aligned := aligned_alignedBase addr
  obtain ⟨base, atBase, -⟩ := Translation.physical_alignedBase writable
  obtain ⟨touched, translated, settings, touchedReady⟩ :=
    Translation.translate_physical ready isSize aligned atBase
  have edits := edits_storeAt separate isSize aligned atBase value settings
    touchedReady
  refine ⟨_, ?_, ?_, edits⟩
  · unfold writeMem
    rw [translated]
    rfl
  · rfl

theorem Edits.trans
    {last : Machine} {change later : Word → Option Byte}
    (first : machine.Edits change next) (second : next.Edits later last) :
    machine.Edits (fun addr => (later addr).or (change addr)) last where
  bytes := by
    intro addr
    rw [second.bytes, first.bytes, Option.map_map]
    congr 1
    funext old
    cases later addr <;> rfl
  mapped := by
    intro address changed
    by_cases same : next.mainMemory address = machine.mainMemory address
    · obtain ⟨addr, isAddr⟩ := second.mapped address (same ▸ changed)
      rw [Translation.physical_congr first.settings] at isAddr
      exact ⟨addr, isAddr⟩
    · exact first.mapped address same
  settings := second.settings.trans first.settings
  ready := second.ready

theorem Edits.leave
    {change : Word → Option Byte} {after : Machine}
    (edits : machine.Edits change after)
    (memory : next.mainMemory = after.mainMemory)
    (translation : next.translation = after.translation) :
    machine.Edits change next where
  bytes := by
    intro addr
    rw [← edits.bytes]
    unfold byteAt
    rw [memory, translation]
  mapped := by
    rw [memory]
    exact edits.mapped
  settings := by
    rw [translation]
    exact edits.settings
  ready := by
    rw [translation]
    exact edits.ready

theorem Edits.congr
    {change other : Word → Option Byte} (edits : machine.Edits change next)
    (same : ∀ addr old, machine.byteAt addr = some old →
      (change addr).getD old = (other addr).getD old) :
    machine.Edits other next where
  bytes := by
    intro addr
    rw [edits.bytes]
    cases seen : machine.byteAt addr with
    | none => rfl
    | some old => exact congrArg some (same addr old seen)
  mapped := edits.mapped
  settings := edits.settings
  ready := edits.ready

theorem Looked.byteAt (looked : machine.Looked next) :
    next.byteAt = machine.byteAt := by
  funext addr
  unfold Machine.byteAt
  rw [Translation.physical_congr looked.settings, looked.memory]

theorem Looked.separate
    (looked : machine.Looked next) (separate : machine.translation.Separate) :
    next.translation.Separate :=
  separate.congr looked.settings

theorem Looked.edits
    {last : Machine} {change : Word → Option Byte}
    (looked : machine.Looked next) (edits : next.Edits change last) :
    machine.Edits change last where
  bytes := by
    rw [← looked.byteAt]
    exact edits.bytes
  mapped := by
    rw [← looked.memory, ← Translation.physical_congr looked.settings]
    exact edits.mapped
  settings := edits.settings.trans looked.settings
  ready := edits.ready

end Machine

end Nachos
