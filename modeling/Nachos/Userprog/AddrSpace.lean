import Nachos.Machine.Confinement

/-!
# The kernel's own translation

`AddrSpace::Translate` of `userprog/addrspace.cc` looks into the same page table
as the hardware.  It does not look at the valid bit, and it compares the frame as
an `int`.
-/

namespace Nachos

open Foundation

namespace AddrSpace

def translate (pageTable : PageTable) (vaddr : Word) (isReadWrite : Bool) :
    Except Fault (Except ExceptionType Nat × PageTable) :=
  let vpn := vaddr.toNat / pageSize
  let offset := vaddr.toNat % pageSize
  if inside : vpn < pageTable.size.toNat then
    let pte := pageTable.entries.get ⟨vpn, inside.trans_le pageTable.fits⟩
    if isReadWrite && pte.readOnly then
      .ok (.error .readOnlyException, pageTable)
    else if (numPhysPages : Int) ≤ pte.physicalPage.toInt then
      .ok (.error .busErrorException, pageTable)
    else do
      let paddr := pte.physicalPage * BitVec.ofNat 32 pageSize +
        BitVec.ofNat 32 offset
      assertThat (paddr.toNat < memorySize) .addrSpaceTranslate
      return (.ok paddr.toNat, pageTable.set vpn (pte.touch isReadWrite))
  else
    .ok (.error .addressErrorException, pageTable)

/-- The kernel and the hardware give the same result and leave the same table. -/
def Agree (pageTable : PageTable) (vaddr : Word) (writing : Bool) : Prop :=
  ∃ result after,
    translate pageTable vaddr writing = .ok (result, after) ∧
    Translation.translate ⟨none, some pageTable⟩ vaddr 1 writing =
      .ok (result, ⟨none, some after⟩)

/-- The entry is valid, and if it comes to its frame then that is not negative. -/
def Proper (writing : Bool) (entry : TranslationEntry) : Prop :=
  entry.valid = true ∧
    ((writing && entry.readOnly) = true ∨ 0 ≤ entry.physicalPage.toInt)

variable {pageTable : PageTable} {vaddr : Word} {writing : Bool}
variable {entry : TranslationEntry}

theorem translate_of_entry
    (inside : vaddr.toNat / pageSize < pageTable.size.toNat)
    (atPage : pageTable.entries[vaddr.toNat / pageSize]? = some entry) :
    translate pageTable vaddr writing =
      if (writing && entry.readOnly) = true then
        .ok (.error .readOnlyException, pageTable)
      else if (numPhysPages : Int) ≤ entry.physicalPage.toInt then
        .ok (.error .busErrorException, pageTable)
      else do
        let paddr := entry.physicalPage * BitVec.ofNat 32 pageSize +
          BitVec.ofNat 32 (vaddr.toNat % pageSize)
        assertThat (paddr.toNat < memorySize) .addrSpaceTranslate
        return (.ok paddr.toNat, pageTable.set (vaddr.toNat / pageSize)
          (entry.touch writing)) := by
  obtain ⟨within, isEntry⟩ := List.getElem?_eq_some_iff.mp atPage
  unfold translate
  rw [dif_pos inside]
  simp only [List.get_eq_getElem, isEntry]

theorem machine_translate_of_entry
    (inside : vaddr.toNat / pageSize < pageTable.size.toNat)
    (atPage : pageTable.entries[vaddr.toNat / pageSize]? = some entry) :
    Translation.translate ⟨none, some pageTable⟩ vaddr 1 writing =
      .ok (if entry.valid = true then
        match entry.frame writing with
        | .error exception => (.error exception, ⟨none, some pageTable⟩)
        | .ok pageFrame =>
          (.ok (pageFrame * pageSize + vaddr.toNat % pageSize),
            ⟨none, some (pageTable.set (vaddr.toNat / pageSize)
              (entry.touch writing))⟩)
      else (.error .pageFaultException, ⟨none, some pageTable⟩)) := by
  have ready : Translation.Ready ⟨none, some pageTable⟩ := rfl
  rw [Translation.translate_of_ready ready (Or.inl rfl) rfl]
  split_ifs with valid
  · have search := PageTable.find_eq_ok.mpr ⟨inside, atPage, valid⟩
    have found : Translation.lookUp ⟨none, some pageTable⟩
        (vaddr.toNat / pageSize) writing = .ok (entry, ⟨none,
          some (pageTable.set (vaddr.toNat / pageSize)
            (entry.touch writing))⟩) := by
      simp only [Translation.lookUp, search]
      rfl
    rw [Translation.frame_of_lookUp found]
    cases entry.frame writing <;> rfl
  · have search : pageTable.find (vaddr.toNat / pageSize) =
        .error .pageFaultException := by
      obtain ⟨within, isEntry⟩ := List.getElem?_eq_some_iff.mp atPage
      unfold PageTable.find
      rw [dif_pos inside]
      simp only [List.get_eq_getElem, isEntry]
      rw [if_neg valid]
    simp only [Translation.frame, Translation.lookUp, search]
    rfl

theorem frame_of_refused (refused : (writing && entry.readOnly) = true) :
    entry.frame writing = .error .readOnlyException := by
  unfold TranslationEntry.frame
  rw [Bool.and_comm, if_pos refused]

theorem frame_of_nonnegative (nonnegative : 0 ≤ entry.physicalPage.toInt)
    (allowed : ¬ (writing && entry.readOnly) = true) :
    entry.frame writing =
      if (numPhysPages : Int) ≤ entry.physicalPage.toInt then
        .error .busErrorException
      else .ok entry.physicalPage.toNat := by
  unfold TranslationEntry.frame
  rw [toInt_eq_toNat_of_nonneg nonnegative, Bool.and_comm, if_neg allowed]
  simp only [Nat.cast_le]

theorem toNat_paddr (nonnegative : 0 ≤ entry.physicalPage.toInt)
    (small : ¬ (numPhysPages : Int) ≤ entry.physicalPage.toInt) :
    (entry.physicalPage * BitVec.ofNat 32 pageSize +
      BitVec.ofNat 32 (vaddr.toNat % pageSize)).toNat =
        entry.physicalPage.toNat * pageSize + vaddr.toNat % pageSize := by
  rw [toInt_eq_toNat_of_nonneg nonnegative] at small
  rw [BitVec.toNat_add, BitVec.toNat_mul, BitVec.toNat_ofNat, BitVec.toNat_ofNat]
  unfold numPhysPages at small
  unfold pageSize
  omega

theorem translate_of_frame
    (inside : vaddr.toNat / pageSize < pageTable.size.toNat)
    (atPage : pageTable.entries[vaddr.toNat / pageSize]? = some entry)
    (allowed : ¬ (writing && entry.readOnly) = true)
    (nonnegative : 0 ≤ entry.physicalPage.toInt)
    (small : ¬ (numPhysPages : Int) ≤ entry.physicalPage.toInt) :
    translate pageTable vaddr writing =
      .ok (.ok (entry.physicalPage.toNat * pageSize + vaddr.toNat % pageSize),
        pageTable.set (vaddr.toNat / pageSize) (entry.touch writing)) := by
  have inMemory : entry.physicalPage.toNat * pageSize + vaddr.toNat % pageSize <
      memorySize := by
    rw [toInt_eq_toNat_of_nonneg nonnegative] at small
    unfold memorySize numPhysPages pageSize at *
    omega
  rw [translate_of_entry inside atPage, if_neg allowed, if_neg small]
  simp only [toNat_paddr nonnegative small, inMemory, decide_true,
    assertThat_true, ok_bind]
  rfl

theorem frame_of_negative (negative : entry.physicalPage.toInt < 0)
    (allowed : ¬ (writing && entry.readOnly) = true) :
    entry.frame writing = .error .busErrorException := by
  have large : numPhysPages ≤ entry.physicalPage.toNat := by
    unfold numPhysPages
    rw [BitVec.toInt_eq_toNat_cond] at negative
    split_ifs at negative <;> omega
  unfold TranslationEntry.frame
  rw [Bool.and_comm, if_neg allowed, if_pos large]

/-- The kernel and the hardware agree on an access just if the page is not in the
table, or its entry is proper. -/
theorem agree_iff (pageTable : PageTable) (vaddr : Word) (writing : Bool) :
    Agree pageTable vaddr writing ↔
      ∀ entry, vaddr.toNat / pageSize < pageTable.size.toNat →
        pageTable.entries[vaddr.toNat / pageSize]? = some entry →
        Proper writing entry := by
  constructor
  · rintro ⟨result, after, kernel, hardware⟩ entry inside atPage
    rw [translate_of_entry inside atPage] at kernel
    rw [machine_translate_of_entry inside atPage] at hardware
    split_ifs at hardware with valid
    · refine ⟨valid, or_iff_not_imp_left.mpr fun allowed => ?_⟩
      by_contra negative
      have notBig : ¬ (numPhysPages : Int) ≤ entry.physicalPage.toInt := by
        unfold numPhysPages
        omega
      rw [frame_of_negative (by omega) allowed] at hardware
      cases hardware
      rw [if_neg allowed, if_neg notBig] at kernel
      obtain ⟨-, -, kernel⟩ := exists_of_bind_eq_ok kernel
      cases kernel
    · cases hardware
      split_ifs at kernel
      · cases kernel
      · cases kernel
      · obtain ⟨-, -, kernel⟩ := exists_of_bind_eq_ok kernel
        cases kernel
  · intro proper
    by_cases inside : vaddr.toNat / pageSize < pageTable.size.toNat
    · have within := inside.trans_le pageTable.fits
      have atPage := List.getElem?_eq_getElem within
      obtain ⟨valid, usable⟩ := proper _ inside atPage
      unfold Agree
      rw [machine_translate_of_entry inside atPage, if_pos valid]
      by_cases refused : (writing && pageTable.entries[
          vaddr.toNat / pageSize].readOnly) = true
      · rw [translate_of_entry inside atPage, if_pos refused,
          frame_of_refused refused]
        exact ⟨_, _, rfl, rfl⟩
      · have nonnegative := usable.resolve_left refused
        rw [frame_of_nonnegative nonnegative refused]
        split_ifs with tooBig
        · rw [translate_of_entry inside atPage, if_neg refused, if_pos tooBig]
          exact ⟨_, _, rfl, rfl⟩
        · rw [translate_of_frame inside atPage refused nonnegative tooBig]
          exact ⟨_, _, rfl, rfl⟩
    · have search : pageTable.find (vaddr.toNat / pageSize) =
          .error .addressErrorException := by
        unfold PageTable.find
        rw [dif_neg inside]
      refine ⟨.error .addressErrorException, pageTable, ?_, ?_⟩
      · unfold translate
        rw [dif_neg inside]
      · have ready : Translation.Ready ⟨none, some pageTable⟩ := rfl
        rw [Translation.translate_of_ready ready (Or.inl rfl) rfl]
        simp only [Translation.frame, Translation.lookUp, search]
        rfl

/-- The kernel reads through an entry that is not valid. -/
theorem not_agree_invalid :
    ¬ Agree (.single ⟨0, 7, false, false, false, false⟩) 5 false := by
  rintro ⟨result, after, kernel, hardware⟩
  cases kernel
  cases hardware

end AddrSpace

end Nachos
