import Nachos.Machine.UserMemory

/-!
# Confinement of user accesses
-/

namespace Nachos

open Foundation

namespace Translation

def entries (translation : Translation) : List TranslationEntry :=
  match translation.tlb, translation.pageTable with
  | some tlb, _ => tlb.entries
  | none, some table => table.entries
  | none, none => []

def setEntry (translation : Translation) (index : Nat)
    (entry : TranslationEntry) : Translation :=
  match translation.tlb, translation.pageTable with
  | some tlb, _ => { translation with tlb := some (tlb.set index entry) }
  | none, some table =>
    { translation with pageTable := some (table.set index entry) }
  | none, none => translation

def matchesPage (vpn : Nat) (entry : TranslationEntry) : Bool :=
  entry.valid && entry.virtualPage == BitVec.ofNat 32 vpn

/-- The entry for a virtual page is at `index`: the page is its index in the page
table, or it is the first in the TLB that matches. -/
def IsIndex (translation : Translation) (vpn index : Nat) : Prop :=
  match translation.tlb, translation.pageTable with
  | some tlb, _ =>
    (∃ entry, tlb.entries[index]? = some entry ∧
      entry.virtualPage = BitVec.ofNat 32 vpn) ∧
    ∀ earlier < index, ∀ entry, tlb.entries[earlier]? = some entry →
      matchesPage vpn entry = false
  | none, some table => index = vpn ∧ vpn < table.size.toNat
  | none, none => False

/-- The valid entry for a virtual page, and where it is. -/
structure Finds (translation : Translation) (vpn index : Nat)
    (entry : TranslationEntry) : Prop where
  isIndex : translation.IsIndex vpn index
  found : translation.entries[index]? = some entry
  valid : entry.valid = true

end Translation

theorem PageTable.find_eq_ok
    {table : PageTable} {vpn : Nat} {entry : TranslationEntry} :
    table.find vpn = .ok entry ↔
      vpn < table.size.toNat ∧ table.entries[vpn]? = some entry ∧
        entry.valid = true := by
  unfold find
  by_cases inside : vpn < table.size.toNat
  · have within := inside.trans_le table.fits
    rw [dif_pos inside, List.getElem?_eq_getElem within]
    simp only [List.get_eq_getElem, Option.some.injEq]
    constructor
    · intro found
      split_ifs at found with valid
      cases found
      exact ⟨inside, rfl, valid⟩
    · rintro ⟨-, rfl, valid⟩
      rw [if_pos valid]
  · rw [dif_neg inside]
    constructor
    · intro found
      cases found
    · intro found
      exact absurd found.1 inside

theorem Tlb.find_eq_ok
    {tlb : Tlb} {vpn index : Nat} {entry : TranslationEntry}
    (found : tlb.find vpn = .ok (index, entry)) :
    tlb.entries[index]? = some entry ∧
      Translation.matchesPage vpn entry = true ∧
      ∀ earlier < index, ∀ other, tlb.entries[earlier]? = some other →
        Translation.matchesPage vpn other = false := by
  refine ⟨find_getElem found, ?_⟩
  unfold find at found
  split at found
  · next position searched =>
      cases found
      obtain ⟨matched, first⟩ := List.findFinIdx?_eq_some_iff.mp searched
      refine ⟨matched, fun earlier before other isOther => ?_⟩
      obtain ⟨inside, rfl⟩ := List.getElem?_eq_some_iff.mp isOther
      exact Bool.eq_false_iff.mpr (first ⟨earlier, inside⟩ before)
  · cases found

namespace Translation

theorem lookUp_finds
    {translation touched : Translation} {vpn : Nat} {writing : Bool}
    {entry : TranslationEntry}
    (found : translation.lookUp vpn writing = .ok (entry, touched)) :
    ∃ index, translation.Finds vpn index entry ∧
      touched = translation.setEntry index (entry.touch writing) := by
  obtain ⟨tlb, pageTable⟩ := translation
  cases tlb with
  | none =>
    cases pageTable with
    | none => cases found
    | some table =>
      obtain ⟨entry, search, found⟩ := exists_of_bind_eq_ok found
      cases found
      obtain ⟨inside, atPage, valid⟩ := PageTable.find_eq_ok.mp search
      exact ⟨vpn, ⟨⟨rfl, inside⟩, atPage, valid⟩, rfl⟩
  | some tlb =>
    obtain ⟨⟨index, entry⟩, search, found⟩ := exists_of_bind_eq_ok found
    cases found
    obtain ⟨atIndex, matched, first⟩ := Tlb.find_eq_ok search
    unfold matchesPage at matched
    rw [Bool.and_eq_true, beq_iff_eq] at matched
    exact ⟨index, ⟨⟨⟨entry, atIndex, matched.2⟩, first⟩, atIndex, matched.1⟩,
      rfl⟩

/-- An access through the entry at `index`: it is allowed, stays inside the frame
of that entry, and leaves the bits of that entry set. -/
structure Through (translation : Translation) (index : Nat)
    (entry : TranslationEntry) (virtAddr : Word) (size : Nat) (writing : Bool)
    (physAddr : Nat) (touched : Translation) : Prop where
  finds : translation.Finds (virtAddr.toNat / pageSize) index entry
  allowed : writing = true → entry.readOnly = false
  fromFrame : entry.physicalPage.toNat * pageSize ≤ physAddr
  withinFrame : physAddr + size ≤ (entry.physicalPage.toNat + 1) * pageSize
  offset : physAddr % pageSize = virtAddr.toNat % pageSize
  withinMemory : physAddr + size ≤ memorySize
  bits : touched = translation.setEntry index (entry.touch writing)

/-- A frame is found through one entry, which allows the access. -/
theorem frame_through
    {translation touched : Translation} {virtAddr : Word} {size : Nat}
    (isSize : size = 1 ∨ size = 2 ∨ size = 4)
    (aligned : misaligned virtAddr size = false) {writing : Bool}
    {pageFrame : Nat}
    (found : translation.frame (virtAddr.toNat / pageSize) writing =
      .ok (pageFrame, touched)) :
    ∃ index entry, translation.Through index entry virtAddr size writing
      (pageFrame * pageSize + virtAddr.toNat % pageSize) touched := by
  obtain ⟨⟨entry, tables⟩, search, found⟩ := exists_of_bind_eq_ok found
  obtain ⟨frame, check, found⟩ := exists_of_bind_eq_ok found
  cases found
  obtain ⟨index, finds, bits⟩ := lookUp_finds search
  have within := offset_add_size_le isSize aligned
  unfold TranslationEntry.frame at check
  split_ifs at check with refused tooBig
  cases check
  refine ⟨index, entry, finds, ?_, Nat.le_add_right _ _, ?_, ?_, ?_, bits⟩
  · intro isWriting
    cases readOnly : entry.readOnly with
    | false => rfl
    | true => exact absurd (by rw [readOnly, isWriting]; rfl) refused
  · rw [Nat.add_mul, Nat.one_mul]
    omega
  · unfold pageSize
    omega
  · unfold memorySize numPhysPages pageSize at *
    omega

/-- Every translation returns.  An access that it lets through goes through one
valid entry and stays inside its frame; an exception leaves the tables alone. -/
theorem translate_confined
    {translation : Translation} (ready : translation.Ready) (virtAddr : Word)
    {size : Nat} (isSize : size = 1 ∨ size = 2 ∨ size = 4) (writing : Bool) :
    ∃ result touched,
      translation.translate virtAddr size writing = .ok (result, touched) ∧
      (∀ physAddr, result = .ok physAddr →
        ∃ index entry, translation.Through index entry virtAddr size writing
          physAddr touched) ∧
      ∀ exception, result = .error exception → touched = translation := by
  rcases translate_cases ready isSize virtAddr writing with
    ⟨exception, refused⟩ | ⟨pageFrame, touched, aligned, search, translated⟩
  · exact ⟨_, _, refused, fun _ impossible => (by cases impossible),
      fun _ _ => rfl⟩
  · refine ⟨_, _, translated, ?_, fun _ impossible => (by cases impossible)⟩
    rintro _ ⟨⟩
    exact frame_through isSize aligned search

/-- A store to the last word of a page. -/
theorem translate_confined_last_word :
    ∃ index entry, Through ⟨none, some (.single ⟨0, 7, true, false, false, false⟩)⟩
      index entry 124 4 true 1020
        ⟨none, some (.single ⟨0, 7, true, false, true, true⟩)⟩ := by
  obtain ⟨result, touched, translated, confined, -⟩ :=
    @translate_confined
      ⟨none, some (.single ⟨0, 7, true, false, false, false⟩)⟩ rfl 124 4
      (Or.inr (Or.inr rfl)) true
  cases translated
  exact confined 1020 rfl

end Translation

/-! ## Copies of the page table -/

/-- Every valid entry of the TLB is the valid entry of the page table for its
virtual page. -/
def Tlb.Caches (tlb : Tlb) (table : PageTable) : Prop :=
  ∀ entry ∈ tlb.entries, entry.valid = true →
    entry.virtualPage.toNat < table.size.toNat ∧
      table.entries[entry.virtualPage.toNat]? = some entry

instance (tlb : Tlb) (table : PageTable) : Decidable (tlb.Caches table) :=
  inferInstanceAs (Decidable (∀ entry ∈ tlb.entries, _ → _))

def Tlb.Misses (tlb : Tlb) (vpn : Nat) : Prop :=
  ∀ entry ∈ tlb.entries, Translation.matchesPage vpn entry = false

/-- The bits that an access with this result sets: the same ones in the TLB and
in the page table. -/
def SameBits (tlb tlbAfter : Tlb) (table tableAfter : PageTable) (vpn : Nat)
    (writing : Bool) : Except ExceptionType Nat → Prop
  | .error _ => tlbAfter = tlb ∧ tableAfter = table
  | .ok _ => ∃ index entry, tlb.entries[index]? = some entry ∧
      table.entries[vpn]? = some entry ∧
      tlbAfter = tlb.set index (entry.touch writing) ∧
      tableAfter = table.set vpn (entry.touch writing)

theorem Tlb.find_cases (tlb : Tlb) (vpn : Nat) :
    (tlb.find vpn = .error .pageFaultException ∧ tlb.Misses vpn) ∨
      ∃ index entry, tlb.find vpn = .ok (index, entry) := by
  cases search : tlb.find vpn with
  | ok pair => exact Or.inr ⟨pair.1, pair.2, rfl⟩
  | error exception =>
    left
    unfold find at search
    split at search
    · cases search
    · next nothing =>
        cases search
        refine ⟨rfl, fun entry member => ?_⟩
        exact Bool.eq_false_iff.mpr
          (List.findFinIdx?_eq_none_iff.mp nothing entry member)

/-- What a TLB of copies finds is what the page table has. -/
theorem Tlb.Caches.find
    {tlb : Tlb} {table : PageTable} (caches : tlb.Caches table)
    {vpn : Nat} (small : vpn < 2 ^ 32) {index : Nat} {entry : TranslationEntry}
    (found : tlb.find vpn = .ok (index, entry)) :
    tlb.entries[index]? = some entry ∧ table.find vpn = .ok entry ∧
      table.entries[vpn]? = some entry := by
  obtain ⟨atIndex, matched, -⟩ := find_eq_ok found
  unfold Translation.matchesPage at matched
  rw [Bool.and_eq_true, beq_iff_eq] at matched
  obtain ⟨valid, samePage⟩ := matched
  obtain ⟨inside, atPage⟩ := caches entry (List.mem_of_getElem? atIndex) valid
  have isPage : entry.virtualPage.toNat = vpn := by
    rw [samePage, BitVec.toNat_ofNat]
    exact Nat.mod_eq_of_lt small
  rw [isPage] at inside atPage
  exact ⟨atIndex, PageTable.find_eq_ok.mpr ⟨inside, atPage, valid⟩, atPage⟩

namespace Translation

theorem frame_of_lookUp
    {translation touched : Translation} {vpn : Nat} {writing : Bool}
    {entry : TranslationEntry}
    (found : translation.lookUp vpn writing = .ok (entry, touched)) :
    translation.frame vpn writing =
      (entry.frame writing).map fun pageFrame => (pageFrame, touched) := by
  unfold frame
  rw [found]
  change (entry.frame writing >>= fun pageFrame => pure (pageFrame, touched)) = _
  cases entry.frame writing with
  | error exception => rfl
  | ok pageFrame => rfl

theorem translate_pageTable
    (table : PageTable) (virtAddr : Word) {size : Nat}
    (isSize : size = 1 ∨ size = 2 ∨ size = 4) (writing : Bool) :
    ∃ result after, translate ⟨none, some table⟩ virtAddr size writing =
      .ok (result, ⟨none, some after⟩) := by
  rcases @translate_cases ⟨none, some table⟩ rfl size isSize virtAddr writing
    with ⟨exception, refused⟩ | ⟨pageFrame, touched, aligned, search, translated⟩
  · exact ⟨_, table, refused⟩
  · obtain ⟨index, entry, through⟩ := frame_through isSize aligned search
    obtain rfl := through.bits
    exact ⟨_, table.set index (entry.touch writing), translated⟩

/-- A TLB of copies misses, or does what the page table does. -/
theorem tlb_agrees
    {tlb : Tlb} {table : PageTable} (caches : tlb.Caches table)
    (virtAddr : Word) {size : Nat} (isSize : size = 1 ∨ size = 2 ∨ size = 4)
    (writing : Bool) :
    ∃ cached tlbAfter direct tableAfter,
      translate ⟨some tlb, none⟩ virtAddr size writing =
        .ok (cached, ⟨some tlbAfter, none⟩) ∧
      translate ⟨none, some table⟩ virtAddr size writing =
        .ok (direct, ⟨none, some tableAfter⟩) ∧
      (misaligned virtAddr size = true →
        cached = .error .addressErrorException ∧
          direct = .error .addressErrorException) ∧
      (cached = .error .pageFaultException ∧ tlbAfter = tlb ∧
          tlb.Misses (virtAddr.toNat / pageSize) ∨
        cached = direct ∧
          SameBits tlb tlbAfter table tableAfter (virtAddr.toNat / pageSize)
            writing cached) := by
  have tlbReady : Ready ⟨some tlb, none⟩ := rfl
  have tableReady : Ready ⟨none, some table⟩ := rfl
  have vpnSmall : virtAddr.toNat / pageSize < 2 ^ 32 :=
    Nat.lt_of_le_of_lt (Nat.div_le_self _ _) virtAddr.isLt
  cases aligned : misaligned virtAddr size with
  | true =>
    exact ⟨_, _, _, _, translate_misaligned _ aligned writing,
      translate_misaligned _ aligned writing, fun _ => ⟨rfl, rfl⟩,
      Or.inr ⟨rfl, rfl, rfl⟩⟩
  | false =>
    rcases tlb.find_cases (virtAddr.toNat / pageSize) with
      ⟨miss, misses⟩ | ⟨index, entry, hit⟩
    · obtain ⟨direct, tableAfter, translated⟩ :=
        translate_pageTable table virtAddr isSize writing
      have faults : frame ⟨some tlb, none⟩ (virtAddr.toNat / pageSize)
          writing = .error .pageFaultException := by
        simp only [frame, lookUp, miss]
        rfl
      refine ⟨_, tlb, direct, tableAfter, ?_, translated,
        fun impossible => (by cases impossible), Or.inl ⟨rfl, rfl, misses⟩⟩
      rw [translate_of_ready tlbReady isSize aligned, faults]
    · obtain ⟨atIndex, found, atPage⟩ := caches.find vpnSmall hit
      have inTlb : lookUp ⟨some tlb, none⟩ (virtAddr.toNat / pageSize)
          writing = .ok (entry,
            ⟨some (tlb.set index (entry.touch writing)), none⟩) := by
        simp only [lookUp, hit]
        rfl
      have inTable : lookUp ⟨none, some table⟩ (virtAddr.toNat / pageSize)
          writing = .ok (entry, ⟨none,
            some (table.set (virtAddr.toNat / pageSize)
              (entry.touch writing))⟩) := by
        simp only [lookUp, found]
        rfl
      rw [translate_of_ready tlbReady isSize aligned,
        translate_of_ready tableReady isSize aligned, frame_of_lookUp inTlb,
        frame_of_lookUp inTable]
      cases entry.frame writing with
      | error exception =>
        exact ⟨_, _, _, _, rfl, rfl, fun impossible => (by cases impossible),
          Or.inr ⟨rfl, rfl, rfl⟩⟩
      | ok pageFrame =>
        exact ⟨_, _, _, _, rfl, rfl, fun impossible => (by cases impossible),
          Or.inr ⟨rfl, index, entry, atIndex, atPage, rfl, rfl⟩⟩

def oneCopy (entry : TranslationEntry) : Tlb :=
  ⟨[⟨9, 9, false, false, false, false⟩, entry, ⟨0, 5, false, true, true, true⟩,
    ⟨1, 1, false, false, false, false⟩], rfl⟩

/-- A byte is stored to the page through the copy. -/
theorem tlb_agrees_one_copy :
    ∃ cached tlbAfter,
      translate ⟨some (oneCopy ⟨0, 7, true, false, false, false⟩), none⟩ 5 1
        true = .ok (cached, ⟨some tlbAfter, none⟩) ∧
      cached = .ok 901 ∧
      SameBits (oneCopy ⟨0, 7, true, false, false, false⟩) tlbAfter
        (.single ⟨0, 7, true, false, false, false⟩)
        (.single ⟨0, 7, true, false, true, true⟩) 0 true cached := by
  have caches : (oneCopy ⟨0, 7, true, false, false, false⟩).Caches
      (.single ⟨0, 7, true, false, false, false⟩) := by
    decide
  obtain ⟨cached, tlbAfter, direct, tableAfter, throughTlb, throughTable, -,
    missed | ⟨same, bits⟩⟩ := tlb_agrees caches 5 (Or.inl rfl) true
  · cases throughTlb
    cases missed.1
  · cases throughTlb
    cases throughTable
    exact ⟨_, _, rfl, rfl, bits⟩

end Translation

end Nachos
