import Nachos.Lib.Utility
import Mathlib.Data.Finset.Card
import Mathlib.Data.Finset.Range

/-!
# Bitmaps

The `Bitmap` class of `lib/bitmap.cc`: one bit for each item, packed in 32-bit
words.  `marked` is the set of indices the words stand for, and every operation
has one lemma that says what it does to that set.
-/

namespace Nachos

open Foundation

structure Bitmap where
  numBits : Nat
  map : List Word
  numWords_eq : map.length = (numBits + 31) / 32

namespace Bitmap

def bitMask (which : Nat) : Word :=
  1#32 <<< (which % 32)

def modifyWord
    (bitmap : Bitmap) (which : Nat) (change : Word → Word) : Bitmap where
  numBits := bitmap.numBits
  map := bitmap.map.modify (which / 32) change
  numWords_eq := by
    rw [List.length_modify]
    exact bitmap.numWords_eq

def inRange (bitmap : Bitmap) (which : Int) : Bool :=
  decide (0 ≤ which ∧ which < bitmap.numBits)

def test (bitmap : Bitmap) (which : Int) : Except Fault Bool := do
  assertThat (bitmap.inRange which) .bitmapIndex
  return (bitmap.map.getD (which.toNat / 32) 0 &&& bitMask which.toNat) != 0

def mark (bitmap : Bitmap) (which : Int) : Except Fault Bitmap := do
  assertThat (bitmap.inRange which) .bitmapIndex
  let updated := bitmap.modifyWord which.toNat (· ||| bitMask which.toNat)
  assertThat (← updated.test which) .bitmapUpdated
  return updated

def clear (bitmap : Bitmap) (which : Int) : Except Fault Bitmap := do
  assertThat (bitmap.inRange which) .bitmapIndex
  let updated := bitmap.modifyWord which.toNat (· &&& ~~~ bitMask which.toNat)
  assertThat (!(← updated.test which)) .bitmapUpdated
  return updated

def findAndSetFrom (bitmap : Bitmap) :
    Nat → Nat → Except Fault (Int × Bitmap)
  | 0, _ => .ok (-1, bitmap)
  | remaining + 1, i => do
    if !(← bitmap.test i) then
      let bitmap ← bitmap.mark i
      return ((i : Int), bitmap)
    else
      findAndSetFrom bitmap remaining (i + 1)

def findAndSet (bitmap : Bitmap) : Except Fault (Int × Bitmap) :=
  bitmap.findAndSetFrom bitmap.numBits 0

def numClearFrom (bitmap : Bitmap) : Nat → Nat → Int → Except Fault Int
  | 0, _, count => .ok count
  | remaining + 1, i, count => do
    if !(← bitmap.test i) then
      numClearFrom bitmap remaining (i + 1) (count + 1)
    else
      numClearFrom bitmap remaining (i + 1) count

def numClear (bitmap : Bitmap) : Except Fault Int :=
  bitmap.numClearFrom bitmap.numBits 0 0

def clearFrom (bitmap : Bitmap) : Nat → Nat → Except Fault Bitmap
  | 0, _ => .ok bitmap
  | remaining + 1, i => do
    let bitmap ← bitmap.clear i
    clearFrom bitmap remaining (i + 1)

def create (numItems : Nat) : Except Fault Bitmap := do
  assertThat (decide (0 < numItems)) .bitmapItems
  let zeroed : Bitmap :=
    ⟨numItems, List.replicate ((numItems + 31) / 32) 0,
      List.length_replicate⟩
  zeroed.clearFrom numItems 0

/-! ## The set of marked bits -/

def marked (bitmap : Bitmap) (which : Nat) : Bool :=
  (bitmap.map.getD (which / 32) 0).getLsbD (which % 32)

theorem eq_of_marked
    {bitmap other : Bitmap} (sameSize : bitmap.numBits = other.numBits)
    (sameBits : ∀ which, bitmap.marked which = other.marked which) :
    bitmap = other := by
  have sameMap : bitmap.map = other.map := by
    have sameLength : bitmap.map.length = other.map.length := by
      rw [bitmap.numWords_eq, other.numWords_eq, sameSize]
    apply List.ext_getElem sameLength
    intro index inside inside'
    apply BitVec.eq_of_getLsbD_eq
    intro bit small
    have same := sameBits (32 * index + bit)
    unfold marked at same
    rw [Nat.mul_add_div (by decide), Nat.div_eq_of_lt small, Nat.add_zero,
      Nat.mul_add_mod, Nat.mod_eq_of_lt small, List.getD_eq_getElem?_getD,
      List.getD_eq_getElem?_getD, List.getElem?_eq_getElem inside,
      List.getElem?_eq_getElem inside'] at same
    exact same
  cases bitmap
  cases other
  cases sameSize
  cases sameMap
  rfl

theorem getLsbD_bitMask (which bit : Nat) :
    (bitMask which).getLsbD bit = decide (bit = which % 32) := by
  have small : which % 32 < 32 := Nat.mod_lt _ (by decide)
  unfold bitMask
  rw [BitVec.getLsbD_shiftLeft, BitVec.getLsbD_one]
  by_cases same : bit = which % 32
  · simp [same, small]
  · have different : ¬ (which % 32 ≤ bit ∧ bit - which % 32 = 0) := by
      omega
    by_cases below : bit < which % 32
    · simp [below, same]
    · have positive : bit - which % 32 ≠ 0 := by omega
      simp [below, same, positive]

theorem and_bitMask_ne_zero (word : Word) (which : Nat) :
    ((word &&& bitMask which) != 0) = word.getLsbD (which % 32) := by
  have small : which % 32 < 32 := Nat.mod_lt _ (by decide)
  cases bit : word.getLsbD (which % 32) with
  | true =>
    rw [bne_iff_ne]
    intro isZero
    have masked :
        (word &&& bitMask which).getLsbD (which % 32) = true := by
      rw [BitVec.getLsbD_and, bit, getLsbD_bitMask]
      simp
    rw [isZero] at masked
    simp at masked
  | false =>
    rw [bne_eq_false_iff_eq]
    apply BitVec.eq_of_getLsbD_eq
    intro index inside
    rw [BitVec.getLsbD_and, getLsbD_bitMask]
    by_cases same : index = which % 32
    · simp [same, bit]
    · simp [same]

theorem test_eq_ok
    (bitmap : Bitmap) {which : Nat} (inside : which < bitmap.numBits) :
    bitmap.test which = .ok (bitmap.marked which) := by
  have ranged : bitmap.inRange which = true := by
    simp [inRange, inside]
  unfold test
  rw [ranged]
  change Except.ok ((bitmap.map.getD (which / 32) 0 &&& bitMask which) != 0) = _
  rw [and_bitMask_ne_zero]
  rfl

theorem marked_modifyWord
    (bitmap : Bitmap) {which : Nat} (inside : which < bitmap.numBits)
    (change : Word → Word) (other : Nat) :
    (bitmap.modifyWord which change).marked other =
      if other / 32 = which / 32 then
        (change (bitmap.map.getD (which / 32) 0)).getLsbD (other % 32)
      else
        bitmap.marked other := by
  have wordInside : which / 32 < bitmap.map.length := by
    rw [bitmap.numWords_eq]
    omega
  unfold marked modifyWord
  simp only [List.getD_eq_getElem?_getD, List.getElem?_modify]
  by_cases same : other / 32 = which / 32
  · rw [if_pos same, same, List.getElem?_eq_getElem wordInside]
    simp
  · simp [same, Ne.symm same]

theorem mark_spec
    (bitmap : Bitmap) {which : Nat} (inside : which < bitmap.numBits) :
    ∃ updated,
      bitmap.mark which = .ok updated ∧
        updated.numBits = bitmap.numBits ∧
        ∀ other, updated.marked other =
          (decide (other = which) || bitmap.marked other) := by
  let updated := bitmap.modifyWord which (· ||| bitMask which)
  have bits : ∀ other, updated.marked other =
      (decide (other = which) || bitmap.marked other) := by
    intro other
    have small : other % 32 < 32 := Nat.mod_lt _ (by decide)
    rw [marked_modifyWord bitmap inside]
    by_cases same : other / 32 = which / 32
    · rw [if_pos same, BitVec.getLsbD_or, getLsbD_bitMask]
      have indexIff : (other % 32 = which % 32) ↔ other = which := by
        omega
      simp only [indexIff, marked, same]
      exact Bool.or_comm _ _
    · have different : other ≠ which := by
        intro equal
        exact same (by rw [equal])
      simp [same, different]
  have ranged : bitmap.inRange which = true := by
    simp [inRange, inside]
  have tested : updated.test which = .ok true := by
    rw [test_eq_ok updated inside, bits]
    simp
  refine ⟨updated, ?_, rfl, bits⟩
  unfold mark
  rw [ranged, assertThat_true, ok_bind, Int.toNat_natCast]
  change (do
    assertThat (← updated.test which) .bitmapUpdated
    return updated) = Except.ok updated
  rw [tested]
  rfl

theorem clear_spec
    (bitmap : Bitmap) {which : Nat} (inside : which < bitmap.numBits) :
    ∃ updated,
      bitmap.clear which = .ok updated ∧
        updated.numBits = bitmap.numBits ∧
        ∀ other, updated.marked other =
          (!decide (other = which) && bitmap.marked other) := by
  let updated := bitmap.modifyWord which (· &&& ~~~ bitMask which)
  have bits : ∀ other, updated.marked other =
      (!decide (other = which) && bitmap.marked other) := by
    intro other
    have small : other % 32 < 32 := Nat.mod_lt _ (by decide)
    rw [marked_modifyWord bitmap inside]
    by_cases same : other / 32 = which / 32
    · rw [if_pos same, BitVec.getLsbD_and, BitVec.getLsbD_not,
        getLsbD_bitMask]
      have indexIff : (other % 32 = which % 32) ↔ other = which := by
        omega
      simp only [indexIff, marked, same, small, decide_true, Bool.true_and]
      exact Bool.and_comm _ _
    · have different : other ≠ which := by
        intro equal
        exact same (by rw [equal])
      simp [same, different]
  have ranged : bitmap.inRange which = true := by
    simp [inRange, inside]
  have tested : updated.test which = .ok false := by
    rw [test_eq_ok updated inside, bits]
    simp
  refine ⟨updated, ?_, rfl, bits⟩
  unfold clear
  rw [ranged, assertThat_true, ok_bind, Int.toNat_natCast]
  change (do
    assertThat (!(← updated.test which)) .bitmapUpdated
    return updated) = Except.ok updated
  rw [tested]
  rfl

/-! ## Loops over the bits -/

private theorem findAndSetFrom_cases
    (bitmap : Bitmap) :
    ∀ remaining i,
      i + remaining = bitmap.numBits →
      (∃ which, i ≤ which ∧ which < bitmap.numBits ∧
          bitmap.marked which = false ∧
          (∀ earlier, i ≤ earlier → earlier < which →
            bitmap.marked earlier = true) ∧
          bitmap.findAndSetFrom remaining i =
            (bitmap.mark which).map (fun updated => ((which : Int), updated))) ∨
        ((∀ which, i ≤ which → which < bitmap.numBits →
            bitmap.marked which = true) ∧
          bitmap.findAndSetFrom remaining i = .ok (-1, bitmap))
  | 0, i, total => by
    right
    refine ⟨?_, rfl⟩
    intro which lower upper
    omega
  | remaining + 1, i, total => by
    have inside : i < bitmap.numBits := by omega
    unfold findAndSetFrom
    rw [test_eq_ok bitmap inside]
    cases bit : bitmap.marked i with
    | false =>
      left
      refine ⟨i, le_refl i, inside, bit, ?_, ?_⟩
      · intro earlier lower upper
        omega
      · cases bitmap.mark i <;> rfl
    | true =>
      have shifted := findAndSetFrom_cases bitmap remaining (i + 1) (by omega)
      rcases shifted with
        ⟨which, lower, upper, clearBit, earlierMarked, result⟩ |
          ⟨allMarked, result⟩
      · left
        refine ⟨which, by omega, upper, clearBit, ?_, result⟩
        intro earlier earlierLower earlierUpper
        rcases Nat.eq_or_lt_of_le earlierLower with equal | later
        · exact equal ▸ bit
        · exact earlierMarked earlier later earlierUpper
      · right
        refine ⟨?_, result⟩
        intro which lower upper
        rcases Nat.eq_or_lt_of_le lower with equal | later
        · exact equal ▸ bit
        · exact allMarked which later upper

/-- `FindAndSet` returns and marks the least clear index, or `-1` without a
change when every bit is marked. -/
theorem findAndSet_cases (bitmap : Bitmap) :
    (∃ which updated,
        which < bitmap.numBits ∧
        bitmap.marked which = false ∧
        (∀ earlier < which, bitmap.marked earlier = true) ∧
        bitmap.findAndSet = .ok ((which : Int), updated) ∧
        updated.numBits = bitmap.numBits ∧
        ∀ other, updated.marked other =
          (decide (other = which) || bitmap.marked other)) ∨
      ((∀ which < bitmap.numBits, bitmap.marked which = true) ∧
        bitmap.findAndSet = .ok (-1, bitmap)) := by
  rcases findAndSetFrom_cases bitmap bitmap.numBits 0 (by omega) with
    ⟨which, _, upper, clearBit, earlierMarked, result⟩ |
      ⟨allMarked, result⟩
  · left
    obtain ⟨updated, markResult, sameSize, bits⟩ := mark_spec bitmap upper
    refine ⟨which, updated, upper, clearBit, ?_, ?_, sameSize, bits⟩
    · intro earlier smaller
      exact earlierMarked earlier (Nat.zero_le _) smaller
    · unfold findAndSet
      rw [result, markResult]
      rfl
  · right
    refine ⟨?_, result⟩
    intro which upper
    exact allMarked which (Nat.zero_le _) upper

def clearBits (bitmap : Bitmap) : Finset Nat :=
  (Finset.range bitmap.numBits).filter
    (fun which => bitmap.marked which = false)

theorem mem_clearBits {bitmap : Bitmap} {which : Nat} :
    which ∈ bitmap.clearBits ↔
      which < bitmap.numBits ∧ bitmap.marked which = false := by
  simp [clearBits]

private theorem numClearFrom_eq
    (bitmap : Bitmap) :
    ∀ remaining i (count : Int),
      i + remaining = bitmap.numBits →
      bitmap.numClearFrom remaining i count =
        .ok (count +
          ((bitmap.clearBits.filter (fun which => i ≤ which)).card : Int))
  | 0, i, count, total => by
    have nothing :
        bitmap.clearBits.filter (fun which => i ≤ which) = ∅ := by
      rw [Finset.filter_eq_empty_iff]
      intro which member
      have upper := (mem_clearBits.mp member).1
      omega
    rw [nothing]
    simp [numClearFrom]
  | remaining + 1, i, count, total => by
    have inside : i < bitmap.numBits := by omega
    unfold numClearFrom
    rw [test_eq_ok bitmap inside]
    cases bit : bitmap.marked i with
    | false =>
      have split :
          bitmap.clearBits.filter (fun which => i ≤ which) =
            insert i
              (bitmap.clearBits.filter (fun which => i + 1 ≤ which)) := by
        ext which
        simp only [Finset.mem_filter, Finset.mem_insert, mem_clearBits]
        constructor
        · rintro ⟨clearBit, lower⟩
          rcases Nat.eq_or_lt_of_le lower with equal | later
          · exact Or.inl equal.symm
          · exact Or.inr ⟨clearBit, later⟩
        · rintro (rfl | ⟨clearBit, lower⟩)
          · exact ⟨⟨inside, bit⟩, le_refl _⟩
          · exact ⟨clearBit, by omega⟩
      have fresh :
          i ∉ bitmap.clearBits.filter (fun which => i + 1 ≤ which) := by
        simp
      rw [split, Finset.card_insert_of_notMem fresh]
      change bitmap.numClearFrom remaining (i + 1) (count + 1) = _
      rw [numClearFrom_eq bitmap remaining (i + 1) (count + 1) (by omega)]
      congr 1
      omega
    | true =>
      have same :
          bitmap.clearBits.filter (fun which => i ≤ which) =
            bitmap.clearBits.filter (fun which => i + 1 ≤ which) := by
        apply Finset.filter_congr
        intro which member
        constructor
        · intro lower
          rcases Nat.eq_or_lt_of_le lower with equal | later
          · have clearBit := (mem_clearBits.mp member).2
            rw [← equal, bit] at clearBit
            cases clearBit
          · exact later
        · intro lower
          omega
      rw [same]
      exact numClearFrom_eq bitmap remaining (i + 1) count (by omega)

theorem numClear_eq (bitmap : Bitmap) :
    bitmap.numClear = .ok (bitmap.clearBits.card : Int) := by
  unfold numClear
  rw [numClearFrom_eq bitmap bitmap.numBits 0 0 (by omega)]
  simp

theorem clearBits_of_marked
    {bitmap updated : Bitmap} {which : Nat}
    (sameSize : updated.numBits = bitmap.numBits)
    (bits : ∀ other, updated.marked other =
      (decide (other = which) || bitmap.marked other)) :
    updated.clearBits = bitmap.clearBits.erase which := by
  ext other
  simp only [Finset.mem_erase, mem_clearBits, sameSize, bits]
  by_cases same : other = which
  · simp [same]
  · simp [same]

theorem card_clearBits_le
    {bitmap updated : Bitmap} {taken : List Nat}
    (sameSize : updated.numBits = bitmap.numBits)
    (bits : ∀ other, updated.marked other =
      (decide (other ∈ taken) || bitmap.marked other)) :
    bitmap.clearBits.card ≤ updated.clearBits.card + taken.length := by
  have remaining : updated.clearBits = bitmap.clearBits \ taken.toFinset := by
    ext other
    simp only [Finset.mem_sdiff, List.mem_toFinset, mem_clearBits, sameSize,
      bits]
    by_cases member : other ∈ taken
    · simp [member]
    · simp [member]
  have counted := Finset.le_card_sdiff taken.toFinset bitmap.clearBits
  have short := List.toFinset_card_le taken
  rw [remaining]
  omega

private theorem clearFrom_spec :
    ∀ remaining i (bitmap : Bitmap),
      i + remaining = bitmap.numBits →
      (∀ which, bitmap.marked which = false) →
      ∃ updated,
        bitmap.clearFrom remaining i = .ok updated ∧
          updated.numBits = bitmap.numBits ∧
          ∀ which, updated.marked which = false
  | 0, _, bitmap, _, allClear =>
    ⟨bitmap, rfl, rfl, allClear⟩
  | remaining + 1, i, bitmap, total, allClear => by
    obtain ⟨cleared, clearResult, sameSize, bits⟩ :=
      clear_spec bitmap (show i < bitmap.numBits by omega)
    obtain ⟨updated, restResult, restSize, restClear⟩ :=
      clearFrom_spec remaining (i + 1) cleared (by omega) (by
        intro which
        rw [bits, allClear]
        simp)
    refine ⟨updated, ?_, restSize.trans sameSize, restClear⟩
    unfold clearFrom
    rw [clearResult]
    exact restResult

theorem create_spec {numItems : Nat} (positive : 0 < numItems) :
    ∃ bitmap,
      create numItems = .ok bitmap ∧
        bitmap.numBits = numItems ∧
        ∀ which, bitmap.marked which = false := by
  let zeroed : Bitmap :=
    ⟨numItems, List.replicate ((numItems + 31) / 32) 0,
      List.length_replicate⟩
  have allClear : ∀ which, zeroed.marked which = false := by
    intro which
    unfold marked
    simp only [zeroed, List.getD_eq_getElem?_getD, List.getElem?_replicate]
    split_ifs <;> simp
  obtain ⟨bitmap, result, sameSize, clearResult⟩ :=
    clearFrom_spec numItems 0 zeroed (Nat.zero_add _) allClear
  refine ⟨bitmap, ?_, sameSize, clearResult⟩
  unfold create
  simp only [positive, decide_true, assertThat_true]
  exact result

end Bitmap

end Nachos
