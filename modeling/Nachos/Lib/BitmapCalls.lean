import Nachos.Foundation.Refinement
import Nachos.Lib.Bitmap

/-!
# `Bitmap` as a finite set
-/

namespace Nachos

open Foundation

namespace Bitmap

inductive Call where
  | mark (which : Int)
  | clear (which : Int)
  | test (which : Int)
  | findAndSet
  | numClear
  deriving DecidableEq, Repr

inductive Answer where
  | nothing
  | bool (result : Bool)
  | int (result : Int)
  deriving DecidableEq, Repr

def leastClear (numBits : Nat) (set : Finset Nat) : Option Nat :=
  (List.range numBits).find? fun which => decide (which ∉ set)

/-- What a `Bitmap` is for: a set of indices below `numBits`. -/
def specification (numBits : Nat) :
    Specification (Finset Nat) Call Answer where
  Permits _
    | .mark which => 0 ≤ which ∧ which < numBits
    | .clear which => 0 ≤ which ∧ which < numBits
    | .test which => 0 ≤ which ∧ which < numBits
    | .findAndSet => True
    | .numClear => True
  answer set
    | .mark which => (.nothing, insert which.toNat set)
    | .clear which => (.nothing, set.erase which.toNat)
    | .test which => (.bool (which.toNat ∈ set), set)
    | .findAndSet =>
      match leastClear numBits set with
      | some which => (.int which, insert which set)
      | none => (.int (-1), set)
    | .numClear => (.int (numBits - set.card), set)

instance (numBits : Nat) (set : Finset Nat) (call : Call) :
    Decidable ((specification numBits).Permits set call) :=
  match call with
  | .mark which => inferInstanceAs (Decidable (0 ≤ which ∧ which < numBits))
  | .clear which => inferInstanceAs (Decidable (0 ≤ which ∧ which < numBits))
  | .test which => inferInstanceAs (Decidable (0 ≤ which ∧ which < numBits))
  | .findAndSet => inferInstanceAs (Decidable True)
  | .numClear => inferInstanceAs (Decidable True)

def perform (bitmap : Bitmap) : Call → Except Fault (Answer × Bitmap)
  | .mark which => do return (.nothing, ← bitmap.mark which)
  | .clear which => do return (.nothing, ← bitmap.clear which)
  | .test which => do return (.bool (← bitmap.test which), bitmap)
  | .findAndSet => do
    let (which, bitmap) ← bitmap.findAndSet
    return (.int which, bitmap)
  | .numClear => do return (.int (← bitmap.numClear), bitmap)

structure Represents (numBits : Nat) (bitmap : Bitmap) (set : Finset Nat) :
    Prop where
  numBits_eq : bitmap.numBits = numBits
  marked_eq : ∀ which, bitmap.marked which = decide (which ∈ set)
  subset : set ⊆ Finset.range numBits

/-- `FindAndSet` adds the least index that is not in the set, or returns -1 and
leaves the map as it is if there is none. -/
def FindsLeast (numBits : Nat) (bitmap : Bitmap) (set : Finset Nat) : Prop :=
  (∃ which updated,
      which < numBits ∧ which ∉ set ∧ (∀ earlier < which, earlier ∈ set) ∧
        bitmap.findAndSet = .ok ((which : Int), updated) ∧
        Represents numBits updated (insert which set)) ∨
    (set = Finset.range numBits ∧ bitmap.findAndSet = .ok (-1, bitmap))

def FindsApart (numBits : Nat) (bitmap : Bitmap) (set : Finset Nat)
    (count : Nat) : Prop :=
  ∃ (taken : List Nat) (last : Bitmap),
    performAll perform bitmap (List.replicate count .findAndSet) =
        .ok (taken.map (fun which : Nat => .int which), last) ∧
      taken.length = count ∧ taken.Nodup ∧
      ∀ which ∈ taken, which < numBits ∧ which ∉ set

variable {numBits : Nat} {bitmap updated : Bitmap} {set : Finset Nat}

theorem Represents.of_mark
    (represents : Represents numBits bitmap set) {which : Nat}
    (inside : which < bitmap.numBits)
    (sameSize : updated.numBits = bitmap.numBits)
    (bits : ∀ other, updated.marked other =
      (decide (other = which) || bitmap.marked other)) :
    Represents numBits updated (insert which set) := by
  refine ⟨sameSize.trans represents.numBits_eq, ?_, ?_⟩
  · intro other
    rw [bits, represents.marked_eq, ← Bool.decide_or]
    exact decide_eq_decide.mpr Finset.mem_insert.symm
  · rw [represents.numBits_eq] at inside
    exact Finset.insert_subset (Finset.mem_range.mpr inside) represents.subset

theorem Represents.of_clear
    (represents : Represents numBits bitmap set) {which : Nat}
    (sameSize : updated.numBits = bitmap.numBits)
    (bits : ∀ other, updated.marked other =
      (!decide (other = which) && bitmap.marked other)) :
    Represents numBits updated (set.erase which) := by
  refine ⟨sameSize.trans represents.numBits_eq, ?_, ?_⟩
  · intro other
    rw [bits, represents.marked_eq, ← decide_not, ← Bool.decide_and]
    exact decide_eq_decide.mpr Finset.mem_erase.symm
  · exact (Finset.erase_subset which set).trans represents.subset

theorem Represents.clearBits_eq (represents : Represents numBits bitmap set) :
    bitmap.clearBits = Finset.range numBits \ set := by
  ext which
  rw [mem_clearBits, Finset.mem_sdiff, Finset.mem_range, represents.numBits_eq,
    represents.marked_eq, decide_eq_false_iff_not]

theorem Represents.numClear_eq (represents : Represents numBits bitmap set) :
    bitmap.numClear = .ok (numBits - set.card : Int) := by
  have bounded := Finset.card_le_card represents.subset
  rw [Finset.card_range] at bounded
  rw [Bitmap.numClear_eq, represents.clearBits_eq,
    Finset.card_sdiff_of_subset represents.subset, Finset.card_range,
    Int.ofNat_sub bounded]

theorem leastClear_eq_some
    {which : Nat} (inside : which < numBits) (isClear : which ∉ set)
    (earlierMarked : ∀ earlier < which, earlier ∈ set) :
    leastClear numBits set = some which := by
  unfold leastClear
  rw [List.find?_range_eq_some]
  refine ⟨decide_eq_true isClear, List.mem_range.mpr inside, ?_⟩
  intro earlier smaller
  simp [earlierMarked earlier smaller]

theorem leastClear_eq_none (full : ∀ which < numBits, which ∈ set) :
    leastClear numBits set = none := by
  unfold leastClear
  rw [List.find?_eq_none]
  intro which member
  simp [full which (List.mem_range.mp member)]

theorem Represents.findsLeast (represents : Represents numBits bitmap set) :
    FindsLeast numBits bitmap set := by
  rcases Bitmap.findAndSet_cases bitmap with
    ⟨which, updated, inside, isClear, earlierMarked, found, sameSize, bits⟩ |
      ⟨allMarked, full⟩
  · left
    rw [represents.marked_eq, decide_eq_false_iff_not] at isClear
    refine ⟨which, updated, represents.numBits_eq ▸ inside, isClear, ?_, found,
      represents.of_mark inside sameSize bits⟩
    intro earlier smaller
    have marked := earlierMarked earlier smaller
    rwa [represents.marked_eq, decide_eq_true_eq] at marked
  · right
    refine ⟨represents.subset.antisymm ?_, full⟩
    intro which member
    have marked := allMarked which
      (represents.numBits_eq ▸ Finset.mem_range.mp member)
    rwa [represents.marked_eq, decide_eq_true_eq] at marked

theorem Represents.exists_index
    (represents : Represents numBits bitmap set) {which : Int}
    (ranged : 0 ≤ which ∧ which < numBits) :
    ∃ index : Nat, which = index ∧ index < bitmap.numBits := by
  obtain ⟨index, rfl⟩ := Int.eq_ofNat_of_zero_le ranged.1
  refine ⟨index, rfl, ?_⟩
  rw [represents.numBits_eq]
  exact Int.ofNat_lt.mp ranged.2

/-- Every call on a `Bitmap` does what it does to the set. -/
theorem perform_implements :
    Implements perform (specification numBits) (Represents numBits) := by
  intro bitmap set call represents permitted
  cases call with
  | mark which =>
    obtain ⟨index, rfl, inside⟩ := represents.exists_index permitted
    obtain ⟨updated, marked, size, bits⟩ := mark_spec bitmap inside
    refine ⟨updated, ?_, represents.of_mark inside size bits⟩
    rw [perform, marked]
    rfl
  | clear which =>
    obtain ⟨index, rfl, inside⟩ := represents.exists_index permitted
    obtain ⟨updated, cleared, size, bits⟩ := clear_spec bitmap inside
    refine ⟨updated, ?_, represents.of_clear size bits⟩
    rw [perform, cleared]
    rfl
  | test which =>
    obtain ⟨index, rfl, inside⟩ := represents.exists_index permitted
    refine ⟨bitmap, ?_, represents⟩
    rw [perform, test_eq_ok bitmap inside, represents.marked_eq]
    rfl
  | findAndSet =>
    rcases represents.findsLeast with
      ⟨which, updated, inside, isClear, earlier, found, represented⟩ |
        ⟨full, found⟩
    · have least := leastClear_eq_some inside isClear earlier
      refine ⟨updated, ?_, ?_⟩
      · simp only [perform, found, specification, least]
        rfl
      · simp only [specification, least]
        exact represented
    · have least : leastClear numBits set = none := by
        rw [full]
        exact leastClear_eq_none fun _ => Finset.mem_range.mpr
      refine ⟨bitmap, ?_, ?_⟩
      · simp only [perform, found, specification, least]
        rfl
      · simp only [specification, least]
        exact represents
  | numClear =>
    refine ⟨bitmap, ?_, represents⟩
    rw [perform, represents.numClear_eq]
    rfl

theorem Represents.findsApart
    {count : Nat} (represents : Represents numBits bitmap set)
    (enough : count + set.card ≤ numBits) :
    FindsApart numBits bitmap set count := by
  induction count generalizing bitmap set with
  | zero =>
    exact ⟨[], bitmap, rfl, rfl, List.nodup_nil, by simp⟩
  | succ count ih =>
    rcases represents.findsLeast with
      ⟨which, updated, inside, isClear, _, found, represented⟩ | ⟨full, _⟩
    · have enoughLeft : count + (insert which set).card ≤ numBits := by
        rw [Finset.card_insert_of_notMem isClear]
        omega
      obtain ⟨taken, last, performed, isLength, nodup, wereClear⟩ :=
        ih represented enoughLeft
      refine ⟨which :: taken, last, ?_, by rw [List.length_cons, isLength],
        List.nodup_cons.mpr ⟨?_, nodup⟩, ?_⟩
      · rw [List.replicate_succ, performAll]
        simp only [perform, found]
        change (performAll perform updated _ >>= _) = _
        rw [performed]
        rfl
      · intro member
        exact (wereClear which member).2 (Finset.mem_insert_self _ _)
      · rw [List.forall_mem_cons]
        refine ⟨⟨inside, isClear⟩, ?_⟩
        intro other member
        obtain ⟨below, outside⟩ := wereClear other member
        exact ⟨below, fun inSet => outside (Finset.mem_insert_of_mem inSet)⟩
    · rw [full, Finset.card_range] at enough
      omega

/-- Every sequence of calls with indices in range returns, without a failed
`ASSERT`, what the set of marked indices answers, and the map words are that
set.  `FindAndSet` then takes the least index that is not marked, if there is
one, `NumClear` counts these indices, and that many calls of `FindAndSet`
return different ones of them. -/
theorem calls_represent
    {numBits : Nat} (positive : 0 < numBits) (calls : List Call)
    (permitted : (specification numBits).PermitsAll ∅ calls) :
    ∃ empty bitmap answers set,
      create numBits = .ok empty ∧
        (specification numBits).answerAll ∅ calls = (answers, set) ∧
        performAll perform empty calls = .ok (answers, bitmap) ∧
        Represents numBits bitmap set ∧
        FindsLeast numBits bitmap set ∧
        bitmap.numClear = .ok (numBits - set.card : Int) ∧
        ∀ count : Nat, (count : Int) ≤ numBits - set.card →
          FindsApart numBits bitmap set count := by
  obtain ⟨empty, created, size, allClear⟩ := create_spec positive
  have initially : Represents numBits empty ∅ :=
    ⟨size, fun which => by simp [allClear], Finset.empty_subset _⟩
  obtain ⟨bitmap, answered, represents⟩ :=
    perform_implements.performAll_eq initially permitted
  refine ⟨empty, bitmap, _, _, created, rfl, answered, represents,
    represents.findsLeast, represents.numClear_eq, ?_⟩
  intro count enough
  exact represents.findsApart (by omega)

/-- A map of 33 bits, with a second word of one bit. -/
theorem calls_represent_two_words :
    ∃ empty bitmap answers set,
      create 33 = .ok empty ∧
        (specification 33).answerAll ∅
            [.mark 32, .findAndSet, .mark 31, .test 31, .clear 32] =
          (answers, set) ∧
        performAll perform empty
            [.mark 32, .findAndSet, .mark 31, .test 31, .clear 32] =
          .ok (answers, bitmap) ∧
        Represents 33 bitmap set ∧
        FindsLeast 33 bitmap set ∧
        bitmap.numClear = .ok ((33 : Nat) - set.card : Int) ∧
        ∀ count : Nat, (count : Int) ≤ (33 : Nat) - set.card →
          FindsApart 33 bitmap set count :=
  calls_represent (by decide) _ (by decide)

end Bitmap

end Nachos
