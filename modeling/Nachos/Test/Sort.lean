import Nachos.Foundation.Settled
import Nachos.Foundation.Words
import Nachos.Lib.Utility

/-!
# The sort program

`BubbleSort` of `test/sort.c`.  A pass carries a greatest element along, and the
next one ends at the place of the last exchange.  That place can be where the
pass itself has ended, but not twice in a row.
-/

namespace Nachos.Sort

open Foundation

def goodOrder (curr next asc : Word) : Bool :=
  if asc = 1 then curr.sle next else next.sle curr

def elementAt (a : List Word) (index : Int) : Except Fault Word :=
  if 0 ≤ index then
    match a[index.toNat]? with
    | some element => .ok element
    | none => .error .outOfBounds
  else
    .error .outOfBounds

def setElement (a : List Word) (index : Int) (element : Word) :
    Except Fault (List Word) :=
  if 0 ≤ index ∧ index < a.length then
    .ok (a.set index.toNat element)
  else
    .error .outOfBounds

structure Pass where
  a : List Word
  isSwapped : Bool
  lastSwapPos : Int

def passStep (asc : Word) (j : Int) (pass : Pass) : Except Fault Pass := do
  if goodOrder (← elementAt pass.a j) (← elementAt pass.a (j + 1)) asc then
    return pass
  else
    let temp ← elementAt pass.a j
    let a ← setElement pass.a j (← elementAt pass.a (j + 1))
    let a ← setElement a (j + 1) temp
    return ⟨a, true, j + 1⟩

def passLoop (asc : Word) : Nat → Int → Pass → Except Fault Pass
  | 0, _, pass => .ok pass
  | count + 1, j, pass => do
    let pass ← passStep asc j pass
    passLoop asc count (j + 1) pass

def sortLoop (asc : Word) (left : Int) :
    Nat → Int → List Word → Except Fault (List Word)
  | 0, _, _ => .error .endlessLoop
  | turns + 1, right, a =>
    if left ≤ right then do
      let pass ← passLoop asc (right - left).toNat left ⟨a, false, left + 1⟩
      if pass.isSwapped then
        sortLoop asc left turns pass.lastSwapPos pass.a
      else
        return pass.a
    else
      return a

def bubbleSort (turns : Nat) (a : List Word) (n : Int) (asc : Word) :
    Except Fault (List Word) :=
  sortLoop asc 0 turns (n - 1) a

def InOrder (asc first second : Word) : Prop :=
  if asc = 1 then first.toInt ≤ second.toInt else second.toInt ≤ first.toInt

theorem goodOrder_iff (asc first second : Word) :
    goodOrder first second asc = true ↔ InOrder asc first second := by
  unfold goodOrder InOrder
  split_ifs
  · exact BitVec.sle_iff_toInt_le
  · exact BitVec.sle_iff_toInt_le

theorem inOrder_trans {asc first second third : Word}
    (earlier : InOrder asc first second) (later : InOrder asc second third) :
    InOrder asc first third := by
  unfold InOrder at *
  split_ifs at * <;> omega

theorem inOrder_of_not {asc first second : Word}
    (outOfOrder : ¬ InOrder asc first second) : InOrder asc second first := by
  unfold InOrder at *
  split_ifs at * <;> omega

theorem elementAt_natCast
    {a : List Word} {index : Nat} {element : Word}
    (isElement : a[index]? = some element) :
    elementAt a index = .ok element := by
  unfold elementAt
  rw [if_pos (Int.natCast_nonneg index), Int.toNat_natCast, isElement]

theorem setElement_natCast
    {a : List Word} {index : Nat} (within : index < a.length) (element : Word) :
    setElement a index element = .ok (a.set index element) := by
  unfold setElement
  rw [if_pos ⟨Int.natCast_nonneg index, by omega⟩, Int.toNat_natCast]

theorem passStep_eq
    (asc : Word) {pass : Pass} {j : Nat} {first second : Word}
    (isFirst : pass.a[j]? = some first)
    (isSecond : pass.a[j + 1]? = some second) :
    passStep asc j pass =
      .ok (if goodOrder first second asc then pass
        else ⟨swapNext pass.a j first second, true, ↑(j + 1)⟩) := by
  obtain ⟨within, -⟩ := List.getElem?_eq_some_iff.mp isFirst
  obtain ⟨nextWithin, -⟩ := List.getElem?_eq_some_iff.mp isSecond
  have atNext : ((j : Int) + 1) = ↑(j + 1) := rfl
  unfold passStep
  simp only [atNext, elementAt_natCast isFirst, elementAt_natCast isSecond,
    ok_bind]
  split_ifs with good
  · rfl
  · rw [setElement_natCast within, ok_bind,
      setElement_natCast (by rwa [List.length_set])]
    rfl

/-- How far a pass has come, over an array whose elements from `low` on are in
their final places: up to `j`, those from the last exchange on are. -/
structure Passing (asc : Word) (a : List Word) (low j : Nat) (pass : Pass)
    (position : Nat) : Prop where
  perm : pass.a.Perm a
  final : Settled (InOrder asc) pass.a low (a.length - 1)
  isPosition : pass.lastSwapPos = position
  positive : 1 ≤ position
  passed : position ≤ max 1 j
  settled : Settled (InOrder asc) pass.a position j
  unswapped : pass.isSwapped = false → position = 1
  swapped : pass.isSwapped = true → position < low

variable {asc : Word} {a : List Word} {low j : Nat} {pass : Pass}
variable {position : Nat}

/-- One comparison of a pass, which carries the greatest element along. -/
theorem Passing.step
    (passing : Passing asc a low j pass position) (inside : j + 1 < a.length) :
    ∃ next position, passStep asc j pass = .ok next ∧
      Passing asc a low (j + 1) next position := by
  have sameLength := passing.perm.length_eq
  obtain ⟨first, isFirst⟩ : ∃ first, pass.a[j]? = some first :=
    ⟨_, List.getElem?_eq_getElem (by omega)⟩
  obtain ⟨second, isSecond⟩ : ∃ second, pass.a[j + 1]? = some second :=
    ⟨_, List.getElem?_eq_getElem (by omega)⟩
  have reached : position ≤ j ∨ j = 0 := by
    have passed := passing.passed
    omega
  rw [passStep_eq asc isFirst isSecond]
  split_ifs with good <;> rw [goodOrder_iff] at good
  · refine ⟨pass, position, rfl, passing.perm, passing.final,
      passing.isPosition, passing.positive, ?_, ?_, passing.unswapped,
      passing.swapped⟩
    · have passed := passing.passed
      omega
    · exact passing.settled.grow inOrder_trans reached isFirst isSecond good
  · -- The elements in their final places are in order, so the exchange is before.
    have below : j + 1 < low := by
      by_contra final
      exact good (passing.final (Nat.lt_succ_self j) (by omega) (by omega)
        isFirst isSecond)
    refine ⟨_, j + 1, rfl, ?_, ?_, rfl, by omega, by omega, ?_, ?_, ?_⟩
    · exact (perm_swapNext isFirst isSecond).trans passing.perm
    · exact passing.final.swapNext below isFirst isSecond
    · exact passing.settled.carry reached isFirst isSecond
        (inOrder_of_not good)
    · intro impossible
      cases impossible
    · intro _
      exact below

theorem Passing.run
    (count : Nat) (passing : Passing asc a low j pass position)
    (inside : j + count < a.length) :
    ∃ next position, passLoop asc count j pass = .ok next ∧
      Passing asc a low (j + count) next position := by
  induction count generalizing j pass position with
  | zero => exact ⟨pass, position, rfl, passing⟩
  | succ count ih =>
    obtain ⟨middle, place, stepped, middlePassing⟩ := passing.step (by omega)
    obtain ⟨next, place, looped, nextPassing⟩ := ih middlePassing (by omega)
    refine ⟨next, place, ?_, ?_⟩
    · unfold passLoop
      rw [stepped, ok_bind]
      exact looped
    · rw [← Nat.add_right_comm, Nat.add_assoc] at nextPassing
      exact nextPassing

theorem passing_start
    (settled : Settled (InOrder asc) a low (a.length - 1)) :
    Passing asc a low 0 ⟨a, false, 0 + 1⟩ 1 where
  perm := .refl a
  final := settled
  isPosition := rfl
  positive := Nat.le_refl 1
  passed := Nat.le_refl 1
  settled := .of_lt Nat.zero_lt_one
  unswapped _ := rfl
  swapped impossible := by cases impossible

theorem sortLoop_sorts
    (turns : Nat) {right : Nat} (enough : low < turns)
    (inside : right < a.length) (atMost : right ≤ low)
    (gapless : low ≤ right + 1)
    (settled : Settled (InOrder asc) a low (a.length - 1)) :
    ∃ sorted, sortLoop asc 0 turns right a = .ok sorted ∧ sorted.Perm a ∧
      sorted.Pairwise (InOrder asc) := by
  induction turns generalizing a low right with
  | zero => omega
  | succ turns ih =>
    obtain ⟨pass, position, looped, passing⟩ :=
      (passing_start settled).run right (by omega)
    rw [Nat.zero_add] at passing
    have sameLength := passing.perm.length_eq
    have behind : Settled (InOrder asc) pass.a position (pass.a.length - 1) := by
      rw [sameLength]
      exact passing.settled.join gapless passing.final
    unfold sortLoop
    rw [if_pos (Int.natCast_nonneg right), Int.sub_zero, Int.toNat_natCast]
    have wholePass : passLoop asc right 0 ⟨a, false, 0 + 1⟩ = .ok pass := looped
    rw [wholePass, ok_bind]
    cases swapped : pass.isSwapped with
    | false =>
      rw [passing.unswapped swapped] at behind
      exact ⟨pass.a, rfl, passing.perm, behind.pairwise⟩
    | true =>
      have fewer := passing.swapped swapped
      obtain ⟨sorted, finished, perm, inOrder⟩ :=
        @ih pass.a position position (by omega) (by omega)
          (Nat.le_refl _) (Nat.le_succ _) behind
      refine ⟨sorted, ?_, perm.trans passing.perm, inOrder⟩
      rw [if_pos rfl, passing.isPosition]
      exact finished

/-- `BubbleSort` ends and sorts, for every array and every flag. -/
theorem bubbleSort_sorts
    (a : List Word) (asc : Word) {turns : Nat} (enough : a.length < turns) :
    ∃ sorted, bubbleSort turns a a.length asc = .ok sorted ∧
      sorted.Perm a ∧ sorted.Pairwise (InOrder asc) := by
  unfold bubbleSort
  rcases Nat.eq_zero_or_pos a.length with empty | nonempty
  · obtain rfl := List.eq_nil_of_length_eq_zero empty
    obtain ⟨more, rfl⟩ := Nat.exists_eq_succ_of_ne_zero (Nat.ne_of_gt enough)
    exact ⟨[], rfl, .refl _, .nil⟩
  · have atEnd : (a.length : Int) - 1 = ↑(a.length - 1) := by omega
    rw [atEnd]
    exact sortLoop_sorts turns enough (by omega) (by omega) (by omega)
      (.of_lt (by omega))

/-- Three elements in descending order. -/
theorem bubbleSort_three :
    ∃ sorted, bubbleSort 4 [2, 0xffffffff, 5] 3 2 = .ok sorted ∧
      sorted.Perm [2, 0xffffffff, 5] ∧ sorted.Pairwise (InOrder 2) :=
  bubbleSort_sorts [2, 0xffffffff, 5] 2 (by decide)

end Nachos.Sort
