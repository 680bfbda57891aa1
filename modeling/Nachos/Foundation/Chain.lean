import Mathlib.Data.List.Nodup
import Mathlib.Logic.Function.Basic

/-!
# Linked elements in a store

Elements at addresses, each with the address of the next one.  A path lists the
addresses and items that are met by following `next`.
-/

namespace Foundation

structure Node (Address Item : Type) where
  item : Item
  next : Option Address

abbrev Store (Address Item : Type) := Address → Option (Node Address Item)

variable {Address Item : Type}

/-- Following `next` from `start` leads through `path` to `stop`. -/
def Linked (store : Store Address Item) :
    Option Address → List (Address × Item) → Option Address → Prop
  | start, [], stop => start = stop
  | start, (address, item) :: rest, stop =>
    start = some address ∧
      ∃ next, store address = some ⟨item, next⟩ ∧ Linked store next rest stop

namespace Linked

variable {store changed : Store Address Item}
variable {start middle stop : Option Address} {path : List (Address × Item)}

theorem nil_iff : Linked store start [] stop ↔ start = stop :=
  Iff.rfl

theorem cons_iff {address : Address} {item : Item} :
    Linked store start ((address, item) :: path) stop ↔
      start = some address ∧
        ∃ next, store address = some ⟨item, next⟩ ∧
          Linked store next path stop :=
  Iff.rfl

theorem append_iff {front : List (Address × Item)} :
    Linked store start (front ++ path) stop ↔
      ∃ middle, Linked store start front middle ∧
        Linked store middle path stop := by
  induction front generalizing start with
  | nil =>
    simp only [List.nil_append, nil_iff, exists_eq_left']
  | cons entry front ih =>
    obtain ⟨address, item⟩ := entry
    simp only [List.cons_append, cons_iff, ih]
    constructor
    · rintro ⟨isStart, next, stored, middle, linked, rest⟩
      exact ⟨middle, ⟨isStart, next, stored, linked⟩, rest⟩
    · rintro ⟨middle, ⟨isStart, next, stored, linked⟩, rest⟩
      exact ⟨isStart, next, stored, middle, linked, rest⟩

theorem congr
    (linked : Linked store start path stop)
    (same : ∀ address ∈ path.map Prod.fst, changed address = store address) :
    Linked changed start path stop := by
  induction path generalizing start with
  | nil =>
    exact linked
  | cons entry path ih =>
    obtain ⟨isStart, next, stored, linked⟩ := linked
    refine ⟨isStart, next, ?_, ih linked ?_⟩
    · rw [same _ (List.mem_map_of_mem List.mem_cons_self), stored]
    · intro address member
      exact same address (List.mem_cons_of_mem _ member)

variable [DecidableEq Address]

theorem update_of_notMem
    (linked : Linked store start path stop) {address : Address}
    (outside : address ∉ path.map Prod.fst)
    (node : Option (Node Address Item)) :
    Linked (Function.update store address node) start path stop := by
  apply linked.congr
  intro other member
  apply Function.update_of_ne
  rintro rfl
  exact outside member

theorem redirect
    {front : List (Address × Item)} {address : Address} {item : Item}
    (linked : Linked store start (front ++ [(address, item)]) stop)
    (outside : address ∉ front.map Prod.fst) (target : Option Address) :
    Linked (Function.update store address (some ⟨item, target⟩)) start
      (front ++ [(address, item)]) target := by
  obtain ⟨middle, linked, isMiddle, _, _, _⟩ := append_iff.mp linked
  refine append_iff.mpr
    ⟨middle, linked.update_of_notMem outside _, isMiddle, target, ?_, rfl⟩
  exact Function.update_self _ _ _

theorem insertAfter
    {front rest : List (Address × Item)} {address fresh : Address} {item : Item}
    (linked : Linked store start (front ++ (address, item) :: rest) stop)
    (apart : ((front ++ (address, item) :: rest).map Prod.fst).Nodup)
    (outside : fresh ∉ (front ++ (address, item) :: rest).map Prod.fst)
    (new : Item) :
    ∃ next, store address = some ⟨item, next⟩ ∧
      Linked store next rest stop ∧
      Linked
        (Function.update (Function.update store fresh (some ⟨new, next⟩))
          address (some ⟨item, some fresh⟩))
        start (front ++ (address, item) :: (fresh, new) :: rest) stop := by
  simp only [List.map_append, List.map_cons, List.mem_append, List.mem_cons,
    not_or] at outside
  obtain ⟨outsideFront, different, outsideRest⟩ := outside
  simp only [List.map_append, List.map_cons, List.nodup_append,
    List.nodup_cons, List.mem_cons] at apart
  obtain ⟨_, ⟨apartRest, _⟩, apartFront⟩ := apart
  obtain ⟨middle, linkedFront, isMiddle, next, stored, linkedRest⟩ :=
    append_iff.mp linked
  refine ⟨next, stored, linkedRest, append_iff.mpr ⟨middle, ?_, isMiddle,
    some fresh, Function.update_self _ _ _, rfl, next, ?_, ?_⟩⟩
  · refine (linkedFront.update_of_notMem outsideFront _).update_of_notMem ?_ _
    intro member
    exact apartFront address member address (Or.inl rfl) rfl
  · rw [Function.update_of_ne different, Function.update_self]
  · exact (linkedRest.update_of_notMem outsideRest _).update_of_notMem apartRest _

end Linked

end Foundation
