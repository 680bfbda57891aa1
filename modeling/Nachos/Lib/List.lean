import Mathlib.Data.List.Sort
import Nachos.Lib.Utility

/-!
# `List` and `SortedList`

`List<T>` of `lib/list.cc`: a queue that holds no item twice, and
`SortedList<T>`, which keeps its items in order.  The chain of `ListElement`s
is the Lean list of its items.
-/

namespace Nachos

variable {Item : Type} [DecidableEq Item]

def listAppend (list : List Item) (item : Item) :
    Except Fault (List Item) :=
  if item ∈ list then
    .error (.assertion .listAppend)
  else
    .ok (list ++ [item])

omit [DecidableEq Item] in
def listRemoveFront : List Item → Except Fault (Item × List Item)
  | [] => .error (.assertion .listRemoveFront)
  | item :: rest => .ok (item, rest)

/-- `SortedList::Insert`: the item goes before the first one that `compare`
finds bigger, and to the end of the list if there is none. -/
def sortedListInsert
    (compare : Item → Item → Int) (list : List Item) (item : Item) :
    Except Fault (List Item) :=
  if item ∈ list then
    .error (.assertion .sortedListInsert)
  else
    .ok (list.orderedInsert (fun new old => compare new old < 0) item)

theorem listAppend_eq
    {list : List Item} {item : Item} (absent : item ∉ list) :
    listAppend list item = .ok (list ++ [item]) :=
  if_neg absent

theorem sortedListInsert_eq
    {list : List Item} {item : Item} (absent : item ∉ list)
    (compare : Item → Item → Int) :
    sortedListInsert compare list item =
      .ok (list.orderedInsert (fun new old => compare new old < 0) item) :=
  if_neg absent

end Nachos
