import Nachos.Foundation.Buckets
import Nachos.Lib.ListElements

/-!
# `HashTable`

`HashTable<Key, T>` and `HashIterator<Key, T>` of `lib/hash.cc`: an array of
lists that grows when there are too many items for it.  The keys, `getKey` and
`hash` are arbitrary.
-/

namespace Nachos

open Foundation

def initialBuckets : Nat := 4

def resizeRatio : Int := 3

def increaseSizeBy : Nat := 4

structure HashTable (Item : Type) where
  buckets : List (LinkedList Item)
  numBuckets : Nat
  numItems : Int

namespace HashTable

section Tables

variable {Item : Type}

def initBuckets (table : HashTable Item) (size : Nat) : HashTable Item :=
  { table with buckets := List.replicate size .new, numBuckets := size }

def new : HashTable Item :=
  initBuckets ⟨[], 0, 0⟩ initialBuckets

def bucket (table : HashTable Item) (index : Nat) :
    Except Fault (LinkedList Item) :=
  match table.buckets[index]? with
  | some list => .ok list
  | none => .error .outOfBounds

def forBuckets {State : Type} (table : HashTable Item)
    (body : Nat → LinkedList Item → State → Except Fault State) :
    Nat → Nat → State → Except Fault State
  | 0, _, state => .ok state
  | turns + 1, index, state => do
    let list ← table.bucket index
    let state ← body index list state
    table.forBuckets body turns (index + 1) state

def nextFullBucket (table : HashTable Item) : Nat → Nat → Except Fault Nat
  | 0, index => .ok index
  | turns + 1, index => do
    let list ← table.bucket index
    if !list.isEmpty then
      .ok index
    else
      table.nextFullBucket turns (index + 1)

def findNextFullBucket (table : HashTable Item) (index : Nat) :
    Except Fault Nat :=
  table.nextFullBucket (table.numBuckets - index) index

end Tables

variable {Key Item : Type} [DecidableEq Key] [DecidableEq Item]
variable (getKey : Item → Key) (hash : Key → Word)

def hashValue (table : HashTable Item) (key : Key) : Except Fault Nat :=
  if table.numBuckets = 0 then
    .error .divisionOverflow
  else do
    let result := (hash key).toNat % table.numBuckets
    assertThat (result < table.numBuckets) .hashValue
    return result

def findFrom (list : LinkedList Item) (key : Key) :
    Nat → ListIterator → Except Fault (Option Item)
  | turns, iterator =>
    if iterator.isDone then
      .ok none
    else
      match turns with
      | 0 => .error .endlessLoop
      | turns + 1 => do
        let item ← iterator.item list
        if key = getKey item then
          .ok (some item)
        else
          let iterator ← iterator.next list
          findFrom list key turns iterator

def findInBucket (table : HashTable Item) (index : Nat) (key : Key) :
    Except Fault (Option Item) := do
  let list ← table.bucket index
  findFrom getKey list key list.allocated (ListIterator.new list)

def find (table : HashTable Item) (key : Key) : Except Fault (Option Item) := do
  let index ← table.hashValue hash key
  table.findInBucket getKey index key

def isInTable (table : HashTable Item) (key : Key) : Except Fault Bool := do
  let found ← table.find getKey hash key
  return found.isSome

/-- `buckets[HashValue(getKey(item))]->Append(item)`. -/
def place (table : HashTable Item) (item : Item) :
    Except Fault (HashTable Item) := do
  let index ← table.hashValue hash (getKey item)
  let list ← table.bucket index
  let list ← list.append item
  return { table with buckets := table.buckets.set index list }

def checkFrom (table : HashTable Item) (index : Nat) (list : LinkedList Item) :
    Nat → ListIterator → Except Fault Unit
  | turns, iterator =>
    if iterator.isDone then
      .ok ()
    else
      match turns with
      | 0 => .error .endlessLoop
      | turns + 1 => do
        let item ← iterator.item list
        let value ← table.hashValue hash (getKey item)
        assertThat (index = value) .hashSanity
        let iterator ← iterator.next list
        table.checkFrom index list turns iterator

def checkBucket (table : HashTable Item) (index : Nat) (list : LinkedList Item)
    (numFound : Int) : Except Fault Int := do
  list.sanityCheck
  table.checkFrom getKey hash index list list.allocated (ListIterator.new list)
  return numFound + list.numInList

def sanityCheck (table : HashTable Item) : Except Fault Unit := do
  let numFound ←
    table.forBuckets (table.checkBucket getKey hash) table.numBuckets 0 0
  assertThat (table.numItems = numFound) .hashSanity

def moveItems : Nat → LinkedList Item → HashTable Item →
    Except Fault (HashTable Item)
  | turns, list, table =>
    if list.isEmpty then
      .ok table
    else
      match turns with
      | 0 => .error .endlessLoop
      | turns + 1 => do
        let (item, rest) ← list.removeFront
        let table ← table.place getKey hash item
        moveItems turns rest table

def reHash (table : HashTable Item) : Except Fault (HashTable Item) := do
  table.sanityCheck getKey hash
  let moved ← table.forBuckets
    (fun _ list => moveItems getKey hash list.numInList.toNat list)
    table.numBuckets 0 (table.initBuckets (table.numBuckets * increaseSizeBy))
  moved.sanityCheck getKey hash
  return moved

def grow (table : HashTable Item) : Except Fault (HashTable Item) :=
  if resizeRatio ≤ table.numItems.tdiv table.numBuckets then
    table.reHash getKey hash
  else
    .ok table

def insert (table : HashTable Item) (item : Item) :
    Except Fault (HashTable Item) := do
  let key := getKey item
  let isIn ← table.isInTable getKey hash key
  assertThat (!isIn) .hashInsert
  let table ← table.grow getKey hash
  let table ← table.place getKey hash item
  let table := { table with numItems := table.numItems + 1 }
  let isIn ← table.isInTable getKey hash key
  assertThat isIn .hashInserted
  return table

def remove (table : HashTable Item) (key : Key) :
    Except Fault (Item × HashTable Item) := do
  let index ← table.hashValue hash key
  match ← table.findInBucket getKey index key with
  | none => .error (.assertion .hashRemove)
  | some item => do
    let list ← table.bucket index
    let list ← list.remove item
    let table :=
      { table with
        buckets := table.buckets.set index list
        numItems := table.numItems - 1 }
    let isIn ← table.isInTable getKey hash key
    assertThat (!isIn) .hashRemoved
    return (item, table)

end HashTable

structure HashIterator where
  bucket : Nat
  bucketIter : Option ListIterator

namespace HashIterator

variable {Item : Type}

def enter (table : HashTable Item) (bucket : Nat) : Except Fault HashIterator :=
  if bucket < table.numBuckets then do
    let list ← table.bucket bucket
    return ⟨bucket, some (ListIterator.new list)⟩
  else
    .ok ⟨bucket, none⟩

def new (table : HashTable Item) : Except Fault HashIterator := do
  let bucket ← table.findNextFullBucket 0
  enter table bucket

def isDone (table : HashTable Item) (iterator : HashIterator) : Bool :=
  iterator.bucket = table.numBuckets

def item (table : HashTable Item) (iterator : HashIterator) :
    Except Fault Item := do
  assertThat (!iterator.isDone table) .hashIterator
  match iterator.bucketIter with
  | none => .error .badObject
  | some bucketIter => do
    let list ← table.bucket iterator.bucket
    bucketIter.item list

def next (table : HashTable Item) (iterator : HashIterator) :
    Except Fault HashIterator :=
  match iterator.bucketIter with
  | none => .error .badObject
  | some bucketIter => do
    let list ← table.bucket iterator.bucket
    let bucketIter ← bucketIter.next list
    if bucketIter.isDone then
      let bucket ← table.findNextFullBucket (iterator.bucket + 1)
      enter table bucket
    else
      return ⟨iterator.bucket, some bucketIter⟩

def walk (table : HashTable Item) :
    Nat → HashIterator → Except Fault (List Item × HashIterator)
  | 0, iterator => .ok ([], iterator)
  | turns + 1, iterator => do
    let item ← iterator.item table
    let iterator ← iterator.next table
    let (items, last) ← walk table turns iterator
    return (item :: items, last)

end HashIterator

end Nachos
