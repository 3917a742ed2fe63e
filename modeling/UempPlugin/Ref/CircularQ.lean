import UempPlugin.Lib.Ring
import Mathlib.Algebra.Group.Nat.Defs

/-!
# `spdlog::details::circular_q` and `mpmc_blocking_queue`

The ring buffer in which messages wait for the threads that write them, member
by member. One slot more than asked for is allocated, and it stays empty: it
tells a full queue from an empty one. Asking for the largest `size_t` makes
the number of slots wrap to zero, which is the disabled queue that drops
whatever it is given.

The blocking queue puts a mutex around it. A thread that finds no room, or no
item, waits for the other side; here the operation is `none` for as long as it
would wait.
-/

namespace UempPlugin.Ref

open UempPlugin.Lib

structure CircularQ (α : Type) where
  maxItems : Nat
  head : Nat := 0
  tail : Nat := 0
  overrunCounter : Nat := 0
  v : List α

namespace CircularQ

variable {α : Type} [Inhabited α]

/-- `circular_q(size_t max_items)`: one item is reserved as marker for full q. -/
def construct (maxItems : Nat) : CircularQ α where
  maxItems := (maxItems + 1) % 2 ^ 64
  v := List.replicate ((maxItems + 1) % 2 ^ 64) default

/-- `push_back`: overruns the oldest item if no room is left. -/
def pushBack (item : α) (q : CircularQ α) : CircularQ α :=
  if q.maxItems > 0 then
    let q := { q with v := q.v.set q.tail item, tail := (q.tail + 1) % q.maxItems }
    if q.tail = q.head then
      { q with
        head := (q.head + 1) % q.maxItems
        overrunCounter := (q.overrunCounter + 1) % 2 ^ 64 }
    else q
  else q

def front (q : CircularQ α) : α := q.v.getD q.head default

def size (q : CircularQ α) : Nat :=
  if q.tail ≥ q.head then q.tail - q.head else q.maxItems - (q.head - q.tail)

/-- `at`. -/
def item (q : CircularQ α) (i : Nat) : α := q.v.getD ((q.head + i) % q.maxItems) default

def popFront (q : CircularQ α) : CircularQ α := { q with head := (q.head + 1) % q.maxItems }

def empty (q : CircularQ α) : Bool := q.tail = q.head

def full (q : CircularQ α) : Bool :=
  if q.maxItems > 0 then (q.tail + 1) % q.maxItems = q.head else false

/-- The items, oldest first. -/
def items (q : CircularQ α) : List α := (List.range q.size).map q.item

/-! ## `mpmc_blocking_queue` -/

/-- `enqueue`. -/
def enqueue (item : α) (q : CircularQ α) : Option (CircularQ α) :=
  if q.full then none else some (q.pushBack item)

/-- `dequeue`. -/
def dequeue (q : CircularQ α) : Option (α × CircularQ α) :=
  if q.empty then none else some (q.front, q.popFront)

/-! ## Runs -/

inductive Op (α : Type) where
  | pushBack (item : α)
  | popFront

/-- One call. Popping an empty queue is undefined, and every caller looks
first. -/
def step (q : CircularQ α) : Op α → CircularQ α
  | .pushBack item => q.pushBack item
  | .popFront => if q.empty then q else q.popFront

def run (q : CircularQ α) (ops : List (Op α)) : CircularQ α := ops.foldl step q

end CircularQ

end UempPlugin.Ref
