import Hollywood.Foundation.Deque

/-! The growing ring buffer of `ringbuffer/ringbuffer.go`. Every operation runs
under the mutex and is one atomic function here. `none` stands for a Go panic:
an index outside `items`, or a remainder by zero. The length of the slice bounds every
counter; where an item takes up memory it fits an `int64`, so these fields are natural
numbers. (Items of size zero, of which a slice may have any number, are left out.) -/
namespace Hollywood

structure Buffer (α : Type) where
  items : Array α
  head : Nat
  tail : Nat
  mod : Nat
  deriving DecidableEq, Repr

structure RingBuffer (α : Type) where
  len : Nat
  content : Buffer α
  deriving DecidableEq, Repr

namespace RingBuffer
variable {α : Type} [Inhabited α]

omit [Inhabited α] in
/-- Go's `%` on a non-negative dividend panics when the divisor is zero. -/
def rem (a b : Nat) : Option Nat := if b = 0 then none else some (a % b)

omit [Inhabited α] in
/-- Assignment to a slice element panics outside the slice. -/
def write (items : Array α) (i : Nat) (item : α) : Option (Array α) :=
  if bound : i < items.size then some (items.set i item bound) else none

/-- `make([]T, size)` fills the slice with the zero value of `T`. -/
def make (size : Nat) : Array α := Array.replicate size default

def new (size : Nat) : RingBuffer α where
  len := 0
  content := { items := make size, head := 0, tail := 0, mod := size }

/-- The copying loops of both growth paths: `n` consecutive slots of `items`
from `start`, wrapping at `mod`, go to `into` from `offset`. -/
def copy (items : Array α) (start mod n offset : Nat) (into : Array α) : Option (Array α) :=
  (List.range n).foldlM (fun newBuff i => do
    let idx ← rem (start + i) mod
    let item ← items[idx]?
    write newBuff (offset + i) item) into

def push (rb : RingBuffer α) (item : α) : Option (RingBuffer α) := do
  let c := rb.content
  let tail ← rem (c.tail + 1) c.mod
  let content ←
    if tail = c.head then do
      let newBuff ← copy c.items tail c.mod c.mod 0 (make (c.mod * 2))
      pure { items := newBuff, head := 0, tail := c.mod, mod := c.mod * 2 : Buffer α }
    else pure { c with tail := tail }
  let items ← write content.items content.tail item
  pure { len := rb.len + 1, content := { content with items := items } }

def pop (rb : RingBuffer α) : Option ((α × Bool) × RingBuffer α) :=
  if rb.len = 0 then some ((default, false), rb)
  else do
    let c := rb.content
    let head ← rem (c.head + 1) c.mod
    let item ← c.items[head]?
    let items ← write c.items head default
    pure ((item, true), { len := rb.len - 1, content := { c with items := items, head := head } })

/-- The condition `len >= mod - 1` is an `int64` comparison, so it also holds of
an empty buffer of size one. -/
def pushFront (rb : RingBuffer α) (item : α) : Option (RingBuffer α) := do
  let c := rb.content
  let content ←
    if rb.len + 1 ≥ c.mod then do
      let newBuff ← copy c.items (c.head + 1) c.mod rb.len 1 (make (c.mod * 2))
      pure { items := newBuff, head := 0, tail := rb.len, mod := c.mod * 2 : Buffer α }
    else pure c
  let items ← write content.items content.head item
  let head ← rem (content.head + content.mod - 1) content.mod
  pure { len := rb.len + 1, content := { content with items := items, head := head } }

/-- One pass of the loop of `PopN`: read a slot, then store the zero value. -/
def popSlot (c : Buffer α) (taken : List α × Array α) (i : Nat) : Option (List α × Array α) := do
  let pos ← rem (c.head + 1 + i) c.mod
  let item ← taken.2[pos]?
  let items ← write taken.2 pos default
  pure (taken.1 ++ [item], items)

def popN (rb : RingBuffer α) (n : Nat) : Option ((List α × Bool) × RingBuffer α) :=
  if rb.len = 0 then some (([], false), rb)
  else do
    let c := rb.content
    let n := if n ≥ rb.len then rb.len else n
    let (items, slots) ← (List.range n).foldlM (popSlot c) ([], c.items)
    let head ← rem (c.head + n) c.mod
    pure ((items, true), { len := rb.len - n, content := { c with items := slots, head := head } })

omit [Inhabited α] in
def clear (rb : RingBuffer α) : RingBuffer α where
  len := 0
  content := { rb.content with head := 0, tail := 0 }

/-- An operation of the queue interface, with what the Go method returns. -/
def perform (rb : RingBuffer α) : Deque.Op α → Option (Deque.Result α × RingBuffer α)
  | .push item => do pure (.done, ← rb.push item)
  | .pushFront item => do pure (.done, ← rb.pushFront item)
  | .pop => do
    let ((item, ok), after) ← rb.pop
    pure (.item item ok, after)
  | .popN n => do
    let ((items, ok), after) ← rb.popN n
    pure (.items items ok, after)
  | .clear => some (.done, rb.clear)
  | .len => some (.length rb.len, rb)

def execute : RingBuffer α → List (Deque.Op α) → Option (List (Deque.Result α) × RingBuffer α)
  | rb, [] => some ([], rb)
  | rb, op :: rest => do
    let (result, after) ← rb.perform op
    let (results, last) ← execute after rest
    pure (result :: results, last)

end RingBuffer
end Hollywood
