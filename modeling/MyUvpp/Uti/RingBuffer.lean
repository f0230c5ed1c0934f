import Mathlib.Algebra.Order.Ring.Int
import Mathlib.Logic.Function.Basic

/-! # The ring buffer of libuv_cpp (`ring_buffer.hpp`)

`uti::ringbuffer` over an array of `N` slots, with its privileged iterators `_tail` and `_head` and the
iterator arithmetic that moves them. A pointer is a position relative to `&_buffer[0]`, so that the array
is `0 .. N - 1` and a position outside it can be told. The slots that the operations construct, destroy or
copy from are recorded next to the memory. The constructors and the destructor of the element type do not
throw. -/

namespace MyUvpp

/-- The objects that live at the positions of the backing memory, and the positions at which one was
constructed, destroyed or referred to so far. -/
@[ext] structure Backing (T : Type*) where
  slots : ℤ → Option T
  touched : List ℤ

namespace Backing

variable {T : Type*}

/-- `_buffer{}`: no object lives in the array. -/
def empty : Backing T := ⟨fun _ => none, []⟩

/-- `new (addr) value_type{v}`: the slot holds the value, and the address has been touched. -/
def construct (b : Backing T) (addr : ℤ) (v : T) : Backing T :=
  ⟨Function.update b.slots addr (some v), addr :: b.touched⟩

/-- `destruct(addr)`: the slot holds no object, and the address has been touched. -/
def destruct (b : Backing T) (addr : ℤ) : Backing T :=
  ⟨Function.update b.slots addr none, addr :: b.touched⟩

/-- `*it` for an iterator at a position. -/
def touch (b : Backing T) (addr : ℤ) : Backing T := { b with touched := addr :: b.touched }

/-- `new (addr) value_type{*it}` with what lives in another slot. -/
def constructFrom (b : Backing T) (addr : ℤ) (object : Option T) : Backing T :=
  ⟨Function.update b.slots addr object, addr :: b.touched⟩

/-- `swap(*ti, *oi)` for iterators into two buffers. -/
def swapSlots (b other : Backing T) (ti oi : ℤ) : Backing T × Backing T :=
  (b.constructFrom ti (other.slots oi), other.constructFrom oi (b.slots ti))

/-- A construction touches its own address. -/
@[simp] theorem touched_construct (b : Backing T) (addr : ℤ) (v : T) :
    (b.construct addr v).touched = addr :: b.touched := rfl

/-- A destruction touches its own address. -/
@[simp] theorem touched_destruct (b : Backing T) (addr : ℤ) :
    (b.destruct addr).touched = addr :: b.touched := rfl

/-- The value constructed at an address is the one found there. -/
@[simp] theorem slots_construct_self (b : Backing T) (addr : ℤ) (v : T) :
    (b.construct addr v).slots addr = some v := by
  simp [construct]

/-- A construction leaves the other addresses. -/
theorem slots_construct_of_ne (b : Backing T) {addr p : ℤ} (v : T) (h : p ≠ addr) :
    (b.construct addr v).slots p = b.slots p := by
  simp [construct, h]

/-- A destruction leaves the other addresses. -/
theorem slots_destruct_of_ne (b : Backing T) {addr p : ℤ} (h : p ≠ addr) :
    (b.destruct addr).slots p = b.slots p := by
  simp [destruct, h]

end Backing

/-- `iterator_impl`: a position, the logical region and the real one. -/
@[ext] structure IteratorImpl where
  iter : ℤ
  lfirst : ℤ
  llast : ℤ
  rfirst : ℤ
  rlast : ℤ
  deriving DecidableEq, Repr

namespace IteratorImpl

/-- `logical_region_is_contiguous`: the logical region does not wrap around the end of the array. -/
def logicalRegionIsContiguous (it : IteratorImpl) : Bool := it.lfirst ≤ it.llast

/-- `operator+=`, whose three branches are a contiguous region, the part of a wrapped one before the end of
the array, and the part behind its beginning. -/
def addAssign (it : IteratorImpl) (n : ℤ) : IteratorImpl :=
  if it.logicalRegionIsContiguous then { it with iter := it.iter + n }
  else if it.lfirst ≤ it.iter then
    if it.iter + n ≤ it.rlast then { it with iter := it.iter + n }
    else { it with iter := it.rfirst + (n - 1 - (it.rlast - it.iter)) }
  else
    if it.iter + n ≥ it.rfirst then { it with iter := it.iter + n }
    else { it with iter := it.rlast - (-n - 1 - (it.iter - it.rfirst)) }

/-- `operator-=`, which is `operator+=` with the negated step. -/
def subAssign (it : IteratorImpl) (n : ℤ) : IteratorImpl := it.addAssign (-n)

/-- `operator+` on a copy of the iterator. -/
def add (it : IteratorImpl) (n : ℤ) : IteratorImpl := it.addAssign n

/-- `operator-` on a copy of the iterator. -/
def sub (it : IteratorImpl) (n : ℤ) : IteratorImpl := it.subAssign n

/-- `addressof`, the address at which the iterator stands. -/
def addressof (it : IteratorImpl) : ℤ := it.iter

/-- The slot that `operator[]` refers to, which is never checked against the array. -/
def index (it : IteratorImpl) (n : ℤ) : ℤ := (it.add n).iter

/-- `operator-` of two iterators of a buffer with `buffSize` slots. -/
def diff (buffSize : ℕ) (it rhs : IteratorImpl) : ℤ :=
  if it.lfirst < it.llast then it.iter - rhs.iter
  else if it.lfirst ≤ it.iter ∧ it.lfirst ≤ rhs.iter then it.iter - rhs.iter
  else if it.iter ≤ it.llast ∧ rhs.iter ≤ it.llast then it.iter - rhs.iter
  else if it.lfirst ≤ it.iter ∧ rhs.iter ≤ it.llast then it.iter - rhs.iter - buffSize
  else buffSize - (rhs.iter - it.iter)

/-- `operator==`, which compares the addresses only. -/
def eq (it rhs : IteratorImpl) : Bool := it.iter = rhs.iter

/-- `operator<`: the right side is a positive distance ahead. -/
def lt (buffSize : ℕ) (it rhs : IteratorImpl) : Bool := rhs.diff buffSize it > 0

/-- `operator>`: the left side is a positive distance ahead. -/
def gt (buffSize : ℕ) (it rhs : IteratorImpl) : Bool := it.diff buffSize rhs > 0

/-- `operator<=`, which looks for equality first. -/
def le (buffSize : ℕ) (it rhs : IteratorImpl) : Bool :=
  if it.eq rhs then true else it.lt buffSize rhs

/-- `operator>=`, which looks for equality first. -/
def ge (buffSize : ℕ) (it rhs : IteratorImpl) : Bool :=
  if it.eq rhs then true else it.gt buffSize rhs

/-- In a contiguous region the iterator moves as a pointer does, wherever it leads. -/
theorem addAssign_of_le {it : IteratorImpl} (h : it.lfirst ≤ it.llast) (n : ℤ) :
    it.addAssign n = { it with iter := it.iter + n } := by
  simp [addAssign, logicalRegionIsContiguous, h]

end IteratorImpl

/-- `enum overwrite_policy`: what an insertion into a full buffer does. -/
inductive OverwritePolicy where
  | no_overwrite
  | overwrite
  deriving DecidableEq, Repr

/-- The members of `ringbuffer<T, N>`; `N` is a parameter of the functions. -/
@[ext] structure RingBuffer (T : Type*) where
  buffer : Backing T
  buffered : ℕ
  owpolicy : OverwritePolicy
  tail : IteratorImpl
  head : IteratorImpl

namespace RingBuffer

variable {T : Type*}

/-- `_first`, the address of the first slot. -/
def first : ℤ := 0

/-- `_last`, the address of the last slot. -/
def last (N : ℕ) : ℤ := N - 1

/-- The privileged iterators work in the whole array. -/
def privileged (N : ℕ) : IteratorImpl := ⟨first, first, last N, first, last N⟩

/-- The default constructor: no elements, and both ends at the first slot. -/
def new (N : ℕ) : RingBuffer T where
  buffer := .empty
  buffered := 0
  owpolicy := .no_overwrite
  tail := privileged N
  head := privileged N

/-- `size()`, the number of elements that is kept beside the iterators. -/
def size (b : RingBuffer T) : ℕ := b.buffered

/-- `set_overwrite_policy(pol)`, which changes nothing else. -/
def setOverwritePolicy (b : RingBuffer T) (pol : OverwritePolicy) : RingBuffer T :=
  { b with owpolicy := pol }

/-- The last slot of the logical region between `_head` and `_tail`. -/
def lastLogical (b : RingBuffer T) : ℤ :=
  if b.tail.eq b.head then b.tail.addressof else (b.tail.sub 1).addressof

/-- `begin()` and `cbegin()`: an iterator over the elements, from the oldest on. -/
def begin (N : ℕ) (b : RingBuffer T) : IteratorImpl :=
  ⟨b.head.addressof, b.head.addressof, b.lastLogical, first, last N⟩

/-- `end()`: the iterator behind the newest element. -/
def finish (N : ℕ) (b : RingBuffer T) : IteratorImpl :=
  ⟨b.tail.addressof, b.head.addressof, b.lastLogical, first, last N⟩

/-- The slot that `front()` refers to, also when the buffer is empty. -/
def frontSlot (b : RingBuffer T) : ℤ := b.head.index 0

/-- The slot that `back()` refers to; on a full or empty buffer both ends are at one address. -/
def backSlot (b : RingBuffer T) : ℤ :=
  if b.tail.eq b.head then b.tail.index 0 else b.tail.index (-1)

/-- The object that `front()` refers to, `none` where there is none. -/
def front (b : RingBuffer T) : Option T := b.buffer.slots b.frontSlot

/-- The object that `back()` refers to, `none` where there is none. -/
def back (b : RingBuffer T) : Option T := b.buffer.slots b.backSlot

/-- The loop of `clear`: step back and destroy, `_buffered` times. -/
def clearLoop : ℕ → IteratorImpl → Backing T → Backing T
  | 0, _, buffer => buffer
  | buffered + 1, it, buffer =>
    let it := it.subAssign 1
    clearLoop buffered it (buffer.destruct it.addressof)

/-- `clear()`: destroys the elements from the last to the first and moves the tail to the head. -/
def clear (N : ℕ) (b : RingBuffer T) : RingBuffer T :=
  { b with
    buffer := clearLoop b.buffered (b.finish N) b.buffer
    buffered := 0
    tail := b.head }

/-- The body that `push` and `emplace` share: the buffer, and the text of the exception where one is
thrown. -/
def insert (N : ℕ) (what : String) (b : RingBuffer T) (v : T) : RingBuffer T × Option String :=
  if b.buffered < N then
    let addr := b.tail.addressof
    ({ b with
        buffer := b.buffer.construct addr v
        tail := b.tail.addAssign 1
        buffered := b.buffered + 1 }, none)
  else if b.owpolicy = .overwrite then
    let addr := b.tail.addressof
    ({ b with
        buffer := (b.buffer.destruct addr).construct addr v
        tail := b.tail.addAssign 1
        head := b.head.addAssign 1 }, none)
  else (b, some what)

/-- `push(v)`; a moved argument leaves the same object in the slot. -/
def push (N : ℕ) (b : RingBuffer T) (v : T) : RingBuffer T × Option String :=
  insert N "push back on full buffer" b v

/-- `push_back(v)`, which is `push(v)`. -/
def pushBack (N : ℕ) (b : RingBuffer T) (v : T) : RingBuffer T × Option String := push N b v

/-- `emplace(args...)` with the object that `value_type{args...}` constructs. -/
def emplace (N : ℕ) (b : RingBuffer T) (v : T) : RingBuffer T × Option String :=
  insert N "emplace back on full buffer" b v

/-- `emplace_back(args...)`, which is `emplace(args...)`. -/
def emplaceBack (N : ℕ) (b : RingBuffer T) (v : T) : RingBuffer T × Option String := emplace N b v

/-- `pop()`: destroys the oldest element, if there is one, and steps the head. -/
def pop (b : RingBuffer T) : RingBuffer T :=
  if b.buffered > 0 then
    { b with
      buffer := b.buffer.destruct b.head.addressof
      head := b.head.addAssign 1
      buffered := b.buffered - 1 }
  else b

/-! ### Copies and exchanges -/

/-- The loop of the copy constructor, over the memory of the new buffer and of the other one. -/
def copyLoop : ℕ → IteratorImpl → IteratorImpl → Backing T → Backing T → Backing T × Backing T
  | 0, _, _, buffer, other => (buffer, other)
  | ob + 1, ti, oi, buffer, other =>
    let addr := ti.addressof
    copyLoop ob (ti.addAssign 1) (oi.addAssign 1) (buffer.constructFrom addr (other.slots oi.addressof))
      (other.touch oi.addressof)

/-- `ringbuffer(ringbuffer const & other)`: the new buffer, and the other one. -/
def copyConstruct (N : ℕ) (other : RingBuffer T) : RingBuffer T × RingBuffer T :=
  let b : RingBuffer T := { new N with buffered := other.buffered, owpolicy := other.owpolicy }
  let memory := copyLoop other.buffered b.tail (other.begin N) b.buffer other.buffer
  ({ b with buffer := memory.1, tail := b.tail.addAssign b.buffered }, { other with buffer := memory.2 })

/-- The loop of `operator=`, over the buffer and the memory of the other one. -/
def assignLoop : ℕ → IteratorImpl → RingBuffer T → Backing T → RingBuffer T × Backing T
  | 0, _, b, other => (b, other)
  | ob + 1, oi, b, other =>
    let addr := b.tail.addressof
    assignLoop ob (oi.addAssign 1)
      { b with
        buffer := b.buffer.constructFrom addr (other.slots oi.addressof)
        buffered := b.buffered + 1
        tail := b.tail.addAssign 1 }
      (other.touch oi.addressof)

/-- `operator=(ringbuffer const & other)` with another buffer. -/
def assign (N : ℕ) (b other : RingBuffer T) : RingBuffer T × RingBuffer T :=
  let b := { b.clear N with owpolicy := other.owpolicy }
  let result := assignLoop other.buffered (other.begin N) b other.buffer
  (result.1, { other with buffer := result.2 })

/-- The same loop where the other buffer is the buffer itself. -/
def selfAssignLoop : ℕ → IteratorImpl → RingBuffer T → RingBuffer T
  | 0, _, b => b
  | ob + 1, oi, b =>
    let addr := b.tail.addressof
    selfAssignLoop ob (oi.addAssign 1)
      { b with
        buffer := (b.buffer.touch oi.addressof).constructFrom addr (b.buffer.slots oi.addressof)
        buffered := b.buffered + 1
        tail := b.tail.addAssign 1 }

/-- `operator=(ringbuffer const & other)` with the buffer itself; `other.cbegin()` and `other._buffered`
are read behind `this->clear()`. -/
def selfAssign (N : ℕ) (b : RingBuffer T) : RingBuffer T :=
  let b := b.clear N
  selfAssignLoop b.buffered (b.begin N) b

/-- The loop of `swap` over the elements that have a counterpart: the iterators and the memories. -/
def swapLoop : ℕ → IteratorImpl → IteratorImpl → Backing T → Backing T →
    (IteratorImpl × IteratorImpl) × Backing T × Backing T
  | 0, ti, oi, buffer, other => ((ti, oi), buffer, other)
  | tb + 1, ti, oi, buffer, other =>
    let memory := buffer.swapSlots other ti.addressof oi.addressof
    swapLoop tb (ti.addAssign 1) (oi.addAssign 1) memory.1 memory.2

/-- The loop of `swap` over the other elements, which are moved to one of the memories and destroyed in the
other one. -/
def moveLoop : ℕ → IteratorImpl → IteratorImpl → Backing T → Backing T → Backing T × Backing T
  | 0, _, _, buffer, other => (buffer, other)
  | ob + 1, ti, oi, buffer, other =>
    let addr := ti.addressof
    moveLoop ob (ti.addAssign 1) (oi.addAssign 1) (buffer.constructFrom addr (other.slots oi.addressof))
      ((other.touch oi.addressof).destruct oi.addressof)

/-- The part of `swap` that exchanges the elements. -/
def swapElements (N : ℕ) (b other : RingBuffer T) : Backing T × Backing T :=
  if b.buffered ≤ other.buffered then
    let s := swapLoop b.buffered (b.begin N) (other.begin N) b.buffer other.buffer
    moveLoop (other.buffered - b.buffered) s.1.1 s.1.2 s.2.1 s.2.2
  else
    let s := swapLoop other.buffered (other.begin N) (b.begin N) other.buffer b.buffer
    let memory := moveLoop (b.buffered - other.buffered) s.1.1 s.1.2 s.2.1 s.2.2
    (memory.2, memory.1)

/-- `swap` with another buffer: the elements are exchanged one by one, then the ends are moved by the
difference of the sizes. -/
def swap (N : ℕ) (b other : RingBuffer T) : RingBuffer T × RingBuffer T :=
  let memory := swapElements N b other
  let td := b.tail.diff N b.head
  let od := other.tail.diff N other.head
  ({ b with
      buffer := memory.1
      tail := b.tail.addAssign (od - td)
      buffered := other.buffered
      owpolicy := other.owpolicy },
    { other with
      buffer := memory.2
      tail := other.tail.addAssign (td - od)
      buffered := b.buffered
      owpolicy := b.owpolicy })

/-- The loop of `swap` where every element is exchanged with itself. -/
def selfSwapLoop : ℕ → IteratorImpl → Backing T → Backing T
  | 0, _, buffer => buffer
  | tb + 1, ti, buffer => selfSwapLoop tb (ti.addAssign 1) (buffer.touch ti.addressof)

/-- `swap` with the buffer itself, where both sides of every exchange are one object. -/
def selfSwap (N : ℕ) (b : RingBuffer T) : RingBuffer T :=
  let td := b.tail.diff N b.head
  let od := b.tail.diff N b.head
  { b with
    buffer := selfSwapLoop b.buffered (b.begin N) b.buffer
    tail := (b.tail.addAssign (od - td)).addAssign (td - od) }

end RingBuffer

/-- The calls on a ring buffer that change it. -/
inductive RingOp (T : Type*) where
  | push (v : T)
  | pushBack (v : T)
  | emplace (v : T)
  | emplaceBack (v : T)
  | pop
  | clear
  | setOverwritePolicy (pol : OverwritePolicy)

/-- A call on a ring buffer, with the text of the exception it throws. -/
def RingBuffer.call {T : Type*} (N : ℕ) (b : RingBuffer T) : RingOp T → RingBuffer T × Option String
  | .push v => b.push N v
  | .pushBack v => b.pushBack N v
  | .emplace v => b.emplace N v
  | .emplaceBack v => b.emplaceBack N v
  | .pop => (b.pop, none)
  | .clear => (b.clear N, none)
  | .setOverwritePolicy pol => (b.setOverwritePolicy pol, none)

end MyUvpp
