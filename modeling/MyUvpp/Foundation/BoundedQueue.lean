import Mathlib.Data.List.Basic

/-! # Bounded first-in first-out queues

A queue that never holds more than `capacity` elements: a write takes as much of its argument as there
is room for, a read takes as much as there is. -/

namespace MyUvpp

/-- A queue of at most `capacity` elements, the oldest first. -/
@[ext] structure BoundedQueue (α : Type*) (capacity : ℕ) where
  content : List α
  length_le : content.length ≤ capacity

namespace BoundedQueue

variable {α : Type*} {capacity : ℕ}

/-- The empty queue, of any capacity. -/
def empty : BoundedQueue α capacity := ⟨[], Nat.zero_le _⟩

/-- The part of `l` that a write takes: its first elements, as many as there is room for. -/
def accepts (q : BoundedQueue α capacity) (l : List α) : List α :=
  l.take (capacity - q.content.length)

/-- Append what there is room for; the rest is refused. -/
def write (q : BoundedQueue α capacity) (l : List α) : BoundedQueue α capacity where
  content := q.content ++ q.accepts l
  length_le := by
    have h := q.length_le
    rw [accepts, List.length_append, List.length_take]
    omega

/-- What a read of up to `n` elements takes: the oldest ones. -/
def front (q : BoundedQueue α capacity) (n : ℕ) : List α := q.content.take n

/-- Remove the `n` oldest elements, or all where there are fewer. -/
def read (q : BoundedQueue α capacity) (n : ℕ) : BoundedQueue α capacity where
  content := q.content.drop n
  length_le := by
    have h := q.length_le
    rw [List.length_drop]
    omega

/-- Append an element; what there is no room for is dropped from the old end. -/
def pushEvict (q : BoundedQueue α capacity) (v : α) : BoundedQueue α capacity where
  content := (q.content ++ [v]).drop (q.content.length + 1 - capacity)
  length_le := by
    rw [List.length_drop, List.length_append, List.length_singleton]
    omega

/-- With room left nothing is dropped. -/
theorem content_pushEvict_of_lt {q : BoundedQueue α capacity} (v : α)
    (h : q.content.length < capacity) : (q.pushEvict v).content = q.content ++ [v] := by
  have hroom : q.content.length + 1 - capacity = 0 := by omega
  simp [pushEvict, hroom]

/-- A full queue loses its oldest element. -/
theorem content_pushEvict_of_full {q : BoundedQueue α capacity} (v : α)
    (h : q.content.length = capacity) : (q.pushEvict v).content = (q.content ++ [v]).drop 1 := by
  have hover : q.content.length + 1 - capacity = 1 := by omega
  simp only [pushEvict, hover]

/-- A read sees as many elements as it asks for, or all of them. -/
theorem length_front (q : BoundedQueue α capacity) (n : ℕ) :
    (q.front n).length = min n q.content.length := List.length_take

end BoundedQueue

end MyUvpp
