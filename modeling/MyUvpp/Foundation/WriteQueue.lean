import Mathlib.Data.List.Basic
import Mathlib.Logic.Function.Basic

/-! # Write requests that a stream has still to write

A write request names a buffer and does not copy it. A stream takes the bytes of its requests later, in
their order and as many at a time as its peer lets it, from the buffers as they are then. `rest` is what
it has still to write; it is what was asked for as long as nobody touches the buffers of the requests that
are queued. -/

namespace MyUvpp

/-- The requests of a stream that have not been written entirely, each with the number of its elements
that have been. -/
structure WriteQueue (ρ : Type*) where
  requests : List (ρ × ℕ)

namespace WriteQueue

variable {ρ β : Type*}

/-- No requests, nothing to write. -/
def empty : WriteQueue ρ := ⟨[]⟩

/-- New requests are put behind the others. -/
def push (q : WriteQueue ρ) (rs : List ρ) : WriteQueue ρ := ⟨q.requests ++ rs.map fun r => (r, 0)⟩

/-- A request is given up, with what is left of it. -/
def remove [DecidableEq ρ] (q : WriteQueue ρ) (r : ρ) : WriteQueue ρ :=
  ⟨q.requests.filter (·.1 ≠ r)⟩

/-- The requests, without their progress, in the order in which they came. -/
def waiting (q : WriteQueue ρ) : List ρ := q.requests.map Prod.fst

/-- What is still to be written, with the contents of the buffers. -/
def rest (memory : ρ → List β) (q : WriteQueue ρ) : List β :=
  q.requests.flatMap fun (r, done) => (memory r).drop done

/-- Write at most `n` elements of the first request, which is finished when nothing of it is left. -/
def write (memory : ρ → List β) (n : ℕ) (q : WriteQueue ρ) : List β × WriteQueue ρ :=
  match q.requests with
  | [] => ([], q)
  | (r, done) :: rs =>
    (((memory r).drop done).take n,
      if done + n < (memory r).length then ⟨(r, done + n) :: rs⟩ else ⟨rs⟩)

variable {q : WriteQueue ρ} {memory memory' : ρ → List β}

/-- An empty queue has nothing left to write. -/
@[simp] theorem rest_empty (memory : ρ → List β) : (empty : WriteQueue ρ).rest memory = [] := rfl

/-- What is put into the queue waits behind the others. -/
@[simp] theorem waiting_push (q : WriteQueue ρ) (rs : List ρ) : (q.push rs).waiting = q.waiting ++ rs := by
  rw [waiting, push, List.map_append, List.map_map]
  exact congrArg _ (List.map_id rs)

/-- To put in nothing changes nothing. -/
@[simp] theorem push_nil (q : WriteQueue ρ) : q.push [] = q := by
  rw [push, List.map_nil, List.append_nil]

/-- A new request adds its buffer. -/
theorem rest_push (memory : ρ → List β) (q : WriteQueue ρ) (rs : List ρ) :
    (q.push rs).rest memory = q.rest memory ++ rs.flatMap memory := by
  rw [rest, push, List.flatMap_append, List.flatMap_map]
  rfl

/-- What waits after one has been removed waited before, and is another one. -/
theorem mem_waiting_remove [DecidableEq ρ] {r r' : ρ} (h : r' ∈ (q.remove r).waiting) :
    r' ∈ q.waiting ∧ r' ≠ r := by
  obtain ⟨p, hp, rfl⟩ := List.mem_map.mp h
  obtain ⟨hmem, hne⟩ := List.mem_filter.mp hp
  exact ⟨List.mem_map_of_mem hmem, of_decide_eq_true hne⟩

/-- A request that does not wait cannot be given up. -/
theorem remove_of_notMem [DecidableEq ρ] {r : ρ} (h : r ∉ q.waiting) : q.remove r = q := by
  refine congrArg mk (List.filter_eq_self.mpr fun p hp => decide_eq_true ?_)
  rintro rfl
  exact h (List.mem_map_of_mem hp)

/-- **Writing.** What is written and what is left then is what was left before. -/
theorem write_append_rest (memory : ρ → List β) (n : ℕ) (q : WriteQueue ρ) :
    (q.write memory n).1 ++ (q.write memory n).2.rest memory = q.rest memory := by
  obtain ⟨requests⟩ := q
  cases requests with
  | nil => rfl
  | cons p rs =>
    obtain ⟨r, done⟩ := p
    have hsplit : ((memory r).drop done).take n ++ (memory r).drop (done + n) =
        (memory r).drop done := by
      rw [← List.drop_drop, List.take_append_drop]
    simp only [write, rest, List.flatMap_cons]
    split
    case isTrue => rw [List.flatMap_cons, ← List.append_assoc, hsplit]
    case isFalse hdone =>
      rw [List.drop_eq_nil_of_le (Nat.not_lt.mp hdone), List.append_nil] at hsplit
      rw [hsplit]

/-- Writing brings no new requests. -/
theorem waiting_write_subset (memory : ρ → List β) (n : ℕ) (q : WriteQueue ρ) :
    (q.write memory n).2.waiting ⊆ q.waiting := by
  obtain ⟨requests⟩ := q
  cases requests with
  | nil => exact List.Subset.refl _
  | cons p rs =>
    simp only [write, waiting]
    split
    case isTrue => exact List.Subset.refl _
    case isFalse => exact List.subset_cons_self _ _

/-- What is to be written depends on the buffers of the waiting requests only. -/
theorem rest_congr (h : ∀ r ∈ q.waiting, memory r = memory' r) : q.rest memory = q.rest memory' := by
  refine List.flatMap_congr fun p hp => ?_
  simp only
  rw [h p.1 (List.mem_map_of_mem hp)]

/-- Requests are put into a queue and written, one after the other: what was put in, and what was written. -/
inductive Runs (memory : ρ → List β) (q : WriteQueue ρ) : List ρ → List β → WriteQueue ρ → Prop where
  | refl : Runs memory q [] [] q
  | push {rs : List ρ} {out : List β} {q' : WriteQueue ρ} (r : ρ) (h : Runs memory q rs out q') :
    Runs memory q (rs ++ [r]) out (q'.push [r])
  | write {rs : List ρ} {out : List β} {q' : WriteQueue ρ} (n : ℕ) (h : Runs memory q rs out q') :
    Runs memory q rs (out ++ (q'.write memory n).1) (q'.write memory n).2

/-- **No byte is lost, repeated or reordered**: what was written and what is left are what was there and what
was put in. -/
theorem Runs.append_rest {rs : List ρ} {out : List β} {q' : WriteQueue ρ} (h : Runs memory q rs out q') :
    out ++ q'.rest memory = q.rest memory ++ rs.flatMap memory := by
  induction h with
  | refl => rw [List.nil_append, List.flatMap_nil, List.append_nil]
  | push r _ ih =>
    rw [rest_push, ← List.append_assoc, ih, List.append_assoc, List.flatMap_append]
  | write n _ ih => rw [List.append_assoc, write_append_rest, ih]

end WriteQueue

end MyUvpp
