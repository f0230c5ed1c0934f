import MyUvpp.Foundation.TransitionSystem
import MyUvpp.Uv.HeapSpec

/-! # The heap over sequences of calls

A caller knows which nodes it has put in and not taken out. Over every sequence of calls, and for every
order of the nodes, the heap holds just these, and its minimum is a least one of them. -/

namespace MyUvpp

/-- `heap_dequeue`. `heap_remove` returns at once where the heap is empty. -/
def UvHeap.heapDequeue (lessThan : ℕ → ℕ → Bool) (h : UvHeap) : Option UvHeap :=
  match h.min with
  | none => if h.nelts = 0 then some h else none
  | some node => h.heapRemove lessThan node

/-- A heap, and the nodes that are in it by the calls so far. -/
structure HeapQueue where
  heap : UvHeap
  members : Finset ℕ

/-- A call. -/
inductive HeapCall where
  | insert (newnode : ℕ)
  | remove (node : ℕ)
  | dequeue

namespace HeapQueue

/-- What the caller has to see to: a node is in the heap once, it is there when it is removed, and `nelts`
can count the nodes. -/
def Allowed (q : HeapQueue) : HeapCall → Prop
  | .insert newnode => newnode ∉ q.members ∧ q.members.card + 1 < 2 ^ 32
  | .remove node => node ∈ q.members
  | .dequeue => True

/-- Whether a call may be made can be looked up in the members. -/
instance (q : HeapQueue) (c : HeapCall) : Decidable (q.Allowed c) :=
  match c with
  | .insert _ => inferInstanceAs (Decidable (_ ∧ _))
  | .remove node => inferInstanceAs (Decidable (node ∈ q.members))
  | .dequeue => inferInstanceAs (Decidable True)

/-- One call; there is no result where it is not allowed, or where a null pointer would be followed. -/
def step (lessThan : ℕ → ℕ → Bool) (q : HeapQueue) (c : HeapCall) : Option HeapQueue :=
  if q.Allowed c then
    match c with
    | .insert newnode =>
      (q.heap.heapInsert lessThan newnode).map fun heap => ⟨heap, insert newnode q.members⟩
    | .remove node => (q.heap.heapRemove lessThan node).map fun heap => ⟨heap, q.members.erase node⟩
    | .dequeue =>
      (q.heap.heapDequeue lessThan).map fun heap => ⟨heap, q.heap.heapMin.elim q.members q.members.erase⟩
  else none

variable {κ : Type*} [LinearOrder κ] {key : ℕ → κ} {lessThan : ℕ → ℕ → Bool} {q q' : HeapQueue}
  {c : HeapCall}

/-- A call that was answered was one that may be made. -/
theorem allowed_of_step (h : step lessThan q c = some q') : q.Allowed c := by
  by_contra hnot
  unfold step at h
  rw [if_neg hnot] at h
  cases h

/-- **A call that is allowed succeeds**, and keeps the heap. -/
theorem exists_step (hless : ∀ a b, lessThan a b = true ↔ key a < key b)
    (h : q.heap.IsHeap key q.members) (hallowed : q.Allowed c) :
    ∃ q', step lessThan q c = some q' ∧ q'.heap.IsHeap key q'.members := by
  unfold step
  rw [if_pos hallowed]
  cases c with
  | insert newnode =>
    obtain ⟨heap, hheap, h'⟩ := h.heapInsert hless hallowed.1 hallowed.2
    exact ⟨_, congrArg (Option.map _) hheap, h'⟩
  | remove node =>
    obtain ⟨heap, hheap, h'⟩ := h.heapRemove hless hallowed
    exact ⟨_, congrArg (Option.map _) hheap, h'⟩
  | dequeue =>
    obtain ⟨hnone, hmin⟩ := h.heapMin_spec
    cases hm : q.heap.heapMin with
    | none =>
      have hnelts : q.heap.nelts = 0 := by rw [h.nelts_eq, hnone.mp hm, Finset.card_empty]
      have hdequeue : q.heap.heapDequeue lessThan = some q.heap := by
        rw [UvHeap.heapDequeue, show q.heap.min = none from hm]
        exact if_pos hnelts
      exact ⟨_, congrArg (Option.map _) hdequeue, h⟩
    | some node =>
      obtain ⟨heap, hheap, h'⟩ := h.heapRemove hless (hmin node hm).1
      have hdequeue : q.heap.heapDequeue lessThan = some heap := by
        rw [UvHeap.heapDequeue, show q.heap.min = some node from hm]
        exact hheap
      exact ⟨_, congrArg (Option.map _) hdequeue, h'⟩

/-- **The heap is a queue by priority.** Whatever the order of the nodes, behind every sequence of calls
`nelts` is the number of the nodes that are in the heap, its minimum is null only where there is none and a
least one of them otherwise, and the next call, if it is allowed, follows no null pointer. -/
theorem heap_is_queue (key : ℕ → κ) (hless : ∀ a b, lessThan a b = true ↔ key a < key b) (nodes : ℕ → HeapNode)
    (cs : List HeapCall) (hrun : run (step lessThan) ⟨.init nodes, ∅⟩ cs = some q) :
    q.heap.nelts = q.members.card ∧ (q.heap.heapMin = none ↔ q.members = ∅) ∧
      (∀ a ∈ q.heap.heapMin, a ∈ q.members ∧ ∀ b ∈ q.members, key a ≤ key b) ∧
      ∀ c, q.Allowed c → (step lessThan q c).isSome = true := by
  have h : q.heap.IsHeap key q.members := by
    refine run_invariant (I := fun q => q.heap.IsHeap key q.members) (fun q c q' h hstep => ?_)
      (UvHeap.isHeap_init key nodes) hrun
    obtain ⟨q₁, hq₁, h'⟩ := exists_step hless h (allowed_of_step hstep)
    rw [Option.some_injective _ (hstep.symm.trans hq₁)]
    exact h'
  refine ⟨h.nelts_eq, h.heapMin_spec.1, h.heapMin_spec.2, fun c hallowed => ?_⟩
  obtain ⟨q', hq', -⟩ := exists_step hless h hallowed
  exact Option.isSome_iff_exists.mpr ⟨q', hq'⟩

/-- Five nodes go in and out: the least of what is left is at the root. -/
theorem heap_is_queue_three_nodes :
    ∃ q, run (step fun a b => a < b) ⟨.init fun _ => ⟨none, none, none⟩, ∅⟩
        [.insert 5, .insert 2, .insert 7, .remove 5, .insert 3, .dequeue] = some q ∧
      q.heap.heapMin = some 3 ∧ q.heap.nelts = q.members.card ∧ (q.heap.heapMin = none ↔ q.members = ∅) ∧
      (∀ a ∈ q.heap.heapMin, a ∈ q.members ∧ ∀ b ∈ q.members, a ≤ b) ∧
      ∀ c, q.Allowed c → (step (fun a b => a < b) q c).isSome = true :=
  exists_last_of_map (fun q => q.heap.heapMin) (by decide +kernel) fun _ hq hmin =>
    ⟨hmin, heap_is_queue id (fun _ _ => decide_eq_true_iff) _ _ hq⟩

end HeapQueue

end MyUvpp
